import FabricEvolution.Wire.Scan

/-!
# The parser accepts exactly the grammar

* `Reads` : a text with its tree, admissible at a depth, and the value it denotes;
* `parserReads` : what the parser returns is what the text it has read denotes, by induction on the fuel;
* `JsonText.accepted` : every text of the grammar is read, by induction on the derivation;
* `parseJson_iff` : both for a text as a whole.
-/

namespace FabricEvolution
open Lib

section
variable {limits : JsonParseLimits} {floats : FloatText}

/-! ## What is read is a text -/

/-- A text with its tree, admissible at a depth, and the value it denotes. -/
structure Reads (floats : FloatText) (limits : JsonParseLimits) (depth : Nat) (body : Bytes) (tree : JsonSyntax) (value : Json) :
    Prop where
  text : JsonText body tree
  admissible : tree.Admissible limits depth
  value : tree.value floats = some value

/-- Elements at a depth, and the values they denote. -/
structure ElementsRead (floats : FloatText) (limits : JsonParseLimits) (depth : Nat) (elements : List ElementText)
    (values : List Json) : Prop where
  before : ∀ e ∈ elements, Spaces e.before
  after : ∀ e ∈ elements, Spaces e.after
  texts : ∀ e ∈ elements, JsonText e.body e.value
  admissible : ∀ e ∈ elements, e.value.Admissible limits depth
  values : JsonSyntax.elementValues floats (elements.map ElementText.value) = some values

/-- Members at a depth behind those of `known`, and the values they denote. -/
structure MembersRead (floats : FloatText) (limits : JsonParseLimits) (depth : Nat) (known : List (String × Json))
    (members : List MemberText) (values : List (String × Json)) : Prop where
  before : ∀ m ∈ members, Spaces m.before
  keys : ∀ m ∈ members, ∃ chars, CharsText m.key chars ∧ m.name = String.ofList chars
  lengths : ∀ m ∈ members, m.name.length ≤ limits.maxStringBytes
  after : ∀ m ∈ members, Spaces m.after
  padding : ∀ m ∈ members, Spaces m.element.before ∧ Spaces m.element.after
  texts : ∀ m ∈ members, JsonText m.element.body m.element.value
  admissible : ∀ m ∈ members, m.element.value.Admissible limits depth
  fresh : ∀ m ∈ members, assocFind m.name known = none
  distinct : (members.map MemberText.name).Nodup
  room : known.length + members.length ≤ limits.maxContainerEntries
  values : JsonSyntax.memberValues floats (members.map fun m => (m.name, m.element.value)) = some values

theorem separated_cons {text : Bytes} {texts : List Bytes} (h : texts ≠ []) :
    separated (text :: texts) = text ++ ',' :: separated texts := by
  cases texts with
  | nil => exact absurd rfl h
  | cons => rfl

/-- What stands between brackets starts with one of its parts. -/
theorem exists_separated {α : Type} {parts : List α} (hne : parts ≠ []) (text : α → Bytes) (tail : Bytes) :
    ∃ part ∈ parts, ∃ later, separated (parts.map text) ++ tail = text part ++ later := by
  match parts with
  | [part] => exact ⟨part, List.mem_cons_self, tail, rfl⟩
  | part :: part' :: parts =>
    refine ⟨part, List.mem_cons_self, ',' :: separated ((part' :: parts).map text) ++ tail, ?_⟩
    rw [List.map_cons, separated_cons (by simp), List.append_assoc]

theorem ElementsRead.nil {depth : Nat} : ElementsRead floats limits depth [] [] :=
  ⟨by simp, by simp, by simp, by simp, rfl⟩

theorem ElementsRead.cons {depth : Nat} {before body after : Bytes} {tree : JsonSyntax} {value : Json}
    {elements : List ElementText} {values : List Json} (hbefore : Spaces before) (hafter : Spaces after)
    (hread : Reads floats limits depth body tree value) (h : ElementsRead floats limits depth elements values) :
    ElementsRead floats limits depth (⟨before, body, after, tree⟩ :: elements) (value :: values) where
  before := List.forall_mem_cons.2 ⟨hbefore, h.before⟩
  after := List.forall_mem_cons.2 ⟨hafter, h.after⟩
  texts := List.forall_mem_cons.2 ⟨hread.text, h.texts⟩
  admissible := List.forall_mem_cons.2 ⟨hread.admissible, h.admissible⟩
  values := by
    rw [List.map_cons, JsonSyntax.elementValues, hread.value, h.values]
    rfl

theorem MembersRead.nil {depth : Nat} {known : List (String × Json)} (hroom : known.length ≤ limits.maxContainerEntries) :
    MembersRead floats limits depth known [] [] :=
  ⟨by simp, by simp, by simp, by simp, by simp, by simp, by simp, by simp, by simp, hroom, rfl⟩

theorem MembersRead.cons {depth : Nat} {known : List (String × Json)} {before key after chars : Bytes} {element : ElementText}
    {value : Json} {members : List MemberText} {values : List (String × Json)} (hbefore : Spaces before)
    (hkey : CharsText key chars) (hlength : chars.length ≤ limits.maxStringBytes) (hafter : Spaces after)
    (hpadding : Spaces element.before ∧ Spaces element.after) (hread : Reads floats limits depth element.body element.value value)
    (hnew : assocFind (String.ofList chars) known = none)
    (h : MembersRead floats limits depth (assocInsert (String.ofList chars) value known) members values) :
    MembersRead floats limits depth known (⟨before, key, after, String.ofList chars, element⟩ :: members)
      ((String.ofList chars, value) :: values) := by
  have hfresh : ∀ m ∈ members, String.ofList chars ≠ m.name ∧ assocFind m.name known = none := by
    intro m hm
    have hnone := h.fresh m hm
    rw [assocFind_insert] at hnone
    split_ifs at hnone with hsame
    exact ⟨hsame, hnone⟩
  exact {
    before := List.forall_mem_cons.2 ⟨hbefore, h.before⟩
    keys := List.forall_mem_cons.2 ⟨⟨chars, hkey, rfl⟩, h.keys⟩
    lengths := List.forall_mem_cons.2 ⟨by rwa [String.length_ofList], h.lengths⟩
    after := List.forall_mem_cons.2 ⟨hafter, h.after⟩
    padding := List.forall_mem_cons.2 ⟨hpadding, h.padding⟩
    texts := List.forall_mem_cons.2 ⟨hread.text, h.texts⟩
    admissible := List.forall_mem_cons.2 ⟨hread.admissible, h.admissible⟩
    fresh := List.forall_mem_cons.2 ⟨hnew, fun m hm => (hfresh m hm).2⟩
    distinct := by
      rw [List.map_cons, List.nodup_cons, List.mem_map]
      refine ⟨?_, h.distinct⟩
      rintro ⟨m, hm, hname⟩
      exact (hfresh m hm).1 hname.symm
    room := by
      have hlength := (assocInsert_perm hnew value).length_eq
      have hroom := h.room
      rw [hlength, List.length_cons] at hroom
      rw [List.length_cons]
      omega
    values := by
      rw [List.map_cons, JsonSyntax.memberValues, hread.value, h.values]
      rfl }

theorem JsonSyntax.length_elementValues {trees : List JsonSyntax} {values : List Json}
    (h : JsonSyntax.elementValues floats trees = some values) : values.length = trees.length := by
  induction trees generalizing values with
  | nil =>
    cases h
    rfl
  | cons tree trees ih =>
    obtain ⟨value, -, hrest⟩ := Option.bind_eq_some_iff.1 h
    obtain ⟨values, hvalues, rfl⟩ := Option.map_eq_some_iff.1 hrest
    rw [List.length_cons, List.length_cons, ih hvalues]

/-- What each part of the parser has read when it succeeds. -/
structure ParserReads (floats : FloatText) (limits : JsonParseLimits) (fuel : Nat) : Prop where
  value : ∀ {depth text value rest}, parseValue floats limits fuel depth text = .ok (value, rest) →
    ∃ body tree, text = body ++ rest ∧ Reads floats limits depth body tree value
  elements : ∀ {depth before text value rest}, parseElements floats limits fuel depth before text = .ok (value, rest) →
    ∃ elements values, elements ≠ [] ∧ text = separated (elements.map ElementText.text) ++ ']' :: rest ∧
      ElementsRead floats limits (depth + 1) elements values ∧ value = .array (before ++ values) ∧
      (before ++ values).length ≤ limits.maxContainerEntries
  members : ∀ {depth known text value rest}, parseMembers floats limits fuel depth known text = .ok (value, rest) →
    ∃ members values, members ≠ [] ∧ text = separated (members.map MemberText.text) ++ '}' :: rest ∧
      MembersRead floats limits (depth + 1) known members values ∧
      value = .object (values.foldl (fun out member => assocInsert member.1 member.2 out) known)

theorem reads_of_parseElements {fuel : Nat} (ih : ParserReads floats limits fuel) {depth : Nat} {before : List Json}
    {text rest : Bytes} {value : Json} (h : parseElements floats limits (fuel + 1) depth before text = .ok (value, rest)) :
    ∃ elements values, elements ≠ [] ∧ text = separated (elements.map ElementText.text) ++ ']' :: rest ∧
      ElementsRead floats limits (depth + 1) elements values ∧ value = .array (before ++ values) ∧
      (before ++ values).length ≤ limits.maxContainerEntries := by
  rw [parseElements] at h
  split_ifs at h with hfull
  obtain ⟨first, rest₁, hvalue, hnext⟩ := Parsed.andThen_eq_ok h
  obtain ⟨lead, hlead, htext⟩ := spaces_of_skipWhitespace text
  obtain ⟨body, tree, hbody, hread⟩ := ih.value hvalue
  rw [hbody] at htext
  split at hnext
  · cases hnext
  · rename_i rest₂ hseparator
    obtain ⟨spaces, rest₃, hspaces, ⟨hkind, -⟩ | ⟨hkind, hrest⟩⟩ := separator_cases hseparator
    · cases hkind
    cases hkind
    cases hnext
    refine ⟨[⟨lead, body, spaces, tree⟩], [first], by simp, ?_, .cons hlead hspaces hread .nil, rfl, ?_⟩
    · rw [htext, hrest]
      simp [separated, ElementText.text]
    · rw [List.length_append, List.length_singleton]
      omega
  · rename_i rest₂ hseparator
    obtain ⟨spaces, rest₃, hspaces, ⟨hkind, hrest⟩ | ⟨hkind, -⟩⟩ := separator_cases hseparator
    · cases hkind
      obtain ⟨elements, values, hne, hrest₂, helements, rfl, hlength⟩ := ih.elements hnext
      refine ⟨⟨lead, body, spaces, tree⟩ :: elements, first :: values, by simp, ?_, .cons hlead hspaces hread helements, ?_, ?_⟩
      · rw [List.map_cons, separated_cons (by simpa using hne), htext, hrest, hrest₂]
        simp [ElementText.text]
      · rw [List.append_assoc, List.singleton_append]
      · rwa [List.append_assoc, List.singleton_append] at hlength
    · cases hkind

theorem reads_of_parseMembers {fuel : Nat} (ih : ParserReads floats limits fuel) {depth : Nat} {known : List (String × Json)}
    {text rest : Bytes} {value : Json} (h : parseMembers floats limits (fuel + 1) depth known text = .ok (value, rest)) :
    ∃ members values, members ≠ [] ∧ text = separated (members.map MemberText.text) ++ '}' :: rest ∧
      MembersRead floats limits (depth + 1) known members values ∧
      value = .object (values.foldl (fun out member => assocInsert member.1 member.2 out) known) := by
  rw [parseMembers] at h
  obtain ⟨name, rest₁, hkey, h₁⟩ := Parsed.andThen_eq_ok h
  obtain ⟨first, rest₂, hvalue, hnext⟩ := Parsed.andThen_eq_ok h₁
  obtain ⟨lead, key, after, between, chars, htext, hlead, hafter, hbetween, hchars, rfl, hlength, hroom, hnew⟩ :=
    key_of_parseKey hkey
  obtain ⟨body, tree, hbody, hread⟩ := ih.value hvalue
  rw [hbody] at htext
  rw [String.length_ofList] at hlength
  split at hnext
  · cases hnext
  · rename_i rest₃ hseparator
    obtain ⟨spaces, rest₄, hspaces, ⟨hkind, -⟩ | ⟨hkind, hrest⟩⟩ := separator_cases hseparator
    · cases hkind
    cases hkind
    cases hnext
    refine ⟨[⟨lead, key, after, String.ofList chars, ⟨between, body, spaces, tree⟩⟩], [(String.ofList chars, first)], by simp, ?_,
      .cons hlead hchars hlength hafter ⟨hbetween, hspaces⟩ hread hnew (.nil ?_), rfl⟩
    · rw [htext, hrest]
      simp [separated, MemberText.text, ElementText.text]
    · rw [(assocInsert_perm hnew first).length_eq, List.length_cons]
      omega
  · rename_i rest₃ hseparator
    obtain ⟨spaces, rest₄, hspaces, ⟨hkind, hrest⟩ | ⟨hkind, -⟩⟩ := separator_cases hseparator
    · cases hkind
      obtain ⟨members, values, hne, hrest₃, hmembers, rfl⟩ := ih.members hnext
      refine ⟨⟨lead, key, after, String.ofList chars, ⟨between, body, spaces, tree⟩⟩ :: members,
        (String.ofList chars, first) :: values, by simp, ?_,
        .cons hlead hchars hlength hafter ⟨hbetween, hspaces⟩ hread hnew hmembers, rfl⟩
      rw [List.map_cons, separated_cons (by simpa using hne), htext, hrest, hrest₃]
      simp [MemberText.text, ElementText.text]
    · cases hkind

theorem Reads.array {depth : Nat} {elements : List ElementText} {values : List Json} (hdepth : depth ≤ limits.maxDepth)
    (hne : elements ≠ []) (h : ElementsRead floats limits (depth + 1) elements values)
    (hlength : values.length ≤ limits.maxContainerEntries) :
    Reads floats limits depth ('[' :: separated (elements.map ElementText.text) ++ [']'])
      (.array (elements.map ElementText.value)) (.array values) where
  text := .array hne h.before h.after h.texts
  admissible := by
    rw [JsonSyntax.length_elementValues h.values] at hlength
    exact .array hdepth hlength (List.forall_mem_map.2 h.admissible)
  value := by rw [JsonSyntax.value, h.values, Option.map_some]

theorem Reads.object {depth : Nat} {members : List MemberText} {values : List (String × Json)} (hdepth : depth ≤ limits.maxDepth)
    (hne : members ≠ []) (h : MembersRead floats limits (depth + 1) [] members values) :
    Reads floats limits depth ('{' :: separated (members.map MemberText.text) ++ ['}'])
      (.object (members.map fun m => (m.name, m.element.value)))
      (.object (values.foldl (fun out member => assocInsert member.1 member.2 out) [])) where
  text := .object hne h.before h.keys h.after h.padding h.texts
  admissible := by
    refine .object hdepth ?_ ?_ (List.forall_mem_map.2 h.lengths) (List.forall_mem_map.2 h.admissible)
    · have hroom := h.room
      rwa [List.length_nil, Nat.zero_add, ← List.length_map fun m => (m.name, m.element.value)] at hroom
    · rw [List.map_map]
      exact h.distinct
  value := by rw [JsonSyntax.value, h.values, Option.map_some]

/-- An empty container stands between its brackets. -/
theorem empty_of_skipWhitespace {close : Char} {text : Bytes} (h : (skipWhitespace text).head? = some close) :
    ∃ spaces, Spaces spaces ∧ text = spaces ++ close :: (skipWhitespace text).tail := by
  obtain ⟨spaces, hspaces, htext⟩ := spaces_of_skipWhitespace text
  refine ⟨spaces, hspaces, ?_⟩
  cases hskip : skipWhitespace text with
  | nil =>
    rw [hskip] at h
    cases h
  | cons c tail =>
    rw [hskip] at h htext
    cases h
    exact htext

theorem reads_of_parseValue {fuel : Nat} (ih : ParserReads floats limits fuel) {depth : Nat} {text rest : Bytes} {value : Json}
    (h : parseValue floats limits (fuel + 1) depth text = .ok (value, rest)) :
    ∃ body tree, text = body ++ rest ∧ Reads floats limits depth body tree value := by
  rw [parseValue.eq_def] at h
  dsimp only at h
  by_cases hdeep : depth > limits.maxDepth
  · rw [if_pos hdeep] at h
    cases h
  have hdepth : depth ≤ limits.maxDepth := Nat.not_lt.1 hdeep
  rw [if_neg hdeep] at h
  cases text with
  | nil => cases h
  | cons c text =>
    dsimp only at h
    by_cases hobject : c = '{'
    · subst hobject
      rw [if_pos rfl] at h
      split_ifs at h with hempty
      · obtain ⟨spaces, hspaces, htext⟩ := empty_of_skipWhitespace hempty
        cases h
        refine ⟨'{' :: spaces ++ ['}'], .object [], ?_, .emptyObject hspaces, .object hdepth (Nat.zero_le _) (by simp) (by simp)
          (by simp), rfl⟩
        conv_lhs => rw [htext]
        simp
      · obtain ⟨members, values, hne, htext, hmembers, rfl⟩ := ih.members h
        exact ⟨_, _, by rw [htext]; simp, .object hdepth hne hmembers⟩
    by_cases harray : c = '['
    · subst harray
      rw [if_neg hobject, if_pos rfl] at h
      split_ifs at h with hempty
      · obtain ⟨spaces, hspaces, htext⟩ := empty_of_skipWhitespace hempty
        cases h
        refine ⟨'[' :: spaces ++ [']'], .array [], ?_, .emptyArray hspaces, .array hdepth (Nat.zero_le _) (by simp), rfl⟩
        conv_lhs => rw [htext]
        simp
      · obtain ⟨elements, values, hne, htext, helements, rfl, hlength⟩ := ih.elements h
        exact ⟨_, _, by rw [htext]; simp, .array hdepth hne helements hlength⟩
    by_cases hstring : c = '"'
    · subst hstring
      rw [if_neg hobject, if_neg harray, if_pos rfl] at h
      obtain ⟨string, rest₁, hread, hvalue⟩ := Parsed.andThen_eq_ok h
      obtain ⟨body, chars, htext, hchars, hname, hlength⟩ := text_of_parseString hread
      cases hvalue
      refine ⟨'"' :: body ++ ['"'], .string (String.ofList chars), by rw [htext]; simp, .string hchars, .string hdepth ?_, ?_⟩
      · rwa [← hname]
      · rw [hname]
        rfl
    by_cases htrue : c = 't'
    · rw [if_neg hobject, if_neg harray, if_neg hstring, if_pos htrue] at h
      obtain ⟨htext, rfl⟩ := literal_of_parseLiteral h
      exact ⟨_, _, htext, .trueLiteral, .bool true hdepth, rfl⟩
    by_cases hfalse : c = 'f'
    · rw [if_neg hobject, if_neg harray, if_neg hstring, if_neg htrue, if_pos hfalse] at h
      obtain ⟨htext, rfl⟩ := literal_of_parseLiteral h
      exact ⟨_, _, htext, .falseLiteral, .bool false hdepth, rfl⟩
    by_cases hnull : c = 'n'
    · rw [if_neg hobject, if_neg harray, if_neg hstring, if_neg htrue, if_neg hfalse, if_pos hnull] at h
      obtain ⟨htext, rfl⟩ := literal_of_parseLiteral h
      exact ⟨_, _, htext, .null, .null hdepth, rfl⟩
    rw [if_neg hobject, if_neg harray, if_neg hstring, if_neg htrue, if_neg hfalse, if_neg hnull] at h
    obtain ⟨number, htext, hvalue⟩ := number_of_parseNumber h
    exact ⟨number.text, .number number, htext, .number number, .number number hdepth, hvalue⟩

/-- What the parser returns is what the text it has read denotes. -/
theorem parserReads (floats : FloatText) (limits : JsonParseLimits) (fuel : Nat) : ParserReads floats limits fuel := by
  induction fuel with
  | zero => exact ⟨nofun, nofun, nofun⟩
  | succ fuel ih => exact ⟨reads_of_parseValue ih, reads_of_parseElements ih, reads_of_parseMembers ih⟩

/-! ## Every text is read -/

/-- A text is read at any depth where its tree is admissible, whatever follows it. -/
def Parses (floats : FloatText) (limits : JsonParseLimits) (body : Bytes) (tree : JsonSyntax) : Prop :=
  ∀ {depth : Nat} {value : Json}, tree.Admissible limits depth → tree.value floats = some value → ∀ (fuel : Nat) (tail : Bytes),
    EndsNumber tail → 2 * body.length ≤ fuel → parseValue floats limits fuel depth (body ++ tail) = .ok (value, tail)

theorem ElementsRead.uncons {depth : Nat} {e : ElementText} {elements : List ElementText} {values : List Json}
    (h : ElementsRead floats limits depth (e :: elements) values) : ∃ first rest, values = first :: rest ∧
      e.value.value floats = some first ∧ ElementsRead floats limits depth elements rest := by
  obtain ⟨first, hfirst, hrest⟩ := Option.bind_eq_some_iff.1 h.values
  obtain ⟨rest, hvalues, rfl⟩ := Option.map_eq_some_iff.1 hrest
  exact ⟨first, rest, rfl, hfirst, (List.forall_mem_cons.1 h.before).2, (List.forall_mem_cons.1 h.after).2,
    (List.forall_mem_cons.1 h.texts).2, (List.forall_mem_cons.1 h.admissible).2, hvalues⟩

theorem parseElements_text {depth : Nat} {elements : List ElementText} {values before : List Json} (hne : elements ≠ [])
    (h : ElementsRead floats limits (depth + 1) elements values)
    (haccepted : ∀ e ∈ elements, Parses floats limits e.body e.value)
    (hroom : (before ++ values).length ≤ limits.maxContainerEntries) {fuel : Nat} (tail : Bytes)
    (hfuel : 2 * (separated (elements.map ElementText.text)).length + 1 ≤ fuel) :
    parseElements floats limits fuel depth before (separated (elements.map ElementText.text) ++ ']' :: tail) =
      .ok (.array (before ++ values), tail) := by
  induction elements generalizing values before fuel with
  | nil => exact absurd rfl hne
  | cons e elements ih =>
    obtain ⟨fuel, rfl⟩ : ∃ n, fuel = n + 1 := ⟨fuel - 1, by omega⟩
    obtain ⟨first, rest, rfl, hfirst, hlater⟩ := h.uncons
    have hbefore := h.before e List.mem_cons_self
    have hafter := h.after e List.mem_cons_self
    have hstart := (h.texts e List.mem_cons_self).starts
    have hvalue : ∀ next : Bytes, EndsNumber next → 2 * e.text.length ≤ fuel →
        parseValue floats limits fuel (depth + 1) (skipWhitespace (e.text ++ next)) = .ok (first, e.after ++ next) := by
      intro next hnext hlength
      rw [ElementText.text, List.append_assoc, List.append_assoc, hbefore.skipWhitespace, (hstart.append _).skipWhitespace]
      refine haccepted e List.mem_cons_self (h.admissible e List.mem_cons_self) hfirst fuel _ (endsNumber_spaces hafter hnext) ?_
      simp only [ElementText.text, List.length_append] at hlength
      omega
    rw [List.length_append, List.length_cons] at hroom
    have hspare : ¬ before.length ≥ limits.maxContainerEntries := by omega
    cases elements with
    | nil =>
      cases hlater.values
      have hlength : 2 * e.text.length + 1 ≤ fuel + 1 := hfuel
      have hread := hvalue (']' :: tail) (endsNumber_cons (.inr (.inl rfl))) (by omega)
      rw [List.map_singleton, separated, parseElements, if_neg hspare, hread, Parsed.andThen_ok,
        parseSeparator_last hafter (by decide)]
    | cons e' elements =>
      have hshape : separated ((e :: e' :: elements).map ElementText.text) =
          e.text ++ ',' :: separated ((e' :: elements).map ElementText.text) := separated_cons (by simp)
      rw [hshape, List.length_append, List.length_cons] at hfuel
      have hread := hvalue (',' :: (separated ((e' :: elements).map ElementText.text) ++ ']' :: tail))
        (endsNumber_cons (.inl rfl)) (by omega)
      have hnext : parseElements floats limits fuel depth (before ++ [first])
          (separated ((e' :: elements).map ElementText.text) ++ ']' :: tail) = .ok (.array (before ++ [first] ++ rest), tail) :=
        ih (by simp) hlater (fun e he => haccepted e (List.mem_cons_of_mem _ he))
          (by simp only [List.length_append, List.length_singleton]; omega) (by omega)
      rw [hshape, List.append_assoc, List.cons_append, parseElements, if_neg hspare, hread, Parsed.andThen_ok,
        parseSeparator_next hafter]
      rwa [List.append_assoc, List.singleton_append] at hnext

theorem MembersRead.uncons {depth : Nat} {known : List (String × Json)} {m : MemberText} {members : List MemberText}
    {values : List (String × Json)} (h : MembersRead floats limits depth known (m :: members) values) : ∃ first rest,
      values = (m.name, first) :: rest ∧ m.element.value.value floats = some first ∧ assocFind m.name known = none ∧
        known.length < limits.maxContainerEntries ∧
        MembersRead floats limits depth (assocInsert m.name first known) members rest := by
  obtain ⟨first, hfirst, hrest⟩ := Option.bind_eq_some_iff.1 h.values
  obtain ⟨rest, hvalues, rfl⟩ := Option.map_eq_some_iff.1 hrest
  have hnew := h.fresh m List.mem_cons_self
  have hdistinct := h.distinct
  rw [List.map_cons, List.nodup_cons, List.mem_map] at hdistinct
  have hroom := h.room
  rw [List.length_cons] at hroom
  refine ⟨first, rest, rfl, hfirst, hnew, by omega, (List.forall_mem_cons.1 h.before).2, (List.forall_mem_cons.1 h.keys).2,
    (List.forall_mem_cons.1 h.lengths).2, (List.forall_mem_cons.1 h.after).2, (List.forall_mem_cons.1 h.padding).2,
    (List.forall_mem_cons.1 h.texts).2, (List.forall_mem_cons.1 h.admissible).2, fun m' hm' => ?_, hdistinct.2, ?_, hvalues⟩
  · rw [assocFind_insert, if_neg fun hsame => hdistinct.1 ⟨m', hm', hsame.symm⟩]
    exact h.fresh m' (List.mem_cons_of_mem _ hm')
  · rw [(assocInsert_perm hnew first).length_eq, List.length_cons]
    omega

theorem parseMembers_text {depth : Nat} {members : List MemberText} {known values : List (String × Json)} (hne : members ≠ [])
    (h : MembersRead floats limits (depth + 1) known members values)
    (haccepted : ∀ m ∈ members, Parses floats limits m.element.body m.element.value) {fuel : Nat} (tail : Bytes)
    (hfuel : 2 * (separated (members.map MemberText.text)).length + 1 ≤ fuel) :
    parseMembers floats limits fuel depth known (separated (members.map MemberText.text) ++ '}' :: tail) =
      .ok (.object (values.foldl (fun out member => assocInsert member.1 member.2 out) known), tail) := by
  induction members generalizing known values fuel with
  | nil => exact absurd rfl hne
  | cons m members ih =>
    obtain ⟨fuel, rfl⟩ : ∃ n, fuel = n + 1 := ⟨fuel - 1, by omega⟩
    obtain ⟨first, rest, rfl, hfirst, hnew, hroom, hlater⟩ := h.uncons
    obtain ⟨chars, hchars, hname⟩ := h.keys m List.mem_cons_self
    have hpadding := h.padding m List.mem_cons_self
    have hstart := (h.texts m List.mem_cons_self).starts
    have hlength : chars.length ≤ limits.maxStringBytes := by
      have := h.lengths m List.mem_cons_self
      rwa [hname, String.length_ofList] at this
    have hkey : ∀ next : Bytes, parseKey limits known (m.text ++ next) =
        .ok (m.name, m.element.body ++ (m.element.after ++ next)) := by
      intro next
      have hshape : m.text ++ next = m.before ++ '"' :: m.key ++ '"' :: m.after ++
          ':' :: (m.element.before ++ (m.element.body ++ (m.element.after ++ next))) := by
        simp [MemberText.text, ElementText.text]
      rw [hshape, hname]
      rw [hname] at hnew
      exact parseKey_text (h.before m List.mem_cons_self) (h.after m List.mem_cons_self) hpadding.1 hchars hlength hroom hnew
        (hstart.append _)
    have hvalue : ∀ next : Bytes, EndsNumber next → 2 * m.text.length ≤ fuel →
        parseValue floats limits fuel (depth + 1) (m.element.body ++ (m.element.after ++ next)) =
          .ok (first, m.element.after ++ next) := by
      intro next hnext hfuel
      refine haccepted m List.mem_cons_self (h.admissible m List.mem_cons_self) hfirst fuel _
        (endsNumber_spaces hpadding.2 hnext) ?_
      simp only [MemberText.text, ElementText.text, List.length_append, List.length_cons] at hfuel
      omega
    cases members with
    | nil =>
      cases hlater.values
      have hlength : 2 * m.text.length + 1 ≤ fuel + 1 := hfuel
      rw [List.map_singleton, separated, parseMembers, hkey, Parsed.andThen_ok,
        hvalue ('}' :: tail) (endsNumber_cons (.inr (.inr rfl))) (by omega), Parsed.andThen_ok,
        parseSeparator_last hpadding.2 (by decide)]
      rfl
    | cons m' members =>
      have hshape : separated ((m :: m' :: members).map MemberText.text) =
          m.text ++ ',' :: separated ((m' :: members).map MemberText.text) := separated_cons (by simp)
      rw [hshape, List.length_append, List.length_cons] at hfuel
      have hnext : parseMembers floats limits fuel depth (assocInsert m.name first known)
          (separated ((m' :: members).map MemberText.text) ++ '}' :: tail) =
            .ok (.object (rest.foldl (fun out member => assocInsert member.1 member.2 out) (assocInsert m.name first known)), tail) :=
        ih (by simp) hlater (fun m hm => haccepted m (List.mem_cons_of_mem _ hm)) (by omega)
      rw [hshape, List.append_assoc, List.cons_append, parseMembers, hkey, Parsed.andThen_ok,
        hvalue (',' :: (separated ((m' :: members).map MemberText.text) ++ '}' :: tail)) (endsNumber_cons (.inl rfl)) (by omega),
        Parsed.andThen_ok, parseSeparator_next hpadding.2]
      exact hnext

/-- A number is parsed as one. -/
theorem parseValue_number {fuel depth : Nat} {c : Char} {rest : Bytes} (hdepth : depth ≤ limits.maxDepth)
    (hc : c.isDigit = true ∨ c = '-') :
    parseValue floats limits (fuel + 1) depth (c :: rest) = parseNumber floats (c :: rest) := by
  have hne : ∀ d : Char, d.isDigit = false → d ≠ '-' → c ≠ d := by
    rintro d hdigit hsign rfl
    rcases hc with h | h
    · rw [h] at hdigit
      cases hdigit
    · exact hsign h
  rw [parseValue, if_neg (by omega)]
  simp only [hne '{' (by decide) (by decide), hne '[' (by decide) (by decide), hne '"' (by decide) (by decide),
    hne 't' (by decide) (by decide), hne 'f' (by decide) (by decide), hne 'n' (by decide) (by decide), if_false]

/-- A word is read whole. -/
theorem parseValue_word {depth fuel : Nat} {word : Bytes} {value : Json} (hdepth : depth ≤ limits.maxDepth)
    (hword : word = "null".toList ∧ value = .null ∨ word = "true".toList ∧ value = .bool true ∨
      word = "false".toList ∧ value = .bool false) (tail : Bytes) (hfuel : 2 * word.length ≤ fuel) :
    parseValue floats limits fuel depth (word ++ tail) = .ok (value, tail) := by
  obtain ⟨fuel, rfl⟩ : ∃ n, fuel = n + 1 := by
    refine ⟨fuel - 1, ?_⟩
    rcases hword with ⟨rfl, -⟩ | ⟨rfl, -⟩ | ⟨rfl, -⟩ <;> simp at hfuel <;> omega
  have hliteral := parseLiteral_word word value tail
  rw [parseValue.eq_def]
  simp only [if_neg (Nat.not_lt.2 hdepth)]
  rcases hword with ⟨rfl, rfl⟩ | ⟨rfl, rfl⟩ | ⟨rfl, rfl⟩ <;> exact hliteral

/-- Every text of the grammar is accepted. -/
theorem JsonText.accepted {body : Bytes} {tree : JsonSyntax} (h : JsonText body tree) : Parses floats limits body tree := by
  induction h with
  | null =>
    intro depth value hadmissible hvalue fuel tail _ hfuel
    cases hadmissible with
    | null hdepth =>
      cases hvalue
      exact parseValue_word hdepth (.inl ⟨rfl, rfl⟩) tail hfuel
  | trueLiteral =>
    intro depth value hadmissible hvalue fuel tail _ hfuel
    cases hadmissible with
    | bool _ hdepth =>
      cases hvalue
      exact parseValue_word hdepth (.inr (.inl ⟨rfl, rfl⟩)) tail hfuel
  | falseLiteral =>
    intro depth value hadmissible hvalue fuel tail _ hfuel
    cases hadmissible with
    | bool _ hdepth =>
      cases hvalue
      exact parseValue_word hdepth (.inr (.inr ⟨rfl, rfl⟩)) tail hfuel
  | number number =>
    intro depth value hadmissible hvalue fuel tail htail hfuel
    cases hadmissible with
    | number _ hdepth =>
      obtain ⟨c, rest, hhead, hc⟩ := number.head
      obtain ⟨fuel, rfl⟩ : ∃ n, fuel = n + 1 := ⟨fuel - 1, by rw [hhead, List.length_cons] at hfuel; omega⟩
      have hnumber := parseNumber_value hvalue htail
      rw [hhead, List.cons_append] at hnumber ⊢
      rw [parseValue_number hdepth hc, hnumber]
  | @string text chars hchars =>
    intro depth value hadmissible hvalue fuel tail _ hfuel
    cases hadmissible with
    | string hdepth htext =>
      cases hvalue
      obtain ⟨fuel, rfl⟩ : ∃ n, fuel = n + 1 := ⟨fuel - 1, by simp at hfuel; omega⟩
      rw [String.length_ofList] at htext
      have hshape : '"' :: text ++ ['"'] ++ tail = '"' :: (text ++ '"' :: tail) := by simp
      rw [hshape, parseValue.eq_def]
      simp only [if_neg (Nat.not_lt.2 hdepth)]
      simp [parseString_of_text hchars tail htext]
  | @emptyArray spaces hspaces =>
    intro depth value hadmissible hvalue fuel tail _ hfuel
    cases hadmissible with
    | array hdepth hlength hvalues =>
      cases hvalue
      obtain ⟨fuel, rfl⟩ : ∃ n, fuel = n + 1 := ⟨fuel - 1, by simp at hfuel; omega⟩
      have hshape : '[' :: spaces ++ [']'] ++ tail = '[' :: (spaces ++ ']' :: tail) := by simp
      have hskip : skipWhitespace (spaces ++ ']' :: tail) = ']' :: tail :=
        (hspaces.skipWhitespace _).trans (skipWhitespace_cons (by decide))
      rw [hshape, parseValue.eq_def]
      simp only [if_neg (Nat.not_lt.2 hdepth), hskip]
      simp
  | @array elements hne hbefore hafter htexts ih =>
    intro depth value hadmissible hvalue fuel tail _ hfuel
    cases hadmissible with
    | array hdepth hlength hvalues =>
      obtain ⟨values, hread, rfl⟩ := Option.map_eq_some_iff.1 hvalue
      obtain ⟨fuel, rfl⟩ : ∃ n, fuel = n + 1 := ⟨fuel - 1, by simp at hfuel; omega⟩
      have helements : ElementsRead floats limits (depth + 1) elements values :=
        ⟨hbefore, hafter, htexts, List.forall_mem_map.1 hvalues, hread⟩
      rw [List.length_map, ← List.length_map ElementText.value, ← JsonSyntax.length_elementValues hread] at hlength
      have hparse : parseElements floats limits fuel depth [] (separated (elements.map ElementText.text) ++ ']' :: tail) =
          .ok (.array values, tail) :=
        parseElements_text hne helements ih (show ([] ++ values).length ≤ _ from hlength) tail
          (by simp only [List.length_append, List.length_cons, List.length_nil] at hfuel; omega)
      have hstart : (skipWhitespace (separated (elements.map ElementText.text) ++ ']' :: tail)).head? ≠ some ']' := by
        obtain ⟨e, he, later, hlater⟩ := exists_separated hne ElementText.text (']' :: tail)
        have hbody := ((htexts e he).starts.append e.after).append later
        rw [hlater, ElementText.text, List.append_assoc, List.append_assoc, ← List.append_assoc e.body, (hbefore e he).skipWhitespace,
          hbody.skipWhitespace]
        exact hbody.head.1
      have hshape : '[' :: separated (elements.map ElementText.text) ++ [']'] ++ tail =
          '[' :: (separated (elements.map ElementText.text) ++ ']' :: tail) := by simp
      rw [hshape, parseValue.eq_def]
      simp only [if_neg (Nat.not_lt.2 hdepth), if_neg hstart, hparse]
      simp
  | @emptyObject spaces hspaces =>
    intro depth value hadmissible hvalue fuel tail _ hfuel
    cases hadmissible with
    | object hdepth hlength hdistinct hkeys hvalues =>
      cases hvalue
      obtain ⟨fuel, rfl⟩ : ∃ n, fuel = n + 1 := ⟨fuel - 1, by simp at hfuel; omega⟩
      have hshape : '{' :: spaces ++ ['}'] ++ tail = '{' :: (spaces ++ '}' :: tail) := by simp
      have hskip : skipWhitespace (spaces ++ '}' :: tail) = '}' :: tail :=
        (hspaces.skipWhitespace _).trans (skipWhitespace_cons (by decide))
      rw [hshape, parseValue.eq_def]
      simp only [if_neg (Nat.not_lt.2 hdepth), hskip]
      simp
  | @object members hne hbefore hkeys hafter hpadding htexts ih =>
    intro depth value hadmissible hvalue fuel tail _ hfuel
    cases hadmissible with
    | object hdepth hlength hdistinct hlengths hvalues =>
      obtain ⟨values, hread, rfl⟩ := Option.map_eq_some_iff.1 hvalue
      obtain ⟨fuel, rfl⟩ : ∃ n, fuel = n + 1 := ⟨fuel - 1, by simp at hfuel; omega⟩
      rw [List.map_map] at hdistinct
      rw [List.length_map] at hlength
      have hmembers : MembersRead floats limits (depth + 1) [] members values :=
        ⟨hbefore, hkeys, fun m hm => hlengths _ (List.mem_map_of_mem hm), hafter, hpadding, htexts,
          fun m hm => hvalues _ (List.mem_map_of_mem hm), fun _ _ => rfl, hdistinct, by rwa [List.length_nil, Nat.zero_add], hread⟩
      have hparse : parseMembers floats limits fuel depth [] (separated (members.map MemberText.text) ++ '}' :: tail) = _ :=
        parseMembers_text hne hmembers ih tail
          (by simp only [List.length_append, List.length_cons, List.length_nil] at hfuel; omega)
      have hstart : (skipWhitespace (separated (members.map MemberText.text) ++ '}' :: tail)).head? ≠ some '}' := by
        obtain ⟨m, hm, later, hlater⟩ := exists_separated hne MemberText.text ('}' :: tail)
        rw [hlater, MemberText.text, List.append_assoc, List.append_assoc, List.append_assoc, (hbefore m hm).skipWhitespace,
          List.cons_append, skipWhitespace_cons (by decide)]
        simp
      have hshape : '{' :: separated (members.map MemberText.text) ++ ['}'] ++ tail =
          '{' :: (separated (members.map MemberText.text) ++ '}' :: tail) := by simp
      rw [hshape, parseValue.eq_def]
      simp only [if_neg (Nat.not_lt.2 hdepth), if_true, if_neg hstart, hparse]

/-- The parser accepts exactly the texts of JSON values within the limits, no object with a key twice and no number out of
range, and returns the value such a text denotes. -/
theorem parseJson_iff (floats : FloatText) (limits : JsonParseLimits) (text : Bytes) (value : Json) :
    parseJson floats limits text = .ok value ↔ text.length ≤ limits.maxBytes ∧ ∃ before body after tree,
      text = before ++ body ++ after ∧ Spaces before ∧ Spaces after ∧ JsonText body tree ∧ tree.Admissible limits 0 ∧
        tree.value floats = some value := by
  constructor
  · intro h
    unfold parseJson at h
    split_ifs at h with hlong hempty
    split at h
    · cases h
    · rename_i read rest hread
      split_ifs at h with hend
      cases h
      obtain ⟨before, hbefore, htext⟩ := spaces_of_skipWhitespace text
      obtain ⟨body, tree, hbody, hreads⟩ := (parserReads floats limits _).value hread
      obtain ⟨after, hafter, hrest⟩ := spaces_of_skipWhitespace rest
      rw [List.isEmpty_iff.1 hend, List.append_nil] at hrest
      refine ⟨by omega, before, body, rest, tree, ?_, hbefore, hrest ▸ hafter, hreads.text, hreads.admissible, hreads.value⟩
      conv_lhs => rw [htext, hbody]
      rw [List.append_assoc]
  · rintro ⟨hbytes, before, body, after, tree, rfl, hbefore, hafter, hbody, hadmissible, hvalue⟩
    have hnil : EndsNumber [] := fun c hc => nomatch hc
    have hends : EndsNumber after := by
      have := endsNumber_spaces hafter hnil
      rwa [List.append_nil] at this
    have hstart := hbody.starts.append after
    have hskip : skipWhitespace (before ++ body ++ after) = body ++ after := by
      rw [List.append_assoc, hbefore.skipWhitespace, hstart.skipWhitespace]
    have hdone : skipWhitespace after = [] := by
      have := hafter.skipWhitespace []
      rwa [List.append_nil] at this
    have hread := hbody.accepted hadmissible hvalue (2 * (before ++ body ++ after).length + 1) after hends
      (by simp only [List.length_append]; omega)
    obtain ⟨c, rest, hhead, -⟩ := hstart
    rw [parseJson, if_neg (by omega), hskip, hread, if_neg (by simp [hhead])]
    simp [hdone]

end

end FabricEvolution
