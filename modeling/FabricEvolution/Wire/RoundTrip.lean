import FabricEvolution.Wire.Bounded

/-!
# What is dumped is parsed

* `Json.Fits` : the values a parser with given limits can return at a depth: integers in range, members in key order, no
  floating point numbers; `Json.fitsIn` : the check of it;
* `Json.Legible` : such values, with floating point numbers whose text denotes them;
* `Json.Legible.reads` : the text of such a value, plain or indented, is a text of the grammar that denotes the value, by
  induction on the value; `parseJson_dumpValue`, `parseJson_dump` : it parses to the value;
* `dump_injective` : two such values with the same dump are equal.
-/

namespace FabricEvolution
open Lib

/-- Values that a parser with the given limits returns at a depth. -/
inductive Json.Fits (limits : JsonParseLimits) : Nat → Json → Prop
  | null {depth : Nat} (hdepth : depth ≤ limits.maxDepth) : Fits limits depth .null
  | bool {depth : Nat} (value : Bool) (hdepth : depth ≤ limits.maxDepth) : Fits limits depth (.bool value)
  | int {depth : Nat} {value : Int} (hdepth : depth ≤ limits.maxDepth) (hneg : value < 0) (hmin : -2 ^ 63 ≤ value) :
      Fits limits depth (.int value)
  | uint {depth value : Nat} (hdepth : depth ≤ limits.maxDepth) (hmax : value < 2 ^ 64) : Fits limits depth (.uint value)
  | string {depth : Nat} {text : String} (hdepth : depth ≤ limits.maxDepth) (htext : text.length ≤ limits.maxStringBytes) :
      Fits limits depth (.string text)
  | array {depth : Nat} {values : List Json} (hdepth : depth ≤ limits.maxDepth)
      (hlength : values.length ≤ limits.maxContainerEntries) (hvalues : ∀ value ∈ values, Fits limits (depth + 1) value) :
      Fits limits depth (.array values)
  | object {depth : Nat} {members : List (String × Json)} (hdepth : depth ≤ limits.maxDepth)
      (hlength : members.length ≤ limits.maxContainerEntries) (hascend : KeysAscend members)
      (hkeys : ∀ member ∈ members, member.1.length ≤ limits.maxStringBytes)
      (hvalues : ∀ member ∈ members, Fits limits (depth + 1) member.2) : Fits limits depth (.object members)

/-- Values whose text a parser with the given limits reads back: floating point numbers are such that their text denotes
them. -/
inductive Json.Legible (floats : FloatText) (limits : JsonParseLimits) : Nat → Json → Prop
  | null {depth : Nat} (hdepth : depth ≤ limits.maxDepth) : Legible floats limits depth .null
  | bool {depth : Nat} (value : Bool) (hdepth : depth ≤ limits.maxDepth) : Legible floats limits depth (.bool value)
  | int {depth : Nat} {value : Int} (hdepth : depth ≤ limits.maxDepth) (hneg : value < 0) (hmin : -2 ^ 63 ≤ value) :
      Legible floats limits depth (.int value)
  | uint {depth value : Nat} (hdepth : depth ≤ limits.maxDepth) (hmax : value < 2 ^ 64) :
      Legible floats limits depth (.uint value)
  | double {depth : Nat} {bits : UInt64} (hdepth : depth ≤ limits.maxDepth) (hfaithful : floats.Faithful bits) :
      Legible floats limits depth (.double bits)
  | string {depth : Nat} {text : String} (hdepth : depth ≤ limits.maxDepth) (htext : text.length ≤ limits.maxStringBytes) :
      Legible floats limits depth (.string text)
  | array {depth : Nat} {values : List Json} (hdepth : depth ≤ limits.maxDepth)
      (hlength : values.length ≤ limits.maxContainerEntries)
      (hvalues : ∀ value ∈ values, Legible floats limits (depth + 1) value) : Legible floats limits depth (.array values)
  | object {depth : Nat} {members : List (String × Json)} (hdepth : depth ≤ limits.maxDepth)
      (hlength : members.length ≤ limits.maxContainerEntries) (hascend : KeysAscend members)
      (hkeys : ∀ member ∈ members, member.1.length ≤ limits.maxStringBytes)
      (hvalues : ∀ member ∈ members, Legible floats limits (depth + 1) member.2) : Legible floats limits depth (.object members)

/-- An object of strings. -/
theorem Json.fits_strings {limits : JsonParseLimits} {depth : Nat} {fields : List (String × String)}
    (hdepth : depth + 1 ≤ limits.maxDepth) (hascend : KeysAscend fields) (hlength : fields.length ≤ limits.maxContainerEntries)
    (hstrings : ∀ field ∈ fields, field.1.length ≤ limits.maxStringBytes ∧ field.2.length ≤ limits.maxStringBytes) :
    Json.Fits limits depth (.object (fields.map fun field => (field.1, .string field.2))) := by
  refine .object (by omega) (by rw [List.length_map]; exact hlength) ?_ ?_ ?_
  · rw [KeysAscend, List.pairwise_map]
    exact hascend
  · intro member hmember
    obtain ⟨field, hfield, rfl⟩ := List.mem_map.1 hmember
    exact (hstrings field hfield).1
  · intro member hmember
    obtain ⟨field, hfield, rfl⟩ := List.mem_map.1 hmember
    exact .string hdepth (hstrings field hfield).2

theorem Json.Fits.legible {limits : JsonParseLimits} {depth : Nat} {value : Json} (h : Json.Fits limits depth value)
    (floats : FloatText) : Json.Legible floats limits depth value := by
  induction h with
  | null hdepth => exact .null hdepth
  | bool value hdepth => exact .bool value hdepth
  | int hdepth hneg hmin => exact .int hdepth hneg hmin
  | uint hdepth hmax => exact .uint hdepth hmax
  | string hdepth htext => exact .string hdepth htext
  | array hdepth hlength _ ih => exact .array hdepth hlength ih
  | object hdepth hlength hascend hkeys _ ih => exact .object hdepth hlength hascend hkeys ih

theorem Json.Fits.bounded {limits : JsonParseLimits} {depth : Nat} {value : Json} (h : Json.Fits limits depth value) :
    value.Bounded limits depth := by
  induction h with
  | null hdepth => exact .null hdepth
  | bool value hdepth => exact .bool value hdepth
  | int hdepth hneg hmin => exact .int hdepth hmin (by omega)
  | uint hdepth hmax => exact .uint hdepth hmax
  | string hdepth htext => exact .string hdepth htext
  | array hdepth hlength _ ih => exact .array hdepth hlength ih
  | object hdepth hlength hascend hkeys _ ih => exact .object hdepth hlength hascend hkeys ih

theorem length_le_utf8ByteSize (text : String) : text.length ≤ text.utf8ByteSize := by
  rw [← String.length_toList]
  obtain ⟨chars, rfl⟩ : ∃ chars, text = String.ofList chars := ⟨text.toList, String.ofList_toList.symm⟩
  rw [String.toList_ofList]
  induction chars with
  | nil => exact Nat.zero_le _
  | cons c chars ih =>
    have hpos := c.utf8Size_pos
    rw [← List.singleton_append, String.ofList_append, String.utf8ByteSize_append, List.length_append, List.length_singleton]
    have hone : (String.ofList [c]).utf8ByteSize = c.utf8Size := String.utf8ByteSize_singleton
    omega

mutual

/-- The check of `Json.Fits`; the length of a string is bounded by its size, which is cheaper to compute. -/
def Json.fitsIn (limits : JsonParseLimits) : Nat → Json → Bool
  | depth, .null => depth ≤ limits.maxDepth
  | depth, .bool _ => depth ≤ limits.maxDepth
  | depth, .int value => depth ≤ limits.maxDepth && value < 0 && -2 ^ 63 ≤ value
  | depth, .uint value => depth ≤ limits.maxDepth && value < 2 ^ 64
  | _, .double _ => false
  | depth, .string text => depth ≤ limits.maxDepth && text.utf8ByteSize ≤ limits.maxStringBytes
  | depth, .array values =>
    depth ≤ limits.maxDepth && values.length ≤ limits.maxContainerEntries && Json.elementsFitIn limits (depth + 1) values
  | depth, .object members =>
    depth ≤ limits.maxDepth && members.length ≤ limits.maxContainerEntries && keysAscendIn members &&
      members.all (fun member => member.1.utf8ByteSize ≤ limits.maxStringBytes) && Json.membersFitIn limits (depth + 1) members

def Json.elementsFitIn (limits : JsonParseLimits) : Nat → List Json → Bool
  | _, [] => true
  | depth, value :: values => Json.fitsIn limits depth value && Json.elementsFitIn limits depth values

def Json.membersFitIn (limits : JsonParseLimits) : Nat → List (String × Json) → Bool
  | _, [] => true
  | depth, (_, value) :: members => Json.fitsIn limits depth value && Json.membersFitIn limits depth members

end

mutual

theorem Json.fits_of_fitsIn {limits : JsonParseLimits} : ∀ {depth : Nat} {value : Json}, Json.fitsIn limits depth value = true →
    Json.Fits limits depth value
  | _, .null, h => .null (by simpa [Json.fitsIn] using h)
  | _, .bool _, h => .bool _ (by simpa [Json.fitsIn] using h)
  | _, .int _, h => by
    simp only [Json.fitsIn, Bool.and_eq_true, decide_eq_true_eq] at h
    exact .int h.1.1 h.1.2 h.2
  | _, .uint _, h => by
    simp only [Json.fitsIn, Bool.and_eq_true, decide_eq_true_eq] at h
    exact .uint h.1 h.2
  | _, .double _, h => by simp [Json.fitsIn] at h
  | _, .string _, h => by
    simp only [Json.fitsIn, Bool.and_eq_true, decide_eq_true_eq] at h
    exact .string h.1 ((length_le_utf8ByteSize _).trans h.2)
  | _, .array _, h => by
    simp only [Json.fitsIn, Bool.and_eq_true, decide_eq_true_eq] at h
    exact .array h.1.1 h.1.2 (Json.elements_of_fitIn h.2)
  | _, .object _, h => by
    simp only [Json.fitsIn, Bool.and_eq_true, decide_eq_true_eq, List.all_eq_true] at h
    exact .object h.1.1.1.1 h.1.1.1.2 (keysAscend_of_keysAscendIn h.1.1.2)
      (fun member hm => (length_le_utf8ByteSize _).trans (h.1.2 member hm)) (Json.members_of_fitIn h.2)

theorem Json.elements_of_fitIn {limits : JsonParseLimits} : ∀ {depth : Nat} {values : List Json},
    Json.elementsFitIn limits depth values = true → ∀ value ∈ values, Json.Fits limits depth value
  | _, [], _ => by simp
  | _, _ :: _, h => by
    obtain ⟨hfirst, hrest⟩ := Bool.and_eq_true_iff.mp h
    exact List.forall_mem_cons.mpr ⟨Json.fits_of_fitsIn hfirst, Json.elements_of_fitIn hrest⟩

theorem Json.members_of_fitIn {limits : JsonParseLimits} : ∀ {depth : Nat} {members : List (String × Json)},
    Json.membersFitIn limits depth members = true → ∀ member ∈ members, Json.Fits limits depth member.2
  | _, [], _ => by simp
  | _, (_, _) :: _, h => by
    obtain ⟨hfirst, hrest⟩ := Bool.and_eq_true_iff.mp h
    exact List.forall_mem_cons.mpr ⟨Json.fits_of_fitsIn hfirst, Json.members_of_fitIn hrest⟩

end

/-- Values as the wire and the files carry them: integers at their widths, members in key order. -/
inductive Json.WellFormed : Json → Prop
  | null : WellFormed .null
  | bool (value : Bool) : WellFormed (.bool value)
  | int {value : Int} (hmin : -2 ^ 63 ≤ value) (hmax : value < 2 ^ 63) : WellFormed (.int value)
  | uint {value : Nat} (hmax : value < 2 ^ 64) : WellFormed (.uint value)
  | double (bits : UInt64) : WellFormed (.double bits)
  | string (text : String) : WellFormed (.string text)
  | array {values : List Json} (hvalues : ∀ value ∈ values, WellFormed value) : WellFormed (.array values)
  | object {members : List (String × Json)} (hascend : KeysAscend members)
      (hvalues : ∀ member ∈ members, WellFormed member.2) : WellFormed (.object members)

/-- A member of a well formed object is well formed. -/
theorem Json.WellFormed.find {value member : Json} {key : String} (h : value.WellFormed) (hfind : value.find key = some member) :
    member.WellFormed := by
  cases h with
  | object _ hvalues => exact hvalues _ (mem_of_assocFind hfind)
  | _ => cases hfind

theorem Json.WellFormed.set {value member : Json} (h : value.WellFormed) (key : String) (hmember : member.WellFormed) :
    (value.set key member).WellFormed := by
  have hsingle : (Json.object [(key, member)]).WellFormed :=
    .object (List.pairwise_singleton _ _) fun m hm => by rwa [List.mem_singleton.1 hm]
  cases h with
  | object hascend hvalues =>
    refine .object (hascend.insert key member) fun m hm => ?_
    obtain rfl | hm := mem_assocInsert hm
    · exact hmember
    · exact hvalues m hm
  | _ => exact hsingle

/-! ## Strings -/

section
variable {limits : JsonParseLimits} {floats : FloatText}

theorem kHexDigits_value : ∀ n < 16, hexDigitValue (kHexDigits.getD n '0') = some n := by decide

/-- What stands for a character is a text of it. -/
theorem charText_escapeChar (c : Char) : CharText (escapeChar c) [c] := by
  unfold escapeChar
  split_ifs with hquote hslash hb hf hn hr ht hcontrol
  · subst hquote
    exact .short (by decide)
  · subst hslash
    exact .short (by decide)
  · exact hb ▸ .short (by decide)
  · exact hf ▸ .short (by decide)
  · exact hn ▸ .short (by decide)
  · exact hr ▸ .short (by decide)
  · exact ht ▸ .short (by decide)
  · have hhex : HexText ['0', '0', kHexDigits.getD (c.toNat / 16) '0', kHexDigits.getD (c.toNat % 16) '0']
        (0 * 16 ^ 3 + 0 * 16 ^ 2 + c.toNat / 16 * 16 + c.toNat % 16) :=
      .digits (by decide) (by decide) (kHexDigits_value _ (by omega)) (kHexDigits_value _ (by omega))
    have hvalue : 0 * 16 ^ 3 + 0 * 16 ^ 2 + c.toNat / 16 * 16 + c.toNat % 16 = c.toNat := by omega
    rw [hvalue] at hhex
    have hbytes : utf8Bytes c.toNat = [c] := by
      rw [← appendUtf8_eq (.inl (by omega)), appendUtf8, if_pos (by omega), byteOf, Nat.mod_eq_of_lt (by omega),
        Char.ofNat_toNat]
    have htext := CharText.codePoint hhex (.inl (by omega))
    rwa [hbytes] at htext
  · exact .plain hquote hslash (Nat.not_lt.1 hcontrol)

theorem charsText_escaped (text : Bytes) : CharsText (text.flatMap escapeChar) text := by
  induction text with
  | nil => exact .nil
  | cons c text ih => exact .cons (charText_escapeChar c) ih

/-- The first character of a number is none that another value starts with. -/
theorem startsValue_digits (n : Nat) : ∃ d rest, appendU64 n = d :: rest ∧ d.isDigit = true := by
  rcases Nat.eq_zero_or_pos n with rfl | hn
  · exact ⟨'0', [], Nat.toDigits_zero 10, by decide⟩
  · obtain ⟨d, rest, hdigits, -, hdigit⟩ := digits_head_ne_zero n hn
    exact ⟨d, rest, hdigits, hdigit⟩

theorem spaces_pad (pretty : Bool) (indent : Nat) : Spaces (Json.pad pretty indent) := by
  intro c hc
  unfold Json.pad at hc
  split_ifs at hc with hpretty
  · rcases List.mem_cons.1 hc with rfl | hc
    · decide
    · rw [List.eq_of_mem_replicate hc]
      decide
  · exact absurd hc List.not_mem_nil

/-- Elements that are dumped are elements of a text. -/
theorem exists_elements {pretty : Bool} {indent depth : Nat} {value : Json} {values : List Json}
    (h : ∀ v ∈ value :: values, ∃ tree, Reads floats limits depth (v.dumpValue floats pretty (indent + 1)) tree v) :
    ∃ elements, elements ≠ [] ∧ ElementsRead floats limits depth elements (value :: values) ∧
      Json.pad pretty (indent + 1) ++ value.dumpValue floats pretty (indent + 1) ++ Json.dumpValues floats pretty indent values =
        separated (elements.map ElementText.text) ++ [']'] := by
  induction values generalizing value with
  | nil =>
    obtain ⟨tree, hread⟩ := h value List.mem_cons_self
    refine ⟨[⟨Json.pad pretty (indent + 1), value.dumpValue floats pretty (indent + 1), Json.pad pretty indent, tree⟩], by simp,
      .cons (spaces_pad _ _) (spaces_pad _ _) hread .nil, ?_⟩
    simp [Json.dumpValues, separated, ElementText.text]
  | cons next values ih =>
    obtain ⟨tree, hread⟩ := h value List.mem_cons_self
    obtain ⟨elements, hne, helements, htext⟩ := ih fun v hv => h v (List.mem_cons_of_mem _ hv)
    refine ⟨⟨Json.pad pretty (indent + 1), value.dumpValue floats pretty (indent + 1), [], tree⟩ :: elements, by simp,
      .cons (spaces_pad _ _) (fun _ hc => absurd hc List.not_mem_nil) hread helements, ?_⟩
    rw [Json.dumpValues, htext, List.map_cons, separated_cons (by simpa using hne)]
    simp [ElementText.text]

/-- A member as it is dumped. -/
def dumpedMember (floats : FloatText) (pretty : Bool) (indent : Nat) (key : String) (value : Json) (after : Bytes)
    (tree : JsonSyntax) : MemberText :=
  ⟨Json.pad pretty (indent + 1), key.toList.flatMap escapeChar, [], key,
    ⟨if pretty then [' '] else [], value.dumpValue floats pretty (indent + 1), after, tree⟩⟩

theorem text_dumpedMember (floats : FloatText) (pretty : Bool) (indent : Nat) (key : String) (value : Json) (after : Bytes)
    (tree : JsonSyntax) : (dumpedMember floats pretty indent key value after tree).text =
      Json.pad pretty (indent + 1) ++ appendEscaped key ++ ':' :: ((if pretty then [' '] else []) ++
        value.dumpValue floats pretty (indent + 1)) ++ after := by
  simp [dumpedMember, MemberText.text, ElementText.text, appendEscaped]

theorem membersRead_dumped {pretty : Bool} {indent depth : Nat} {known : List (String × Json)} {key : String} {value : Json}
    {after : Bytes} {tree : JsonSyntax} {texts : List MemberText} {members : List (String × Json)}
    (hascend : KeysAscend (known ++ [(key, value)])) (hkey : key.length ≤ limits.maxStringBytes) (hafter : Spaces after)
    (hread : Reads floats limits depth (value.dumpValue floats pretty (indent + 1)) tree value)
    (h : MembersRead floats limits depth (known ++ [(key, value)]) texts members) :
    MembersRead floats limits depth known (dumpedMember floats pretty indent key value after tree :: texts)
      ((key, value) :: members) := by
  have hspace : Spaces (if pretty then [' '] else []) := by
    cases pretty with
    | false => exact fun _ hc => absurd hc List.not_mem_nil
    | true => exact fun c hc => List.mem_singleton.1 hc ▸ (by decide)
  have hname : String.ofList key.toList = key := String.ofList_toList
  have hmembers : MembersRead floats limits depth known
      (⟨Json.pad pretty (indent + 1), key.toList.flatMap escapeChar, [], String.ofList key.toList,
        ⟨if pretty then [' '] else [], value.dumpValue floats pretty (indent + 1), after, tree⟩⟩ :: texts)
      ((String.ofList key.toList, value) :: members) := by
    refine .cons (spaces_pad pretty (indent + 1)) (charsText_escaped key.toList) (by rwa [String.length_toList])
      (fun _ hc => absurd hc List.not_mem_nil) ⟨hspace, hafter⟩ hread ?_ ?_
    · rw [hname]
      exact assocFind_before hascend
    · rw [hname, assocInsert_last hascend]
      exact h
  rwa [hname] at hmembers

/-- Members that are dumped are members of a text, in the order of their keys. -/
theorem exists_members {pretty : Bool} {indent depth : Nat} (members : List (String × Json)) (known : List (String × Json))
    (key : String) (value : Json) (hascend : KeysAscend (known ++ (key, value) :: members))
    (hroom : (known ++ (key, value) :: members).length ≤ limits.maxContainerEntries)
    (hkeys : ∀ m ∈ (key, value) :: members, m.1.length ≤ limits.maxStringBytes)
    (h : ∀ m ∈ (key, value) :: members, ∃ tree, Reads floats limits depth (m.2.dumpValue floats pretty (indent + 1)) tree m.2) :
    ∃ texts, texts ≠ [] ∧ MembersRead floats limits depth known texts ((key, value) :: members) ∧
      Json.pad pretty (indent + 1) ++ appendEscaped key ++ ':' :: ((if pretty then [' '] else []) ++
        value.dumpValue floats pretty (indent + 1)) ++ Json.dumpPairs floats pretty indent members =
        separated (texts.map MemberText.text) ++ ['}'] := by
  induction members generalizing known key value with
  | nil =>
    obtain ⟨tree, hread⟩ := h (key, value) List.mem_cons_self
    refine ⟨[dumpedMember floats pretty indent key value (Json.pad pretty indent) tree], by simp,
      membersRead_dumped hascend (hkeys _ List.mem_cons_self) (spaces_pad pretty indent) hread (.nil hroom), ?_⟩
    rw [Json.dumpPairs, List.map_singleton, separated, text_dumpedMember]
    simp only [List.append_assoc]
  | cons next members ih =>
    obtain ⟨tree, hread⟩ := h (key, value) List.mem_cons_self
    have hsplit : known ++ (key, value) :: next :: members = known ++ [(key, value)] ++ next :: members := by simp
    rw [hsplit] at hascend hroom
    obtain ⟨texts, hne, hmembers, htext⟩ := ih (known ++ [(key, value)]) next.1 next.2 hascend hroom
      (fun m hm => hkeys m (List.mem_cons_of_mem _ hm)) (fun m hm => h m (List.mem_cons_of_mem _ hm))
    refine ⟨dumpedMember floats pretty indent key value [] tree :: texts, by simp,
      membersRead_dumped (List.pairwise_append.1 hascend).1 (hkeys _ List.mem_cons_self) (fun _ hc => absurd hc List.not_mem_nil)
        hread hmembers, ?_⟩
    rw [Json.dumpPairs, htext, List.map_cons, separated_cons (by simpa using hne), text_dumpedMember]
    simp

theorem reads_number {depth : Nat} {number : NumberText} {value : Json} (hdepth : depth ≤ limits.maxDepth)
    (hvalue : number.value floats = some value) : Reads floats limits depth number.text (.number number) value :=
  ⟨.number number, .number number hdepth, hvalue⟩

/-- The text of a legible value, plain or indented, is a text of it. -/
theorem Json.Legible.reads {depth : Nat} {value : Json} (h : Json.Legible floats limits depth value) (pretty : Bool)
    (indent : Nat) : ∃ tree, Reads floats limits depth (value.dumpValue floats pretty indent) tree value := by
  induction h generalizing indent with
  | null hdepth => exact ⟨.null, .null, .null hdepth, rfl⟩
  | bool value hdepth =>
    cases value with
    | false => exact ⟨.bool false, .falseLiteral, .bool false hdepth, rfl⟩
    | true => exact ⟨.bool true, .trueLiteral, .bool true hdepth, rfl⟩
  | int hdepth hneg hmin => exact ⟨_, NumberText.text_int hneg ▸ reads_number hdepth (NumberText.value_int hneg hmin)⟩
  | uint hdepth hmax => exact ⟨_, NumberText.text_uint _ ▸ reads_number hdepth (NumberText.value_uint hmax)⟩
  | double hdepth hfaithful =>
    obtain ⟨number, hfloat, htext⟩ := hfaithful.literal
    have hread := reads_number hdepth (NumberText.value_float hfloat (htext ▸ hfaithful.denotes))
    exact ⟨_, by rwa [← htext] at hread⟩
  | @string _ text hdepth htext =>
    have hname : String.ofList text.toList = text := String.ofList_toList
    have hstring := JsonText.string (charsText_escaped text.toList)
    rw [hname] at hstring
    exact ⟨.string text, by simpa [Json.dumpValue, appendEscaped] using hstring, .string hdepth htext, rfl⟩
  | @array _ values hdepth hlength hvalues ih =>
    cases values with
    | nil => exact ⟨.array [], .emptyArray fun _ hc => absurd hc List.not_mem_nil, .array hdepth hlength (by simp), rfl⟩
    | cons value values =>
      obtain ⟨elements, hne, helements, htext⟩ := exists_elements fun v hv => ih v hv (indent + 1)
      have hread := Reads.array hdepth hne helements hlength
      rw [List.cons_append, ← htext] at hread
      exact ⟨_, hread⟩
  | @object _ members hdepth hlength hascend hkeys hvalues ih =>
    cases members with
    | nil => exact ⟨.object [], .emptyObject fun _ hc => absurd hc List.not_mem_nil,
        .object hdepth hlength (by simp) (by simp) (by simp), rfl⟩
    | cons member members =>
      obtain ⟨texts, hne, hmembers, htext⟩ := exists_members members [] member.1 member.2 hascend hlength hkeys
        fun m hm => ih m hm (indent + 1)
      have hread := Reads.object hdepth hne hmembers
      rw [List.cons_append, ← htext, foldl_assocInsert (show KeysAscend ([] ++ member :: members) from hascend)] at hread
      exact ⟨_, hread⟩

theorem parseJson_dumpValue {value : Json} (hlegible : Json.Legible floats limits 0 value) (pretty : Bool) (indent : Nat)
    (hbytes : (value.dumpValue floats pretty indent).length ≤ limits.maxBytes) :
    parseJson floats limits (value.dumpValue floats pretty indent) = .ok value := by
  obtain ⟨tree, hread⟩ := hlegible.reads pretty indent
  exact (parseJson_iff _ _ _ _).2 ⟨hbytes, [], _, [], tree, (List.append_nil _).symm, fun _ hc => absurd hc List.not_mem_nil,
    fun _ hc => absurd hc List.not_mem_nil, hread.text, hread.admissible, hread.value⟩

theorem parseJson_dump_legible {value : Json} (hlegible : Json.Legible floats limits 0 value)
    (hbytes : (value.dump floats).length ≤ limits.maxBytes) : parseJson floats limits (value.dump floats) = .ok value := by
  rw [← Json.dumpValue_plain floats 0] at hbytes ⊢
  exact parseJson_dumpValue hlegible false 0 hbytes

theorem parseJson_dump {value : Json} (hfits : Json.Fits limits 0 value)
    (hbytes : (value.dump floats).length ≤ limits.maxBytes) : parseJson floats limits (value.dump floats) = .ok value :=
  parseJson_dump_legible (hfits.legible floats) hbytes

/-- The canonical text determines the value. -/
theorem dump_injective {depth : Nat} {a b : Json} (ha : Json.Fits limits depth a) (hb : Json.Fits limits depth b)
    (h : a.dump floats = b.dump floats) : a = b := by
  rw [← Json.dumpValue_plain floats 0, ← Json.dumpValue_plain floats 0 b] at h
  obtain ⟨tree, hfirst⟩ := (ha.legible floats).reads false 0
  obtain ⟨tree', hsecond⟩ := (hb.legible floats).reads false 0
  have hnil : EndsNumber [] := fun c hc => nomatch hc
  have hparse := hfirst.text.accepted hfirst.admissible hfirst.value _ [] hnil le_rfl
  rw [h, hsecond.text.accepted hsecond.admissible hsecond.value _ [] hnil le_rfl] at hparse
  cases hparse
  rfl

end

end FabricEvolution
