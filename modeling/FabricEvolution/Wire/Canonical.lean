import FabricEvolution.Wire.Equal
import FabricEvolution.Wire.Size
import FabricEvolution.Wire.VersionText

/-!
# The canonical text

* `Json.FloatFree` : values without floating point numbers;
* `canonical_of_same` : such values that compare equal have one canonical form; `dump_eq_iff_same` : and one text;
* `length_dump_le` : the canonical text of what a text denotes is no longer than the text, by induction on the derivation;
* `parseJson_canonical` : the canonical text and the indented one are read back, equal values have one text, and what is
  accepted has a text that is read and written as it is.
-/

namespace FabricEvolution
open Lib

/-- Values without floating point numbers. -/
inductive Json.FloatFree : Json → Prop
  | null : FloatFree .null
  | bool (value : Bool) : FloatFree (.bool value)
  | int (value : Int) : FloatFree (.int value)
  | uint (value : Nat) : FloatFree (.uint value)
  | string (text : String) : FloatFree (.string text)
  | array {values : List Json} (hvalues : ∀ value ∈ values, FloatFree value) : FloatFree (.array values)
  | object {members : List (String × Json)} (hvalues : ∀ member ∈ members, FloatFree member.2) : FloatFree (.object members)

/-! ## One text for equal values -/

namespace Json
variable {limits : JsonParseLimits} {floats : FloatText}

/-- The canonical form of a value within the limits is what a parser returns. -/
theorem Bounded.fits_canonical {depth : Nat} {value : Json} (h : value.Bounded limits depth) (hfree : value.FloatFree) :
    Fits limits depth value.canonical := by
  induction h with
  | null hdepth => exact .null hdepth
  | bool value hdepth => exact .bool value hdepth
  | int hdepth hmin hmax =>
    rw [canonical_int]
    split_ifs with hneg
    · exact .int hdepth hneg hmin
    · exact .uint hdepth (by omega)
  | uint hdepth hmax => exact .uint hdepth hmax
  | double bits => cases hfree
  | string hdepth htext => exact .string hdepth htext
  | array hdepth hlength hvalues ih =>
    cases hfree with
    | array hfree =>
      rw [canonical, canonicalElements_eq]
      exact .array hdepth (by rwa [List.length_map]) (List.forall_mem_map.2 fun v hv => ih v hv (hfree v hv))
  | object hdepth hlength hascend hkeys hvalues ih =>
    cases hfree with
    | object hfree =>
      rw [canonical, canonicalMembers_eq]
      exact .object hdepth (by rwa [List.length_map]) (hascend.mapValues canonical) (List.forall_mem_map.2 hkeys)
        (List.forall_mem_map.2 fun m hm => ih m hm (hfree m hm))

theorem canonical_of_sameElements {values values' : List Json}
    (hsame : ∀ value ∈ values, ∀ value', same value value' = true → value.canonical = value'.canonical)
    (h : sameElements values values' = true) : values.map canonical = values'.map canonical := by
  induction values generalizing values' with
  | nil =>
    cases values' with
    | nil => rfl
    | cons value' values' => cases h
  | cons value values ih =>
    cases values' with
    | nil => cases h
    | cons value' values' =>
      rw [sameElements, Bool.and_eq_true] at h
      rw [List.map_cons, List.map_cons, hsame value List.mem_cons_self value' h.1,
        ih (fun v hv => hsame v (List.mem_cons_of_mem _ hv)) h.2]

theorem canonical_of_sameMembers {members members' : List (String × Json)}
    (hsame : ∀ member ∈ members, ∀ value', same member.2 value' = true → member.2.canonical = value'.canonical)
    (h : sameMembers members members' = true) :
    members.map (fun member => (member.1, member.2.canonical)) = members'.map fun member => (member.1, member.2.canonical) := by
  induction members generalizing members' with
  | nil =>
    cases members' with
    | nil => rfl
    | cons member' members' => cases h
  | cons member members ih =>
    cases members' with
    | nil => cases h
    | cons member' members' =>
      rw [sameMembers, Bool.and_eq_true, Bool.and_eq_true, decide_eq_true_eq] at h
      rw [List.map_cons, List.map_cons, hsame member List.mem_cons_self member'.2 h.1.2, h.1.1,
        ih (fun m hm => hsame m (List.mem_cons_of_mem _ hm)) h.2]

/-- Numbers that compare equal across the alternatives have one canonical form. -/
theorem canonical_of_sameNumber {left right : Json} (h : sameNumber left right = true) : left.canonical = right.canonical := by
  have hinteger : ∀ (value : Json) (n : Int), value.tryI64 = some n → value.canonical = (int n).canonical := by
    intro value n hvalue
    cases value with
    | int m =>
      cases hvalue
      rfl
    | uint m =>
      rw [tryI64] at hvalue
      split_ifs at hvalue with hsmall
      cases hvalue
      rw [canonical_int, if_neg (by omega), Int.toNat_natCast, canonical_uint]
    | _ => cases hvalue
  unfold sameNumber at h
  split at h
  · rename_i a b ha hb
    rw [hinteger left a ha, hinteger right b hb, of_decide_eq_true h]
  · cases h

/-- Values without floating point numbers that compare equal have one canonical form. -/
theorem canonical_of_same {value value' : Json} (hfree : value.FloatFree) (h : same value value' = true) :
    value.canonical = value'.canonical := by
  induction hfree generalizing value' with
  | null =>
    cases value' with
    | null => rfl
    | _ => cases h
  | bool b =>
    cases value' with
    | bool b' => rw [of_decide_eq_true h]
    | _ => cases h
  | int n =>
    cases value' with
    | int n' => rw [of_decide_eq_true h]
    | uint n' => exact canonical_of_sameNumber h
    | _ => cases h
  | uint n =>
    cases value' with
    | uint n' => rw [of_decide_eq_true h]
    | int n' => exact canonical_of_sameNumber h
    | _ => exact canonical_of_sameNumber h
  | string text =>
    cases value' with
    | string text' => rw [of_decide_eq_true h]
    | _ => cases h
  | array hvalues ih =>
    cases value' with
    | array values' =>
      rw [canonical, canonicalElements_eq, canonical, canonicalElements_eq,
        canonical_of_sameElements (fun v hv v' => ih v hv) h]
    | _ => cases h
  | object hvalues ih =>
    cases value' with
    | object members' =>
      rw [canonical, canonicalMembers_eq, canonical, canonicalMembers_eq,
        canonical_of_sameMembers (fun m hm v' => ih m hm) h]
    | _ => cases h

/-- Values within the limits have one text exactly if they compare equal. -/
theorem dump_eq_iff_same {value value' : Json} (h : value.Bounded limits 0) (hfree : value.FloatFree)
    (h' : value'.Bounded limits 0) (hfree' : value'.FloatFree) :
    value.dump floats = value'.dump floats ↔ same value value' = true := by
  constructor
  · intro htext
    have hcanonical := canonical_of_dump (h.fits_canonical hfree) (h'.fits_canonical hfree') htext
    exact same_of_canonical h.wellFormed h'.wellFormed (h.fits_canonical hfree) hcanonical
  · intro hsame
    rw [← dump_canonical, canonical_of_same hfree hsame, dump_canonical]

end Json

/-! ## No text is shorter -/

theorem escapeChar_plain {c : Char} (hquote : c ≠ '"') (hslash : c ≠ '\\') (hcontrol : 0x20 ≤ c.toNat) : escapeChar c = [c] := by
  have hne : ∀ d : Char, d.toNat < 0x20 → c ≠ d := by
    rintro d hd rfl
    omega
  simp only [escapeChar, hquote, hslash, hne '\x08' (by decide), hne '\x0c' (by decide), hne '\n' (by decide),
    hne '\r' (by decide), hne '\t' (by decide), Nat.not_lt.2 hcontrol, if_false]

/-- A byte that is no ASCII character stands for itself. -/
theorem length_escapeChar_high {n : Nat} (hmin : 0x80 ≤ n) (hmax : n < 0x100) : (escapeChar (byteOf n)).length = 1 := by
  have hvalue : (byteOf n).toNat = n := by rw [toNat_byteOf, Nat.mod_eq_of_lt hmax]
  have hne : ∀ d : Char, d.toNat < 0x80 → byteOf n ≠ d := by
    rintro d hd rfl
    omega
  rw [escapeChar_plain (hne '"' (by decide)) (hne '\\' (by decide)) (by omega)]
  rfl

theorem length_escape_utf8 {n : Nat} (h : n.isValidChar) : ((utf8Bytes n).flatMap escapeChar).length ≤ 6 := by
  have hle : n < 0x110000 := h.elim (fun h => by omega) fun h => h.2
  rw [← appendUtf8_eq h, appendUtf8]
  split_ifs with h1 h2 h3
  · have := length_escapeChar_le (byteOf n)
    rwa [List.flatMap_singleton]
  · simp only [List.flatMap_cons, List.flatMap_nil, List.length_append, List.length_nil]
    rw [length_escapeChar_high (by omega) (by omega), length_escapeChar_high (by omega) (by omega)]
    omega
  · simp only [List.flatMap_cons, List.flatMap_nil, List.length_append, List.length_nil]
    rw [length_escapeChar_high (by omega) (by omega), length_escapeChar_high (by omega) (by omega),
      length_escapeChar_high (by omega) (by omega)]
    omega
  · simp only [List.flatMap_cons, List.flatMap_nil, List.length_append, List.length_nil]
    rw [length_escapeChar_high (by omega) (by omega), length_escapeChar_high (by omega) (by omega),
      length_escapeChar_high (by omega) (by omega), length_escapeChar_high (by omega) (by omega)]
    omega

theorem CharText.length_le {text chars : Bytes} (h : CharText text chars) : (chars.flatMap escapeChar).length ≤ text.length := by
  cases h with
  | plain hquote hslash hcontrol => rw [List.flatMap_singleton, escapeChar_plain hquote hslash hcontrol]
  | @short letter c hmem =>
    have hshort : ∀ entry ∈ shortEscapes, (escapeChar entry.2).length ≤ 2 := by decide
    rw [List.flatMap_singleton]
    exact hshort _ hmem
  | codePoint hhex hscalar =>
    have hlength := length_escape_utf8 (isValidChar_scalar hhex.lt hscalar)
    cases hhex with
    | digits => exact hlength
  | pair hhigh hlow hfirst hsecond =>
    have hlength := length_escape_utf8 (isValidChar_pair hfirst hsecond)
    cases hhigh with
    | digits => exact hlength.trans (by simp)

/-- No text of a string is shorter than the one it is written with. -/
theorem CharsText.length_le {text chars : Bytes} (h : CharsText text chars) :
    quotedBytes (String.ofList chars) ≤ text.length + 2 := by
  have hsum : (chars.flatMap escapeChar).length ≤ text.length := by
    induction h with
    | nil => exact Nat.le_refl 0
    | cons hfirst _ ih =>
      rw [List.flatMap_append, List.length_append, List.length_append]
      exact Nat.add_le_add hfirst.length_le ih
  rw [List.length_flatMap] at hsum
  rw [quotedBytes, String.toList_ofList]
  exact Nat.add_le_add_right hsum 2

/-- The digits of a number are no fewer than those it is written with. -/
theorem NumberText.digitCount_le (number : NumberText) :
    digitCount (Nat.ofDigitChars 10 number.whole 0) ≤ number.whole.length := by
  have hdigits : IsDigits number.whole := by
    rcases number.wholeDigits with hzero | ⟨hdigits, -⟩
    · rw [hzero]
      exact ⟨by simp, by simp⟩
    · exact hdigits
  have hlt := ofDigitChars_lt 0 (List.all_eq_true.2 hdigits.2)
  rw [Nat.zero_add, Nat.one_mul] at hlt
  exact (Nat.length_toDigits_le_iff (by decide) (List.length_pos_iff.2 hdigits.1)).2 hlt

section
variable {limits : JsonParseLimits} {floats : FloatText}

theorem length_dump_number {number : NumberText} {value : Json} (h : number.value floats = some value)
    (hfree : value.FloatFree) : (value.dump floats).length ≤ number.text.length := by
  have hdigits := number.digitCount_le
  have htext : number.whole.length ≤ number.text.length := by
    simp only [NumberText.text, List.length_append]
    omega
  unfold NumberText.value at h
  dsimp only at h
  split_ifs at h with hint huint
  · cases h
    have hsign : number.text.length = number.whole.length + 1 := by
      simp [NumberText.text, hint.1, hint.2.1, hint.2.2.1]
    have hdump : ∀ n : Nat, (Json.dump floats (.int (-n))).length ≤ digitCount n + 1 := by
      intro n
      rw [Json.dump, appendI64, Int.natAbs_neg, Int.natAbs_natCast]
      split_ifs
      · exact Nat.le_refl _
      · exact Nat.le_succ _
    have := hdump (Nat.ofDigitChars 10 number.whole 0)
    omega
  · cases h
    rw [length_dump_uint]
    omega
  · obtain ⟨bits, -, rfl⟩ := Option.map_eq_some_iff.1 h
    cases hfree

theorem length_separated {texts : List Bytes} (h : texts ≠ []) :
    (separated texts).length + 1 = (texts.map fun text => text.length + 1).sum := by
  induction texts with
  | nil => exact absurd rfl h
  | cons text texts ih =>
    cases texts with
    | nil => rfl
    | cons text' texts =>
      rw [separated_cons (by simp), List.map_cons, List.sum_cons, ← ih (by simp), List.length_append, List.length_cons]
      omega

/-- The canonical text of what a text denotes is no longer than the text. -/
theorem JsonText.length_dump_le {body : Bytes} {tree : JsonSyntax} (h : JsonText body tree) {depth : Nat}
    (hadmissible : tree.Admissible limits depth) {value : Json} (hvalue : tree.value floats = some value)
    (hfree : value.FloatFree) : (value.dump floats).length ≤ body.length := by
  induction h generalizing depth value with
  | null =>
    cases hvalue
    exact le_rfl
  | trueLiteral =>
    cases hvalue
    exact le_rfl
  | falseLiteral =>
    cases hvalue
    exact le_rfl
  | number number => exact length_dump_number hvalue hfree
  | string hchars =>
    cases hvalue
    have hlength := hchars.length_le
    rw [length_dump_string]
    simpa using hlength
  | emptyArray hspaces =>
    cases hvalue
    simp [Json.dump]
  | @array elements hne hbefore hafter hvalues ih =>
    cases hadmissible with
    | array hdepth hlength hadmissible =>
      obtain ⟨values, hread, rfl⟩ := Option.map_eq_some_iff.1 hvalue
      cases hfree with
      | array hfree =>
        have hall := List.forall₂_map_left_iff.1 (JsonSyntax.forall₂_of_elementValues hread)
        have hsum := sum_le_of_forall₂ (f := fun e => e.text.length + 1) (g := fun v => (v.dump floats).length + 1) hall
          fun e he v hv hdenotes => by
            have := ih e he (hadmissible _ (List.mem_map_of_mem he)) hdenotes (hfree v hv)
            simp only [ElementText.text, List.length_append]
            omega
        have hseparated : (separated (elements.map ElementText.text)).length + 1 = (elements.map fun e => e.text.length + 1).sum := by
          rw [length_separated (by simpa using hne), List.map_map]
          rfl
        have hvalues : values ≠ [] := List.ne_nil_of_length_pos (hall.length_eq ▸ List.length_pos_iff.2 hne)
        simp only [length_dump_array hvalues, List.length_append, List.length_cons, List.length_nil]
        omega
  | emptyObject hspaces =>
    cases hvalue
    simp [Json.dump]
  | @object members hne hbefore hkeys hafter hpadding hvalues ih =>
    cases hadmissible with
    | object hdepth hlength hdistinct hlengths hadmissible =>
      obtain ⟨values, entries, rfl, -, hperm, hall⟩ := JsonSyntax.exists_of_object hdistinct hvalue
      cases hfree with
      | object hfree =>
        have hall := List.forall₂_map_left_iff.1 hall
        have hsum := sum_le_of_forall₂ (f := fun m => m.text.length + 1)
          (g := fun v => quotedBytes v.1 + (v.2.dump floats).length + 2) hall fun m hm v hv hmember => by
            have hvalue := ih m hm (hadmissible _ (List.mem_map_of_mem hm)) hmember.2 (hfree v (hperm.mem_iff.2 hv))
            obtain ⟨chars, hchars, hname⟩ := hkeys m hm
            have hkey := hchars.length_le
            rw [← hname, show m.name = v.1 from hmember.1] at hkey
            simp only [MemberText.text, ElementText.text, List.length_append, List.length_cons]
            omega
        have hseparated : (separated (members.map MemberText.text)).length + 1 = (members.map fun m => m.text.length + 1).sum := by
          rw [length_separated (by simpa using hne), List.map_map]
          rfl
        have hentries : entries ≠ [] :=
          List.ne_nil_of_length_pos (hperm.length_eq ▸ hall.length_eq ▸ List.length_pos_iff.2 hne)
        have horder := (hperm.map fun v => quotedBytes v.1 + (v.2.dump floats).length + 2).sum_eq
        simp only [length_dump_object hentries, List.length_append, List.length_cons, List.length_nil]
        omega

/-! ## Reading back -/

theorem Json.Bounded.parseJson_dumpValue {value : Json} (h : value.Bounded limits 0) (hfree : value.FloatFree) (pretty : Bool)
    (indent : Nat) (hbytes : (value.dumpValue floats pretty indent).length ≤ limits.maxBytes) :
    parseJson floats limits (value.dumpValue floats pretty indent) = .ok value.canonical ∧
      Json.same value.canonical value = true := by
  have hfits := h.fits_canonical hfree
  constructor
  · rw [← Json.dumpValue_canonical] at hbytes ⊢
    exact FabricEvolution.parseJson_dumpValue (hfits.legible floats) pretty indent hbytes
  · have hself : Json.Fits limits 0 value.canonical.canonical := by rwa [Json.canonical_canonical]
    exact Json.same_of_canonical hfits.wellFormed h.wellFormed hself (Json.canonical_canonical value)

/-- The canonical text, plain or indented, of a value within the limits is read back as an equal value; such values have one
text exactly if they compare equal; and what is accepted is written as a text that is read and written as it is. -/
theorem parseJson_canonical (floats : FloatText) (limits : JsonParseLimits) :
    (∀ value : Json, value.Bounded limits 0 → value.FloatFree →
      ((value.dump floats).length ≤ limits.maxBytes →
        ∃ read, parseJson floats limits (value.dump floats) = .ok read ∧ Json.same read value = true) ∧
      ((value.dumpPretty floats).length ≤ limits.maxBytes →
        ∃ read, parseJson floats limits (value.dumpPretty floats) = .ok read ∧ Json.same read value = true)) ∧
    (∀ value value' : Json, value.Bounded limits 0 → value.FloatFree → value'.Bounded limits 0 → value'.FloatFree →
      (value.dump floats = value'.dump floats ↔ Json.same value value' = true)) ∧
    ∀ (text : Bytes) (value : Json), parseJson floats limits text = .ok value → value.FloatFree →
      ∃ read, parseJson floats limits (value.dump floats) = .ok read ∧ read.dump floats = value.dump floats := by
  refine ⟨fun value h hfree => ⟨fun hbytes => ?_, fun hbytes => ⟨_, h.parseJson_dumpValue hfree true 0 hbytes⟩⟩,
    fun value value' h hfree h' hfree' => Json.dump_eq_iff_same h hfree h' hfree', fun text value hread hfree => ?_⟩
  · rw [← Json.dumpValue_plain floats 0] at hbytes ⊢
    exact ⟨_, h.parseJson_dumpValue hfree false 0 hbytes⟩
  · obtain ⟨hbytes, before, body, after, tree, rfl, -, -, htext, hadmissible, hvalue⟩ :=
      (parseJson_iff floats limits text value).1 hread
    have hdump : (value.dump floats).length ≤ limits.maxBytes := by
      have hlength := htext.length_dump_le hadmissible hvalue hfree
      rw [List.length_append, List.length_append] at hbytes
      omega
    refine ⟨value.canonical, ?_, Json.dump_canonical floats value⟩
    exact Json.parseJson_dump_canonical ((hadmissible.bounded hvalue).fits_canonical hfree) hdump

/-- A signed integer and an unsigned one have one text, which is read back. -/
theorem parseJson_canonical_integers (floats : FloatText) :
    (∃ read, parseJson floats {} "[7]".toList = .ok read ∧ Json.same read (.array [.int 7]) = true) ∧
      ((Json.int 7).dump floats = (Json.uint 7).dump floats ↔ Json.same (.int 7) (.uint 7) = true) := by
  obtain ⟨hback, hequal, -⟩ := parseJson_canonical floats {}
  have hseven : Json.Bounded {} 1 (.int 7) := .int (by decide) (by decide) (by decide)
  have hseven' : Json.Bounded {} 0 (.int 7) := .int (by decide) (by decide) (by decide)
  have hlist : Json.Bounded {} 0 (.array [.int 7]) :=
    .array (by decide) (by decide) fun v hv => List.mem_singleton.1 hv ▸ hseven
  have hfree : Json.FloatFree (.array [.int 7]) := .array fun v hv => List.mem_singleton.1 hv ▸ .int 7
  exact ⟨(hback _ hlist hfree).1 (show 3 ≤ _ by decide),
    hequal _ _ hseven' (.int 7) (.uint (by decide) (by decide)) (.uint 7)⟩

end

end FabricEvolution
