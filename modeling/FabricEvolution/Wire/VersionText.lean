import FabricEvolution.Wire.Version

/-!
# Versions are read back from their text

* `parseVersionComponent_repr` : a component that fits sixteen bits;
* `SoftwareVersion.Readable`, `ProtocolVersion.Readable` : the versions that some text denotes; `readable_of_parse`,
  `parse_toString`.
-/

namespace FabricEvolution
open Lib

/-! ## Components -/

theorem foldl_digits (text : List Char) (start : Nat) :
    text.foldl (fun value c => value * 10 + (c.toNat - '0'.toNat)) start = Nat.ofDigitChars 10 text start := by
  rw [Nat.ofDigitChars_eq_foldl]
  congr 1
  funext value c
  rw [Nat.mul_comm]

theorem isDigit_of_mem_toDigits {n : Nat} {c : Char} (h : c ∈ Nat.toDigits 10 n) : isDigit c = true := by
  have hdigit : c.isDigit = true := Nat.isDigit_of_mem_toDigits (by decide) (by decide) h
  simp only [Char.isDigit, Bool.and_eq_true, decide_eq_true_eq] at hdigit
  simp only [isDigit, Bool.and_eq_true, decide_eq_true_eq]
  exact ⟨hdigit.1, hdigit.2⟩

theorem not_mem_toDigits {n : Nat} {c : Char} (hc : isDigit c = false) : c ∉ Nat.toDigits 10 n := by
  intro h
  rw [isDigit_of_mem_toDigits h] at hc
  cases hc

/-- A component that fits sixteen bits is read back from its digits. -/
theorem parseVersionComponent_repr {n : Nat} (h : n ≤ 65535) : parseVersionComponent (Nat.toDigits 10 n) = some n := by
  have hlength : (Nat.toDigits 10 n).length ≤ 5 := (Nat.length_toDigits_le_iff (by decide) (by decide)).mpr (by omega)
  have hall : (Nat.toDigits 10 n).all isDigit = true := List.all_eq_true.mpr fun c hc => isDigit_of_mem_toDigits hc
  unfold parseVersionComponent
  rw [if_neg]
  · simp only [foldl_digits, Nat.ofDigitChars_ten_toDigits]
    rw [if_neg (by omega)]
  · rintro (hnil | hlong | hother)
    · exact Nat.toDigits_ne_nil hnil
    · omega
    · rw [hall] at hother
      cases hother

theorem digit_lt_ten {c : Char} (h : isDigit c = true) : c.toNat - '0'.toNat < 10 := by
  simp only [isDigit, Bool.and_eq_true, decide_eq_true_eq, Char.le_def, UInt32.le_iff_toNat_le] at h
  have hupper : c.toNat ≤ '9'.toNat := h.2
  have hnine : '9'.toNat = 57 := rfl
  have hzero : '0'.toNat = 48 := rfl
  omega

/-- The digits after those of `start` add as many places. -/
theorem ofDigitChars_lt {text : List Char} (start : Nat) (h : text.all isDigit = true) :
    Nat.ofDigitChars 10 text start < (start + 1) * 10 ^ text.length := by
  induction text generalizing start with
  | nil => simp
  | cons c rest ih =>
    rw [List.all_cons, Bool.and_eq_true] at h
    have hc := digit_lt_ten h.1
    rw [Nat.ofDigitChars_cons, List.length_cons, Nat.pow_succ]
    calc Nat.ofDigitChars 10 rest (10 * start + (c.toNat - '0'.toNat))
        < (10 * start + (c.toNat - '0'.toNat) + 1) * 10 ^ rest.length := ih _ h.2
      _ ≤ ((start + 1) * 10) * 10 ^ rest.length := Nat.mul_le_mul_right _ (by omega)
      _ = (start + 1) * (10 ^ rest.length * 10) := by rw [Nat.mul_assoc, Nat.mul_comm 10]

/-- What a component that was read is: its digits take no more room than the text it was read from. -/
theorem parseVersionComponent_cases {text : List Char} {n : Nat} (h : parseVersionComponent text = some n) :
    n ≤ 65535 ∧ (Nat.toDigits 10 n).length ≤ text.length := by
  unfold parseVersionComponent at h
  by_cases hbad : text = [] ∨ text.length > 5 ∨ text.all isDigit = false
  · rw [if_pos hbad] at h
    cases h
  · rw [if_neg hbad] at h
    simp only [foldl_digits] at h
    split_ifs at h with hlarge
    cases h
    push Not at hbad
    obtain ⟨hnil, -, hall⟩ := hbad
    have hall : text.all isDigit = true := by simpa using hall
    have hpos : 0 < text.length := List.length_pos_iff.mpr hnil
    have hlt := ofDigitChars_lt 0 hall
    rw [Nat.zero_add, Nat.one_mul] at hlt
    exact ⟨by omega, (Nat.length_toDigits_le_iff (by decide) hpos).mpr hlt⟩

/-! ## Protocol versions -/

/-- A version that some text denotes. -/
structure ProtocolVersion.Readable (version : ProtocolVersion) : Prop where
  major : version.major ≤ 65535
  minor : version.minor ≤ 65535

theorem toList_dot : ".".toList = ['.'] := rfl

theorem ProtocolVersion.readable_of_parse {text : String} {version : ProtocolVersion} (h : parse text = some version) :
    version.Readable := by
  unfold parse at h
  split_ifs at h
  split at h
  · rename_i major minor _
    split at h
    · rename_i hmajor hminor
      cases h
      exact ⟨(parseVersionComponent_cases hmajor).1, (parseVersionComponent_cases hminor).1⟩
    · cases h
  · cases h

theorem length_toDigits_le_five {n : Nat} (h : n ≤ 65535) : (Nat.toDigits 10 n).length ≤ 5 :=
  (Nat.length_toDigits_le_iff (by decide) (by decide)).mpr (by omega)

theorem ProtocolVersion.parse_toString {version : ProtocolVersion} (h : version.Readable) :
    parse version.toString = some version := by
  have htext : version.toString.toList = ['.'].intercalate [Nat.toDigits 10 version.major, Nat.toDigits 10 version.minor] := by
    simp [toString, String.toList_append, toList_dot]
  have hlength : ¬ version.toString.length > 32 := by
    have hmajor := length_toDigits_le_five h.major
    have hminor := length_toDigits_le_five h.minor
    rw [← String.length_toList, htext]
    simp
    omega
  have hsplit : version.toString.toList.splitOn '.' = [Nat.toDigits 10 version.major, Nat.toDigits 10 version.minor] := by
    rw [htext]
    refine List.splitOn_intercalate '.' ?_ (by simp)
    intro digits hdigits
    rcases List.mem_cons.mp hdigits with rfl | hdigits
    · exact not_mem_toDigits rfl
    · rw [List.mem_singleton.mp hdigits]
      exact not_mem_toDigits rfl
  unfold parse
  rw [if_neg hlength, hsplit]
  simp only [parseVersionComponent_repr h.major, parseVersionComponent_repr h.minor]

/-! ## Software versions -/

namespace SoftwareVersion

/-- The text before any build metadata. -/
def numeric (version : SoftwareVersion) : List Char :=
  ['.'].intercalate [Nat.toDigits 10 version.major, Nat.toDigits 10 version.minor, Nat.toDigits 10 version.patch]

/-- A version that some text denotes. -/
structure Readable (version : SoftwareVersion) : Prop where
  major : version.major ≤ 65535
  minor : version.minor ≤ 65535
  patch : version.patch ≤ 65535
  build : version.build.toList.all isBuildChar = true
  length : version.toString.length ≤ 96

theorem toList_toString (version : SoftwareVersion) : version.toString.toList =
    if version.build = "" then version.numeric else version.numeric ++ '+' :: version.build.toList := by
  have hplus : "+".toList = ['+'] := rfl
  unfold toString
  split_ifs <;> simp [numeric, String.toList_append, toList_dot, hplus]

theorem plus_not_mem_numeric (version : SoftwareVersion) : '+' ∉ version.numeric := by
  have hdigits : ∀ n, '+' ∉ Nat.toDigits 10 n := fun n => not_mem_toDigits rfl
  simp [numeric, hdigits]

theorem splitOn_numeric (version : SoftwareVersion) : version.numeric.splitOn '.' =
    [Nat.toDigits 10 version.major, Nat.toDigits 10 version.minor, Nat.toDigits 10 version.patch] := by
  refine List.splitOn_intercalate '.' ?_ (by simp)
  intro digits hdigits
  simp only [List.mem_cons, List.not_mem_nil, or_false] at hdigits
  rcases hdigits with rfl | rfl | rfl <;> exact not_mem_toDigits rfl

/-- The text is cut at the first plus sign. -/
theorem takeWhile_plus {front : List Char} (back : List Char) (h : '+' ∉ front) :
    (front ++ '+' :: back).takeWhile (· ≠ '+') = front ∧ (front ++ '+' :: back).dropWhile (· ≠ '+') = '+' :: back := by
  have hfront : ∀ c ∈ front, decide (c ≠ '+') = true := fun c hc => decide_eq_true fun heq => h (heq ▸ hc)
  constructor
  · rw [List.takeWhile_append_of_pos hfront, List.takeWhile_cons_of_neg (by simp), List.append_nil]
  · rw [List.dropWhile_append_of_pos hfront, List.dropWhile_cons_of_neg (by simp)]

theorem takeWhile_no_plus {front : List Char} (h : '+' ∉ front) :
    front.takeWhile (· ≠ '+') = front ∧ front.dropWhile (· ≠ '+') = [] := by
  have hfront : ∀ c ∈ front, decide (c ≠ '+') = true := fun c hc => decide_eq_true fun heq => h (heq ▸ hc)
  have htake := @List.takeWhile_append_of_pos _ _ _ [] hfront
  have hdrop := @List.dropWhile_append_of_pos _ _ _ [] hfront
  rw [List.append_nil] at htake hdrop
  exact ⟨by rw [htake, List.takeWhile_nil, List.append_nil], by rw [hdrop, List.dropWhile_nil]⟩

/-- A readable version is read back from its text. -/
theorem parse_toString {version : SoftwareVersion} (h : version.Readable) : parse version.toString = some version := by
  have hlength : ¬ version.toString.length > 96 := by
    have := h.length
    omega
  have hmajor := parseVersionComponent_repr h.major
  have hminor := parseVersionComponent_repr h.minor
  have hpatch := parseVersionComponent_repr h.patch
  unfold parse
  rw [if_neg hlength, toList_toString]
  by_cases hbuild : version.build = ""
  · obtain ⟨htake, hdrop⟩ := takeWhile_no_plus version.plus_not_mem_numeric
    simp only [if_pos hbuild, htake, hdrop, List.tail_nil, version.plus_not_mem_numeric, false_and, if_false, splitOn_numeric,
      hmajor, hminor, hpatch]
    exact congrArg (fun build => some (SoftwareVersion.mk _ _ _ build)) hbuild.symm
  · obtain ⟨htake, hdrop⟩ := takeWhile_plus version.build.toList version.plus_not_mem_numeric
    have hnil : version.build.toList ≠ [] := fun heq => hbuild (String.toList_eq_nil_iff.mp heq)
    simp only [if_neg hbuild, htake, hdrop, List.tail_cons, hnil, h.build, false_or, Bool.true_eq_false, and_false, if_false,
      String.ofList_toList, splitOn_numeric, hmajor, hminor, hpatch]

/-- A version that was read is readable. -/
theorem readable_of_parse {text : String} {version : SoftwareVersion} (h : parse text = some version) : version.Readable := by
  unfold parse at h
  by_cases hlong : text.length > 96
  · rw [if_pos hlong] at h
    cases h
  rw [if_neg hlong] at h
  simp only at h
  split_ifs at h with hbuild
  split at h
  case h_2 => cases h
  rename_i major minor patch hsplit
  split at h
  case h_2 => cases h
  rename_i hmajor hminor hpatch
  cases h
  obtain ⟨hmajorMax, hmajorLength⟩ := parseVersionComponent_cases hmajor
  obtain ⟨hminorMax, hminorLength⟩ := parseVersionComponent_cases hminor
  obtain ⟨hpatchMax, hpatchLength⟩ := parseVersionComponent_cases hpatch
  refine ⟨hmajorMax, hminorMax, hpatchMax, ?_, ?_⟩
  · rw [String.toList_ofList]
    by_cases hplus : '+' ∈ text.toList
    · simp only [hplus, true_and, not_or] at hbuild
      simpa using hbuild.2
    · rw [(takeWhile_no_plus hplus).2]
      rfl
  · have hnumeric : text.toList.takeWhile (· ≠ '+') = ['.'].intercalate [major, minor, patch] := by
      rw [← hsplit, List.intercalate_splitOn]
    have htext := congrArg List.length
      (List.takeWhile_append_dropWhile : text.toList.takeWhile (· ≠ '+') ++ text.toList.dropWhile (· ≠ '+') = _)
    rw [List.length_append, hnumeric, String.length_toList] at htext
    rw [← String.length_toList, toList_toString, String.toList_ofList]
    cases hdrop : text.toList.dropWhile (· ≠ '+') with
    | nil =>
      rw [hdrop] at htext
      simp [numeric] at htext ⊢
      omega
    | cons plus build =>
      rw [hdrop] at htext
      simp [numeric] at htext ⊢
      split_ifs <;> simp <;> omega

end SoftwareVersion

end FabricEvolution
