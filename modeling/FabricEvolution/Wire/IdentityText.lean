import FabricEvolution.Wire.VersionText

/-!
# Identities are read back from their text

* `parseU64`, `IncarnationId.parse` : a decimal counter, an incarnation; `Uuid128.toString` : the form with dashes;
* `parseU64_eq_some` : the counters that are accepted;
* `IncarnationId.parse_iff`, `Uuid128.parse_toString` : what is read of the text of an identity;
* `identity_texts_read_back` : the identities together.
-/

namespace FabricEvolution
open Lib

/-! ## Decimal counters -/

/-- The loop over the digits, in 64-bit arithmetic. -/
def parseU64Digits : Nat → List Char → Option Nat
  | value, [] => some value
  | value, c :: rest =>
    if !isDigit c then none
    else
      let digit := c.toNat - '0'.toNat
      if value > (maxU64 - digit) / 10 then none else parseU64Digits ((value * 10 + digit) % 2 ^ 64) rest

def parseU64 (text : List Char) : Option Nat := if text = [] ∨ text.length > 20 then none else parseU64Digits 0 text

theorem ofDigitChars_ge (text : List Char) (start : Nat) : start ≤ Nat.ofDigitChars 10 text start := by
  induction text generalizing start with
  | nil => exact Nat.le_refl _
  | cons c rest ih =>
    rw [Nat.ofDigitChars_cons]
    exact Nat.le_trans (by omega) (ih _)

/-- A digit is refused when the number would not fit. -/
theorem overflows_iff {value digit : Nat} (h : digit < 10) : value > (maxU64 - digit) / 10 ↔ maxU64 < value * 10 + digit := by
  have hmax : maxU64 = 18446744073709551615 := rfl
  omega

theorem parseU64Digits_eq {value : Nat} {text : List Char} (hvalue : value ≤ maxU64) (h : text.all isDigit = true) :
    parseU64Digits value text =
      if Nat.ofDigitChars 10 text value ≤ maxU64 then some (Nat.ofDigitChars 10 text value) else none := by
  induction text generalizing value with
  | nil => exact (if_pos hvalue).symm
  | cons c rest ih =>
    rw [List.all_cons, Bool.and_eq_true] at h
    have hdigit := digit_lt_ten h.1
    rw [parseU64Digits, h.1, Nat.ofDigitChars_cons, Nat.mul_comm 10 value]
    dsimp only
    rw [if_neg (by decide)]
    by_cases hover : maxU64 < value * 10 + (c.toNat - '0'.toNat)
    · have hge := ofDigitChars_ge rest (value * 10 + (c.toNat - '0'.toNat))
      rw [if_pos ((overflows_iff hdigit).mpr hover), if_neg (by omega)]
    · have hmax : maxU64 < 2 ^ 64 := by decide
      rw [if_neg (mt (overflows_iff hdigit).mp hover), Nat.mod_eq_of_lt (by omega), ih (by omega) h.2]

/-- A text of digits is the number it denotes, if that fits and there are at most twenty. -/
theorem parseU64_eq_some {text : List Char} {n : Nat} (h : text.all isDigit = true) : parseU64 text = some n ↔
    text ≠ [] ∧ text.length ≤ 20 ∧ Nat.ofDigitChars 10 text 0 ≤ maxU64 ∧ n = Nat.ofDigitChars 10 text 0 := by
  unfold parseU64
  by_cases hbad : text = [] ∨ text.length > 20
  · rw [if_pos hbad]
    constructor
    · intro hnone
      cases hnone
    · rintro ⟨hnil, hlength, -⟩
      rcases hbad with hbad | hbad
      · exact absurd hbad hnil
      · omega
  · rw [if_neg hbad, parseU64Digits_eq (Nat.zero_le _) h]
    push Not at hbad
    split_ifs with hfits
    · rw [Option.some.injEq]
      constructor
      · intro heq
        exact ⟨hbad.1, hbad.2, hfits, heq.symm⟩
      · intro hall
        exact hall.2.2.2.symm
    · constructor
      · intro hnone
        cases hnone
      · intro hall
        exact absurd hall.2.2.1 hfits

theorem all_isDigit_toDigits (n : Nat) : (Nat.toDigits 10 n).all isDigit = true :=
  List.all_eq_true.mpr fun _ hc => isDigit_of_mem_toDigits hc

theorem parseU64_toDigits {n : Nat} (h : n ≤ maxU64) : parseU64 (Nat.toDigits 10 n) = some n := by
  rw [parseU64_eq_some (all_isDigit_toDigits n), Nat.ofDigitChars_ten_toDigits]
  refine ⟨Nat.toDigits_ne_nil, ?_, h, rfl⟩
  have hmax : maxU64 < 10 ^ 20 := by decide
  exact (Nat.length_toDigits_le_iff (by decide) (by decide)).mpr (by omega)

/-! ## Identifiers -/

namespace Uuid128

/-- The form with dashes. -/
def toString (uuid : Uuid128) : String :=
  let compact := uuid.toCompactString.toList
  String.ofList (compact.take 8 ++ '-' :: (compact.drop 8).take 4 ++ '-' :: (compact.drop 12).take 4 ++
    '-' :: (compact.drop 16).take 4 ++ '-' :: (compact.drop 20).take 12)

theorem parseNibbles_append (nibbles : List (Fin 16)) (rest : List Char) :
    parseNibbles (nibbles.map hexDigit ++ rest) = (parseNibbles rest).map (nibbles ++ ·) := by
  induction nibbles with
  | nil => cases h : parseNibbles rest <;> simp [h]
  | cons nibble nibbles ih =>
    rw [List.map_cons, List.cons_append, parseNibbles, if_neg (hexDigit_ne_dash nibble), hexValue_hexDigit, ih]
    cases parseNibbles rest <;> rfl

/-- Groups of digits, with or without a dash after them. -/
theorem parseNibbles_dashed (nibbles : List (Fin 16)) (rest : List Char) :
    parseNibbles (nibbles.map hexDigit ++ '-' :: rest) = (parseNibbles rest).map (nibbles ++ ·) := by
  rw [parseNibbles_append, parseNibbles, if_pos rfl]

/-- The five groups of the text. -/
theorem toList_toString (uuid : Uuid128) {nibbles : List (Fin 16)} (h : uuid.bytes.flatMap byteNibbles = nibbles) :
    uuid.toString.toList = (nibbles.take 8).map hexDigit ++ '-' :: (((nibbles.drop 8).take 4).map hexDigit ++
      '-' :: (((nibbles.drop 12).take 4).map hexDigit ++ '-' :: (((nibbles.drop 16).take 4).map hexDigit ++
      '-' :: ((nibbles.drop 20).take 12).map hexDigit))) := by
  rw [toString, toCompactString, String.toList_ofList, String.toList_ofList, h]
  simp only [List.map_take, List.map_drop, List.append_assoc, List.cons_append]

/-- Dashes are skipped. -/
theorem parse_toString (uuid : Uuid128) : parse uuid.toString = some uuid := by
  obtain ⟨nibbles, hn⟩ : ∃ nibbles, uuid.bytes.flatMap byteNibbles = nibbles := ⟨_, rfl⟩
  have hnibbles : nibbles.length = 32 := by rw [← hn, length_flatMap_byteNibbles, uuid.length_bytes]
  have hcut : ∀ k count, (nibbles.drop k).take count ++ nibbles.drop (k + count) = nibbles.drop k := by
    intro k count
    rw [← List.drop_drop, List.take_append_drop]
  have hlast : (nibbles.drop 20).take 12 = nibbles.drop 20 := by
    apply List.take_of_length_le
    rw [List.length_drop]
    omega
  have hread : parseNibbles uuid.toString.toList = some nibbles := by
    rw [toList_toString uuid hn, parseNibbles_dashed, parseNibbles_dashed, parseNibbles_dashed, parseNibbles_dashed,
      parseNibbles_map_hexDigit, hlast]
    simp only [Option.map_some]
    rw [hcut 16 4, hcut 12 4, hcut 8 4, List.take_append_drop]
  have hpairs : pairNibbles nibbles = uuid.bytes := by rw [← hn, pairNibbles_flatMap]
  unfold parse
  rw [hread]
  dsimp only
  rw [dif_pos ⟨hnibbles, by rw [hpairs, uuid.length_bytes]⟩]
  simp only [hpairs]

end Uuid128

/-! ## Incarnations -/

namespace IncarnationId

/-- Component, boot counter and identifier, cut at the slashes. -/
def parse (text : String) : Option IncarnationId :=
  match text.toList.splitOn '/' with
  | [component, boot, uuid] => do
    let component ← TaggedName.parse (String.ofList component)
    let boot ← (parseU64 boot).filter (· ≠ 0)
    let uuid ← parseUuid (String.ofList uuid)
    return ⟨component, uuid, boot⟩
  | _ => none

/-- Three parts between slashes. -/
def textOf (component : ComponentId) (boot : String) (uuid : IncarnationUuid) : String :=
  component.str ++ "/" ++ boot ++ "/" ++ uuid.toCompactString

theorem slash_not_mem_name {name : TaggedName} (h : name.isValid) : '/' ∉ name.str.toList := by
  have hvalid := name.valid.resolve_left (by simpa [TaggedName.isValid] using h)
  unfold TaggedName.isValidText at hvalid
  intro hmem
  split at hvalid
  · cases hvalid
  · rename_i c rest htext
    rw [htext] at hmem
    simp only [Bool.and_eq_true] at hvalid
    have hchar := List.all_eq_true.mp hvalid.2 '/' hmem
    revert hchar
    decide

theorem slash_not_mem_compact (uuid : Uuid128) : '/' ∉ uuid.toCompactString.toList := by
  have hdigit : ∀ nibble : Fin 16, hexDigit nibble ≠ '/' := by decide
  rw [Uuid128.toCompactString, String.toList_ofList, List.mem_map]
  rintro ⟨nibble, -, hslash⟩
  exact hdigit nibble hslash

theorem slash_not_mem_digits {text : List Char} (h : text.all isDigit = true) : '/' ∉ text := by
  intro hmem
  have hdigit := List.all_eq_true.mp h '/' hmem
  revert hdigit
  decide

theorem splitOn_textOf {component : ComponentId} {boot : String} (uuid : IncarnationUuid) (hcomponent : component.isValid)
    (hboot : boot.toList.all isDigit = true) :
    (textOf component boot uuid).toList.splitOn '/' = [component.str.toList, boot.toList, uuid.toCompactString.toList] := by
  have hslash : "/".toList = ['/'] := rfl
  have htext : (textOf component boot uuid).toList =
      ['/'].intercalate [component.str.toList, boot.toList, uuid.toCompactString.toList] := by
    simp [textOf, String.toList_append, hslash]
  rw [htext]
  refine List.splitOn_intercalate '/' ?_ (by simp)
  intro part hpart
  simp only [List.mem_cons, List.not_mem_nil, or_false] at hpart
  rcases hpart with rfl | rfl | rfl
  · exact slash_not_mem_name hcomponent
  · exact slash_not_mem_digits hboot
  · exact slash_not_mem_compact uuid

/-- The counter between the slashes is accepted exactly when it denotes a positive 64-bit number in at most twenty digits. -/
theorem parse_iff {component : ComponentId} {boot : String} {uuid : IncarnationUuid} {incarnation : IncarnationId}
    (hcomponent : component.isValid) (huuid : uuid.isValid) (hboot : boot.toList.all isDigit = true) :
    parse (textOf component boot uuid) = some incarnation ↔
      incarnation = ⟨component, uuid, Nat.ofDigitChars 10 boot.toList 0⟩ ∧ boot.length ≤ 20 ∧
        1 ≤ Nat.ofDigitChars 10 boot.toList 0 ∧ Nat.ofDigitChars 10 boot.toList 0 ≤ maxU64 := by
  have hname : TaggedName.parse (String.ofList component.str.toList) = some component := by
    rw [String.ofList_toList, TaggedName.parse_str hcomponent]
  have hid : parseUuid (String.ofList uuid.toCompactString.toList) = some uuid := by
    rw [String.ofList_toList, parseUuid, Uuid128.parse_toCompactString]
    exact Option.filter_eq_some_iff.mpr ⟨rfl, huuid⟩
  unfold parse
  rw [splitOn_textOf uuid hcomponent hboot]
  simp only [hname, hid, Option.bind_eq_bind, Option.bind_some, Option.bind_eq_some_iff, Option.filter_eq_some_iff,
    parseU64_eq_some hboot, String.length_toList, decide_eq_true_eq]
  constructor
  · rintro ⟨n, ⟨⟨-, hlength, hmax, rfl⟩, hpos⟩, hsome⟩
    cases hsome
    exact ⟨rfl, hlength, by omega, hmax⟩
  · rintro ⟨rfl, hlength, hpos, hmax⟩
    refine ⟨_, ⟨⟨?_, hlength, hmax, rfl⟩, by omega⟩, rfl⟩
    intro hnil
    rw [hnil, Nat.ofDigitChars_nil] at hpos
    omega

/-- The text of an incarnation is read back. -/
theorem parse_toString {incarnation : IncarnationId} (h : incarnation.isValid = true) (hboot : incarnation.boot ≤ maxU64) :
    parse incarnation.toString = some incarnation := by
  obtain ⟨component, uuid, boot⟩ := incarnation
  simp only [isValid, Bool.and_eq_true, decide_eq_true_eq] at h
  obtain ⟨⟨hcomponent, huuid⟩, hpos⟩ := h
  have hdigits : (Nat.repr boot).toList = Nat.toDigits 10 boot := Nat.toList_repr
  have hvalue : Nat.ofDigitChars 10 (Nat.repr boot).toList 0 = boot := by rw [hdigits, Nat.ofDigitChars_ten_toDigits]
  have hmax : maxU64 < 10 ^ 20 := by decide
  have hfits : boot ≤ maxU64 := hboot
  show parse (textOf component (Nat.repr boot) uuid) = _
  rw [parse_iff hcomponent huuid (by rw [hdigits]; exact all_isDigit_toDigits boot), hvalue]
  refine ⟨rfl, ?_, by omega, hfits⟩
  rw [← String.length_toList, hdigits]
  exact (Nat.length_toDigits_le_iff (by decide) (by decide)).mpr (by omega)

end IncarnationId

/-! ## The identities together -/

/-- Every identity is read back from its text; a boot counter is accepted exactly when it denotes a positive 64-bit number
in at most twenty digits, and is that number. -/
theorem identity_texts_read_back :
    (∀ incarnation : IncarnationId, incarnation.isValid = true → incarnation.boot ≤ maxU64 →
      IncarnationId.parse incarnation.toString = some incarnation) ∧
    (∀ uuid : Uuid128, Uuid128.parse uuid.toCompactString = some uuid ∧ Uuid128.parse uuid.toString = some uuid) ∧
    (∀ digest : Digest, Digest.fromHex digest.toHex = some digest) ∧
    (∀ version : ProtocolVersion, version.major ≤ 65535 → version.minor ≤ 65535 →
      ProtocolVersion.parse version.toString = some version) ∧
    (∀ (text : String) (version : SoftwareVersion), SoftwareVersion.parse text = some version →
      SoftwareVersion.parse version.toString = some version) ∧
    ∀ (component : ComponentId) (uuid : IncarnationUuid) (boot : String) (incarnation : IncarnationId),
      component.isValid → uuid.isValid → boot.toList.all isDigit = true →
        (IncarnationId.parse (component.str ++ "/" ++ boot ++ "/" ++ uuid.toCompactString) = some incarnation ↔
          incarnation = ⟨component, uuid, Nat.ofDigitChars 10 boot.toList 0⟩ ∧ boot.length ≤ 20 ∧
            1 ≤ Nat.ofDigitChars 10 boot.toList 0 ∧ Nat.ofDigitChars 10 boot.toList 0 ≤ maxU64) := by
  refine ⟨fun incarnation h hboot => IncarnationId.parse_toString h hboot, fun uuid => ?_, Digest.fromHex_toHex, ?_, ?_, ?_⟩
  · exact ⟨uuid.parse_toCompactString, uuid.parse_toString⟩
  · intro version hmajor hminor
    exact ProtocolVersion.parse_toString ⟨hmajor, hminor⟩
  · intro text version h
    exact SoftwareVersion.parse_toString (SoftwareVersion.readable_of_parse h)
  · intro component uuid boot incarnation hcomponent huuid hboot
    exact IncarnationId.parse_iff hcomponent huuid hboot

end FabricEvolution
