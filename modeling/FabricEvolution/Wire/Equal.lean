import FabricEvolution.Wire.RoundTrip

/-!
# Equality of JSON values

* `Json.same` : the comparison of the source; integers compare across the signed and unsigned split;
* `Json.canonical` : every integer that is not negative in its unsigned form, which is how a parser returns it;
* `dumpValue_canonical`, `dump_canonical` : the text of a value is that of its canonical form;
  `parseJson_dump_legible_canonical`, `parseJson_dump_canonical` : it parses to that form;
* `canonical_of_dump` : the text determines the canonical form;
* `same_of_canonical` : values with one canonical form compare equal.
-/

namespace FabricEvolution
open Lib

namespace Json

/-- Induction over a value with the elements and members of a container. -/
theorem induction {P : Json → Prop} (null : P .null) (bool : ∀ value, P (.bool value)) (int : ∀ value, P (.int value))
    (uint : ∀ value, P (.uint value)) (double : ∀ bits, P (.double bits)) (string : ∀ text, P (.string text))
    (array : ∀ values, (∀ value ∈ values, P value) → P (.array values))
    (object : ∀ members, (∀ member ∈ members, P member.2) → P (.object members)) (value : Json) : P value :=
  @Json.rec P (fun values => ∀ value ∈ values, P value) (fun members => ∀ member ∈ members, P member.2)
    (fun member => P member.2) null bool int uint double string (fun _ ih => array _ ih) (fun _ ih => object _ ih)
    (fun _ h => absurd h List.not_mem_nil)
    (fun _ _ hhead htail _ h => (List.mem_cons.mp h).elim (fun heq => heq ▸ hhead) (htail _))
    (fun _ h => absurd h List.not_mem_nil)
    (fun _ _ hhead htail _ h => (List.mem_cons.mp h).elim (fun heq => heq ▸ hhead) (htail _))
    (fun _ _ h => h) value

mutual

def canonical : Json → Json
  | int value => if value < 0 then int value else uint value.toNat
  | array values => array (canonicalElements values)
  | object members => object (canonicalMembers members)
  | other => other

def canonicalElements : List Json → List Json
  | [] => []
  | value :: values => canonical value :: canonicalElements values

def canonicalMembers : List (String × Json) → List (String × Json)
  | [] => []
  | (key, value) :: members => (key, canonical value) :: canonicalMembers members

end

/-- Numbers of different alternatives compare as signed 64-bit integers where both are such. -/
def sameNumber (left right : Json) : Bool :=
  match left.tryI64, right.tryI64 with
  | some a, some b => a = b
  | _, _ => false

mutual

def same : Json → Json → Bool
  | null, null => true
  | bool a, bool b => a = b
  | int a, int b => a = b
  | uint a, uint b => a = b
  | double a, double b => Float.ofBits a == Float.ofBits b
  | string a, string b => a = b
  | array as, array bs => sameElements as bs
  | object as, object bs => sameMembers as bs
  | left, right => sameNumber left right

def sameElements : List Json → List Json → Bool
  | [], [] => true
  | a :: as, b :: bs => same a b && sameElements as bs
  | _, _ => false

def sameMembers : List (String × Json) → List (String × Json) → Bool
  | [], [] => true
  | (key, a) :: as, (key', b) :: bs => key = key' && same a b && sameMembers as bs
  | _, _ => false

end

theorem canonicalElements_eq (values : List Json) : canonicalElements values = values.map canonical := by
  induction values with
  | nil => rw [canonicalElements, List.map_nil]
  | cons value values ih => rw [canonicalElements, ih, List.map_cons]

theorem canonicalMembers_eq (members : List (String × Json)) :
    canonicalMembers members = members.map fun member => (member.1, member.2.canonical) := by
  induction members with
  | nil => rw [canonicalMembers, List.map_nil]
  | cons member members ih => rw [canonicalMembers, ih, List.map_cons]

/-! ## The text of the canonical form -/

section
variable (floats : FloatText) (pretty : Bool)

theorem dumpValues_map {f : Json → Json} {indent : Nat} {values : List Json}
    (h : ∀ value ∈ values, dumpValue floats pretty (indent + 1) (f value) = dumpValue floats pretty (indent + 1) value) :
    dumpValues floats pretty indent (values.map f) = dumpValues floats pretty indent values := by
  induction values with
  | nil => rfl
  | cons value values ih =>
    rw [List.map_cons, dumpValues, dumpValues, h value List.mem_cons_self, ih fun v hv => h v (List.mem_cons_of_mem _ hv)]

theorem dumpPairs_map {f : Json → Json} {indent : Nat} {members : List (String × Json)}
    (h : ∀ member ∈ members,
      dumpValue floats pretty (indent + 1) (f member.2) = dumpValue floats pretty (indent + 1) member.2) :
    dumpPairs floats pretty indent (members.map fun member => (member.1, f member.2)) = dumpPairs floats pretty indent members := by
  induction members with
  | nil => rfl
  | cons member members ih =>
    rw [List.map_cons, dumpPairs, dumpPairs, h member List.mem_cons_self, ih fun m hm => h m (List.mem_cons_of_mem _ hm)]

theorem dumpValue_canonical (value : Json) (indent : Nat) :
    dumpValue floats pretty indent value.canonical = dumpValue floats pretty indent value := by
  induction value using induction generalizing indent with
  | null => rfl
  | bool value => rfl
  | int value =>
    rw [canonical]
    split_ifs with hneg
    · rfl
    · rw [dumpValue, dumpValue, appendI64, if_neg hneg, show value.natAbs = value.toNat by omega]
  | uint value => rfl
  | double bits => rfl
  | string text => rfl
  | array values ih =>
    rw [canonical, canonicalElements_eq]
    cases values with
    | nil => rfl
    | cons value values =>
      rw [List.map_cons, dumpValue, dumpValue, ih value List.mem_cons_self,
        dumpValues_map floats pretty fun v hv => ih v (List.mem_cons_of_mem _ hv) _]
  | object members ih =>
    rw [canonical, canonicalMembers_eq]
    cases members with
    | nil => rfl
    | cons member members =>
      rw [List.map_cons, dumpValue, dumpValue, ih member List.mem_cons_self,
        dumpPairs_map floats pretty fun m hm => ih m (List.mem_cons_of_mem _ hm) _]

end

theorem dump_canonical (floats : FloatText) (value : Json) : value.canonical.dump floats = value.dump floats := by
  rw [← dumpValue_plain floats 0, dumpValue_canonical, dumpValue_plain]

/-- The text of a value whose canonical form is legible parses to that form. -/
theorem parseJson_dump_legible_canonical {floats : FloatText} {limits : JsonParseLimits} {value : Json}
    (hlegible : Legible floats limits 0 value.canonical) (hbytes : (value.dump floats).length ≤ limits.maxBytes) :
    parseJson floats limits (value.dump floats) = .ok value.canonical := by
  rw [← dump_canonical] at hbytes ⊢
  exact parseJson_dump_legible hlegible hbytes

theorem parseJson_dump_canonical {floats : FloatText} {limits : JsonParseLimits} {value : Json}
    (hfits : Fits limits 0 value.canonical) (hbytes : (value.dump floats).length ≤ limits.maxBytes) :
    parseJson floats limits (value.dump floats) = .ok value.canonical :=
  parseJson_dump_legible_canonical (hfits.legible floats) hbytes

/-- The text determines the canonical form. -/
theorem canonical_of_dump {floats : FloatText} {limits : JsonParseLimits} {a b : Json} (ha : Fits limits 0 a.canonical)
    (hb : Fits limits 0 b.canonical) (h : a.dump floats = b.dump floats) : a.canonical = b.canonical := by
  rw [← dump_canonical, ← dump_canonical floats b] at h
  exact dump_injective ha hb h

/-! ## Comparison with the canonical form -/

theorem canonical_canonical (value : Json) : value.canonical.canonical = value.canonical := by
  induction value using induction with
  | int value =>
    by_cases hneg : value < 0
    · simp only [canonical, if_pos hneg]
    · simp only [canonical, if_neg hneg]
  | array values ih =>
    simp only [canonical, canonicalElements_eq, List.map_map]
    congr 1
    exact List.map_congr_left ih
  | object members ih =>
    simp only [canonical, canonicalMembers_eq, List.map_map]
    congr 1
    exact List.map_congr_left fun member hmember => by simp only [Function.comp_apply, ih member hmember]
  | _ => rfl

theorem Bounded.wellFormed {limits : JsonParseLimits} {depth : Nat} {value : Json} (h : Bounded limits depth value) :
    value.WellFormed := by
  induction h with
  | null hdepth => exact .null
  | bool value hdepth => exact .bool value
  | int hdepth hmin hmax => exact .int hmin hmax
  | uint hdepth hmax => exact .uint hmax
  | double bits hdepth => exact .double bits
  | string hdepth htext => exact .string _
  | array hdepth hlength hvalues ih => exact .array ih
  | object hdepth hlength hascend hkeys hvalues ih => exact .object hascend ih

theorem Fits.wellFormed {limits : JsonParseLimits} {depth : Nat} {value : Json} (h : Fits limits depth value) :
    value.WellFormed :=
  h.bounded.wellFormed

theorem sameElements_of {values values' : List Json} (h : values.map canonical = values'.map canonical)
    (hsame : ∀ value ∈ values, ∀ value' ∈ values', value.canonical = value'.canonical → same value value' = true) :
    sameElements values values' = true := by
  induction values generalizing values' with
  | nil =>
    rw [List.map_nil] at h
    rw [List.map_eq_nil_iff.mp h.symm]
    rfl
  | cons value values ih =>
    obtain ⟨value', values', rfl, hvalue, hrest⟩ := List.map_eq_cons_iff.mp h.symm
    rw [sameElements, hsame value List.mem_cons_self value' List.mem_cons_self hvalue.symm, Bool.true_and]
    exact ih hrest.symm fun v hv v' hv' => hsame v (List.mem_cons_of_mem _ hv) v' (List.mem_cons_of_mem _ hv')

theorem sameMembers_of {members members' : List (String × Json)}
    (h : members.map (fun member => (member.1, member.2.canonical)) = members'.map fun member => (member.1, member.2.canonical))
    (hsame : ∀ member ∈ members, ∀ member' ∈ members', member.2.canonical = member'.2.canonical →
      same member.2 member'.2 = true) : sameMembers members members' = true := by
  induction members generalizing members' with
  | nil =>
    rw [List.map_nil] at h
    rw [List.map_eq_nil_iff.mp h.symm]
    rfl
  | cons member members ih =>
    obtain ⟨member', members', rfl, hmember, hrest⟩ := List.map_eq_cons_iff.mp h.symm
    obtain ⟨hkey, hvalue⟩ := Prod.mk.inj hmember
    rw [sameMembers, hsame member List.mem_cons_self member' List.mem_cons_self hvalue.symm, hkey]
    simp only [decide_true, Bool.true_and]
    exact ih hrest.symm fun m hm m' hm' => hsame m (List.mem_cons_of_mem _ hm) m' (List.mem_cons_of_mem _ hm')

theorem sameNumber_of {left right : Json} {value : Int} (hleft : left.tryI64 = some value) (hright : right.tryI64 = some value) :
    sameNumber left right = true := by
  simp [sameNumber, hleft, hright]

theorem canonical_int (value : Int) : (int value).canonical = if value < 0 then int value else uint value.toNat := rfl

/-- The integers behind a canonical form. -/
theorem canonical_eq_uint {value : Json} {n : Nat} (h : value.canonical = uint n) : value = uint n ∨ value = int n := by
  cases value with
  | int value =>
    rw [canonical_int] at h
    split_ifs at h with hneg
    cases h
    refine .inr (congrArg int ?_)
    omega
  | uint value => exact .inl h
  | _ => cases h

theorem canonical_eq_int {value : Json} {n : Int} (h : value.canonical = int n) : value = int n := by
  cases value with
  | int value =>
    rw [canonical_int] at h
    split_ifs at h with hneg
    exact h
  | _ => cases h

/-- An integer compares equal to whatever has its canonical form. -/
theorem same_of_canonical_int {value : Int} {value' : Json} (h : (int value).WellFormed)
    (hsame : (int value).canonical = value'.canonical) : same (int value) value' = true := by
  cases h with
  | int hmin hmax =>
    rw [canonical_int] at hsame
    split_ifs at hsame with hneg
    · rw [canonical_eq_int hsame.symm]
      simp [same]
    · obtain rfl | rfl := canonical_eq_uint hsame.symm
      · have hsmall : (uint value.toNat).tryI64 = some value := by
          rw [tryI64, if_pos (by omega)]
          exact congrArg some (by omega)
        rw [same]
        · exact sameNumber_of rfl hsmall
        all_goals nofun
      · simp only [same, decide_eq_true_eq]
        omega

theorem same_of_canonical_uint {value : Nat} {value' : Json} (h' : value'.WellFormed)
    (hsame : (uint value).canonical = value'.canonical) : same (uint value) value' = true := by
  obtain rfl | rfl := canonical_eq_uint hsame.symm
  · simp [same]
  · cases h' with
    | int hmin hmax =>
      have hsmall : (uint value).tryI64 = some (value : Int) := if_pos (by omega)
      rw [same]
      · exact sameNumber_of hsmall rfl
      all_goals nofun

theorem canonical_eq_array {value : Json} {values : List Json} (h : value.canonical = array values) :
    ∃ values', value = array values' ∧ values'.map canonical = values := by
  cases value with
  | array values' =>
    rw [canonical, canonicalElements_eq] at h
    exact ⟨values', rfl, array.inj h⟩
  | int value =>
    rw [canonical_int] at h
    split_ifs at h
  | _ => cases h

theorem canonical_eq_object {value : Json} {members : List (String × Json)} (h : value.canonical = object members) :
    ∃ members', value = object members' ∧ (members'.map fun member => (member.1, member.2.canonical)) = members := by
  cases value with
  | object members' =>
    rw [canonical, canonicalMembers_eq] at h
    exact ⟨members', rfl, object.inj h⟩
  | int value =>
    rw [canonical_int] at h
    split_ifs at h
  | _ => cases h

/-- A form that is no number and no container is that of one value only. -/
theorem canonical_eq_atom {value atom : Json} (h : value.canonical = atom) (hint : ∀ n, atom ≠ int n) (huint : ∀ n, atom ≠ uint n)
    (harray : ∀ values, atom ≠ array values) (hobject : ∀ members, atom ≠ object members) : value = atom := by
  cases value with
  | int value =>
    rw [canonical_int] at h
    split_ifs at h
    · exact absurd h.symm (hint _)
    · exact absurd h.symm (huint _)
  | array values => exact absurd h.symm (harray _)
  | object members => exact absurd h.symm (hobject _)
  | _ => exact h

/-- Values without floating point numbers that have one canonical form compare equal. -/
theorem same_of_canonical {limits : JsonParseLimits} {depth : Nat} {value value' : Json} (h : value.WellFormed)
    (h' : value'.WellFormed) (hfits : Fits limits depth value.canonical) (hsame : value.canonical = value'.canonical) :
    same value value' = true := by
  induction h generalizing depth value' with
  | null =>
    rw [canonical_eq_atom hsame.symm nofun nofun nofun nofun]
    rfl
  | bool value =>
    rw [canonical_eq_atom hsame.symm nofun nofun nofun nofun]
    simp [canonical, same]
  | int hmin hmax => exact same_of_canonical_int (.int hmin hmax) hsame
  | uint hmax => exact same_of_canonical_uint h' hsame
  | double bits => cases hfits
  | string text =>
    rw [canonical_eq_atom hsame.symm nofun nofun nofun nofun]
    simp [canonical, same]
  | array hvalues ih =>
    rw [canonical, canonicalElements_eq] at hfits hsame
    obtain ⟨values', rfl, hmap⟩ := canonical_eq_array hsame.symm
    rw [same]
    cases hfits with
    | array hdepth hlength hfits =>
      cases h' with
      | array hvalues' =>
        exact sameElements_of hmap.symm fun v hv v' hv' => ih v hv (hvalues' v' hv') (hfits _ (List.mem_map_of_mem hv))
  | object hascend hvalues ih =>
    rw [canonical, canonicalMembers_eq] at hfits hsame
    obtain ⟨members', rfl, hmap⟩ := canonical_eq_object hsame.symm
    rw [same]
    cases hfits with
    | object hdepth hlength hascend' hkeys hfits =>
      cases h' with
      | object hascend'' hvalues' =>
        exact sameMembers_of hmap.symm fun m hm m' hm' =>
          ih m hm (hvalues' m' hm') (hfits (m.1, m.2.canonical) (List.mem_map_of_mem hm))

/-! ## Members of the canonical form -/

theorem assocInsert_map {f : Json → Json} (key : String) (member : Json) (members : List (String × Json)) :
    (assocInsert key member members).map (fun entry => (entry.1, f entry.2)) =
      assocInsert key (f member) (members.map fun entry => (entry.1, f entry.2)) := by
  induction members with
  | nil => rfl
  | cons entry members ih =>
    rw [assocInsert, List.map_cons, assocInsert]
    split_ifs
    · rfl
    · rfl
    · rw [List.map_cons, ih]

@[simp] theorem canonical_set {value : Json} (h : value.isObject = true) (key : String) (member : Json) :
    (value.set key member).canonical = value.canonical.set key member.canonical := by
  cases value with
  | object members => simp only [set, canonical, canonicalMembers_eq, assocInsert_map]
  | _ => cases h

@[simp] theorem canonical_string (text : String) : (string text).canonical = string text := rfl

@[simp] theorem canonical_uint (value : Nat) : (uint value).canonical = uint value := rfl

@[simp] theorem canonical_bool (value : Bool) : (bool value).canonical = bool value := rfl

@[simp] theorem canonical_array (values : List Json) : (array values).canonical = array (values.map canonical) := by
  rw [canonical, canonicalElements_eq]

@[simp] theorem canonical_set_nil (key : String) (member : Json) :
    ((object []).set key member).canonical = (object []).set key member.canonical := canonical_set rfl key member

@[simp] theorem isObject_canonical (value : Json) : value.canonical.isObject = value.isObject := by
  cases value with
  | int value =>
    rw [canonical_int]
    split_ifs <;> rfl
  | _ => rfl

end Json

end FabricEvolution
