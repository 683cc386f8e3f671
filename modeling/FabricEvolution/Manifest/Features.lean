import FabricEvolution.Wire.Version

/-!
# Protocol features and sets of them

* `Feature`, `FeatureSet` : a set is 64 bits, one a feature;
* `FeatureSet.names`, `FeatureSet.fromNames` : the names of the known features; `fromNames_names`, `known_of_fromNames` : a
  set is read from names exactly when it has known features only;
* `containsAll_iff` and what follows for `intersect` and `without`;
* `featuresOfArray`, `featuresMember` : sets on the wire, read back by `featuresOfArray_toJson`, `featuresMember_eq`.
-/

namespace FabricEvolution
open Lib

inductive Feature where
  | snapshotTransfer | incrementalCatchUp | readOnlySharedAuthority | schemaMigration | protocolNegotiation
  | forwardRecovery | checksummedRecords | leaseReattestation | fencedStaleRejection | reverseMigration
  | compactSnapshotEncoding | pipelinedCatchUp | epochAttestation | durableHandoffJournal
deriving DecidableEq

namespace Feature

def table : List (Feature × String) :=
  [(snapshotTransfer, "snapshot_transfer"), (incrementalCatchUp, "incremental_catch_up"),
    (readOnlySharedAuthority, "read_only_shared_authority"), (schemaMigration, "schema_migration"),
    (protocolNegotiation, "protocol_negotiation"), (forwardRecovery, "forward_recovery"),
    (checksummedRecords, "checksummed_records"), (leaseReattestation, "lease_reattestation"),
    (fencedStaleRejection, "fenced_stale_rejection"), (reverseMigration, "reverse_migration"),
    (compactSnapshotEncoding, "compact_snapshot_encoding"), (pipelinedCatchUp, "pipelined_catch_up"),
    (epochAttestation, "epoch_attestation"), (durableHandoffJournal, "durable_handoff_journal")]

/-- The place of the bit of a feature. -/
def index : Feature → Nat
  | snapshotTransfer => 0
  | incrementalCatchUp => 1
  | readOnlySharedAuthority => 2
  | schemaMigration => 3
  | protocolNegotiation => 4
  | forwardRecovery => 5
  | checksummedRecords => 6
  | leaseReattestation => 7
  | fencedStaleRejection => 8
  | reverseMigration => 9
  | compactSnapshotEncoding => 10
  | pipelinedCatchUp => 11
  | epochAttestation => 12
  | durableHandoffJournal => 13

def fromName (name : String) : Option Feature := (table.find? fun entry => entry.2 = name).map (·.1)

/-- Every entry of the table is found under its name. -/
theorem fromName_of_mem : ∀ entry ∈ table, fromName entry.2 = some entry.1 := by decide

theorem exists_mem_table (feature : Feature) : ∃ entry ∈ table, entry.1 = feature := by
  cases feature <;> decide

theorem index_injective {feature feature' : Feature} (h : feature.index = feature'.index) : feature = feature' := by
  cases feature <;> cases feature' <;> first | rfl | cases h

theorem index_lt (feature : Feature) : feature.index < 64 := by cases feature <;> decide

end Feature

/-- A bounded set of features, a bit each. -/
structure FeatureSet where
  bits : BitVec 64
deriving DecidableEq

namespace FeatureSet

def none : FeatureSet := ⟨0⟩

instance : Inhabited FeatureSet := ⟨none⟩

/-- The features of a peer as it gives them: a 64-bit word. -/
def ofBits (bits : Nat) : FeatureSet := ⟨BitVec.ofNat 64 bits⟩

variable (set other : FeatureSet) (feature : Feature)

def isEmpty : Bool := set.bits = 0

def contains : Bool := set.bits.getLsbD feature.index

def containsAll : Bool := set.bits &&& other.bits = other.bits

def intersect : FeatureSet := ⟨set.bits &&& other.bits⟩

def without : FeatureSet := ⟨set.bits &&& ~~~other.bits⟩

def add : FeatureSet := ⟨set.bits ||| BitVec.twoPow 64 feature.index⟩

def names : List String := (Feature.table.filter fun entry => set.contains entry.1).map (·.2)

def addNames : FeatureSet → List String → Except String FeatureSet
  | set, [] => .ok set
  | set, name :: rest =>
    match Feature.fromName name with
    | .none => .error ("unknown feature: " ++ name)
    | some feature => addNames (set.add feature) rest

def fromNames (names : List String) : Except String FeatureSet := addNames none names

/-- The set has no feature outside the table. -/
def Known : Prop := ∀ i, set.bits.getLsbD i = true → ∃ feature : Feature, feature.index = i

end FeatureSet

namespace FeatureSet
variable {set other : FeatureSet} {feature feature' : Feature}

theorem ext_bits (h : ∀ i < 64, set.bits.getLsbD i = other.bits.getLsbD i) : set = other := by
  obtain ⟨bits⟩ := set
  obtain ⟨bits'⟩ := other
  have hbits : bits = bits' := BitVec.eq_of_getLsbD_eq fun i hi => h i hi
  rw [hbits]

@[simp] theorem getLsbD_intersect (i : Nat) :
    (set.intersect other).bits.getLsbD i = (set.bits.getLsbD i && other.bits.getLsbD i) := by
  simp [intersect]

theorem getLsbD_without {i : Nat} (hi : i < 64) :
    (set.without other).bits.getLsbD i = (set.bits.getLsbD i && !other.bits.getLsbD i) := by
  simp [without, hi]

theorem getLsbD_add (i : Nat) :
    (set.add feature).bits.getLsbD i = (set.bits.getLsbD i || decide (i = feature.index)) := by
  have hlt := feature.index_lt
  simp only [add, BitVec.getLsbD_or, BitVec.getLsbD_twoPow]
  by_cases hi : i = feature.index
  · subst hi
    simp [hlt]
  · simp [hi, Ne.symm hi]

theorem containsAll_iff : set.containsAll other = true ↔ ∀ i, other.bits.getLsbD i = true → set.bits.getLsbD i = true := by
  simp only [containsAll, decide_eq_true_eq]
  constructor
  · intro h i hi
    have hbit := congrArg (BitVec.getLsbD · i) h
    simp only [BitVec.getLsbD_and] at hbit
    rw [hi, Bool.and_true] at hbit
    exact hbit
  · intro h
    refine BitVec.eq_of_getLsbD_eq fun i _ => ?_
    rw [BitVec.getLsbD_and]
    cases hi : other.bits.getLsbD i with
    | false => rw [Bool.and_false]
    | true => rw [h i hi, Bool.and_true]

theorem containsAll_trans {third : FeatureSet} (h : set.containsAll other = true) (h' : other.containsAll third = true) :
    set.containsAll third = true := by
  rw [containsAll_iff] at *
  exact fun i hi => h i (h' i hi)

theorem containsAll_refl : set.containsAll set = true := containsAll_iff.mpr fun _ hi => hi

theorem containsAll_intersect_left : set.containsAll (set.intersect other) = true := by
  refine containsAll_iff.mpr fun i hi => ?_
  rw [getLsbD_intersect, Bool.and_eq_true] at hi
  exact hi.1

theorem containsAll_intersect_right : other.containsAll (set.intersect other) = true := by
  refine containsAll_iff.mpr fun i hi => ?_
  rw [getLsbD_intersect, Bool.and_eq_true] at hi
  exact hi.2

theorem intersect_containsAll {third : FeatureSet} (h : set.containsAll third = true) (h' : other.containsAll third = true) :
    (set.intersect other).containsAll third = true := by
  rw [containsAll_iff] at *
  intro i hi
  rw [getLsbD_intersect, h i hi, h' i hi, Bool.and_true]

/-- Nothing is left of a set that is contained. -/
theorem isEmpty_without : (set.without other).isEmpty = true ↔ other.containsAll set = true := by
  rw [containsAll_iff, isEmpty, decide_eq_true_eq]
  constructor
  · intro h i hi
    have hlt := BitVec.lt_of_getLsbD hi
    have hbit : (set.without other).bits.getLsbD i = false := by rw [h, BitVec.ofNat_eq_ofNat, BitVec.getLsbD_zero]
    rw [getLsbD_without hlt, hi, Bool.true_and, Bool.not_eq_false'] at hbit
    exact hbit
  · intro h
    refine BitVec.eq_of_getLsbD_eq fun i hi => ?_
    rw [getLsbD_without hi, BitVec.ofNat_eq_ofNat, BitVec.getLsbD_zero]
    cases hs : set.bits.getLsbD i with
    | false => rfl
    | true => rw [h i hs, Bool.not_true, Bool.and_false]

/-! ## Names -/

theorem known_none : none.Known := by
  intro i hi
  rw [none, BitVec.ofNat_eq_ofNat, BitVec.getLsbD_zero] at hi
  cases hi

theorem Known.add (h : set.Known) : (set.add feature).Known := by
  intro i hi
  rw [getLsbD_add, Bool.or_eq_true, decide_eq_true_eq] at hi
  rcases hi with hi | rfl
  · exact h i hi
  · exact ⟨feature, rfl⟩

theorem known_of_addNames {names : List String} (h : set.Known) (hadd : addNames set names = .ok other) : other.Known := by
  induction names generalizing set with
  | nil =>
    cases hadd
    exact h
  | cons name rest ih =>
    rw [addNames] at hadd
    split at hadd
    · cases hadd
    · exact ih h.add hadd

/-- A set read from names has known features only. -/
theorem known_of_fromNames {names : List String} (h : fromNames names = .ok set) : set.Known :=
  known_of_addNames known_none h

theorem addNames_table {entries : List (Feature × String)} (hentries : ∀ entry ∈ entries, entry ∈ Feature.table) :
    ∃ final, addNames set (entries.map (·.2)) = .ok final ∧ ∀ i,
      final.bits.getLsbD i = (set.bits.getLsbD i || entries.any fun entry => i = entry.1.index) := by
  induction entries generalizing set with
  | nil => exact ⟨set, rfl, fun i => by simp⟩
  | cons entry rest ih =>
    obtain ⟨final, hfinal, hbits⟩ := @ih (set.add entry.1) fun e he => hentries e (List.mem_cons_of_mem _ he)
    refine ⟨final, ?_, fun i => ?_⟩
    · rw [List.map_cons, addNames, Feature.fromName_of_mem entry (hentries entry List.mem_cons_self)]
      exact hfinal
    · rw [hbits, getLsbD_add, List.any_cons, Bool.or_assoc]

/-- A set of known features is read back from its names. -/
theorem fromNames_names (h : set.Known) : fromNames set.names = .ok set := by
  obtain ⟨final, hfinal, hbits⟩ := @addNames_table none
    (Feature.table.filter fun entry => set.contains entry.1) fun entry he => (List.mem_filter.mp he).1
  have hsame : final = set := by
    refine ext_bits fun i _ => ?_
    rw [hbits, none, BitVec.ofNat_eq_ofNat, BitVec.getLsbD_zero, Bool.false_or]
    cases hi : set.bits.getLsbD i with
    | false =>
      rw [List.any_eq_false]
      intro entry he
      have hheld : set.bits.getLsbD entry.1.index = true := of_decide_eq_true (by simpa [contains] using (List.mem_filter.mp he).2)
      rw [decide_eq_true_eq]
      rintro rfl
      rw [hi] at hheld
      cases hheld
    | true =>
      obtain ⟨feature, rfl⟩ := h i hi
      obtain ⟨entry, hentry, rfl⟩ := feature.exists_mem_table
      rw [List.any_eq_true]
      exact ⟨entry, List.mem_filter.mpr ⟨hentry, hi⟩, by simp⟩
  rw [fromNames, names, hfinal, hsame]

end FeatureSet

/-! ## Sets on the wire -/

/-- The names as an array. -/
def FeatureSet.toJson (set : FeatureSet) : Json := .array (set.names.map Json.string)

/-- A set from the elements of an array; `entries` words the refusal of an element that is no string. -/
def featuresOfArray (values : List Json) (entries : String) : Result FeatureSet := do
  let names ← values.mapM fun value => orRefuse value.tryString (malformed entries)
  match FeatureSet.fromNames names with
  | .error error => .error (malformed error)
  | .ok set => .ok set

def featuresFrom (value : Json) (field : String) : Result FeatureSet :=
  match value with
  | .null => return .none
  | .array values => featuresOfArray values (field ++ " entries must be strings")
  | _ => .error (malformed (field ++ " must be an array of feature names"))

/-- The set of an optional member. -/
def featuresMember (value : Json) (key field : String) : Result FeatureSet :=
  match value.find key with
  | none => return .none
  | some member => featuresFrom member field

theorem mapM_tryString (texts : List String) (refusal : Status) :
    (texts.map Json.string).mapM (fun value => orRefuse value.tryString refusal) = .ok texts := by
  induction texts with
  | nil => rfl
  | cons text rest ih =>
    rw [List.map_cons, List.mapM_cons, ih]
    rfl

/-- A set of known features is read back. -/
theorem featuresOfArray_toJson {set : FeatureSet} (h : set.Known) (entries : String) :
    featuresOfArray (set.names.map Json.string) entries = .ok set := by
  rw [featuresOfArray, mapM_tryString]
  simp only [bind, Except.bind, FeatureSet.fromNames_names h]

theorem known_of_featuresOfArray {values : List Json} {entries : String} {set : FeatureSet}
    (h : featuresOfArray values entries = .ok set) : set.Known := by
  obtain ⟨names, -, h⟩ := Result.bind_eq_ok.mp h
  cases hnames : FeatureSet.fromNames names with
  | error error => simp [hnames] at h
  | ok read =>
    simp only [hnames, Except.ok.injEq] at h
    exact h ▸ FeatureSet.known_of_fromNames hnames

theorem featuresMember_eq {set : FeatureSet} {value : Json} {key : String} (h : set.Known)
    (hmember : value.find key = some set.toJson) (field : String) : featuresMember value key field = .ok set := by
  rw [featuresMember, hmember]
  exact featuresOfArray_toJson h _

theorem known_of_featuresMember {value : Json} {key field : String} {set : FeatureSet}
    (h : featuresMember value key field = .ok set) : set.Known := by
  unfold featuresMember featuresFrom at h
  split at h
  · cases h
    exact FeatureSet.known_none
  · split at h
    · cases h
      exact FeatureSet.known_none
    · exact known_of_featuresOfArray h
    · cases h

end FabricEvolution
