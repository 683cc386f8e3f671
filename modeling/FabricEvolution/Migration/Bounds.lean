import FabricEvolution.Migration.Step
import FabricEvolution.Wire.RoundTrip

/-!
# The bounds of a document

* `StateDocument.Bounded` : what `put` and `setSchema` enforce; `Bounded.put`, `Bounded.remove`, `Bounded.migrateSteps` : every
  way to change a document keeps it; `FieldsBounded` : the part of `put`;
* `applyForward_keeps` : what puts and removals keep, a transformation keeps;
* `fieldsToJson_eq` : the fields object member by member;
* `members_of_putAll` : what the members of a presented object say is what the document built from them says.
-/

namespace FabricEvolution
open Lib

namespace StateDocument

/-- What every change of a document enforces. -/
structure Bounded (document : StateDocument) : Prop where
  schema_pos : 0 < document.schema
  schema_le : document.schema ≤ maxU32
  count : document.fields.entries.length ≤ maxStateFields
  key : ∀ entry ∈ document.fields.entries, entry.1 ≠ "" ∧ entry.1.length ≤ maxStateKeyBytes
  value : ∀ entry ∈ document.fields.entries, entry.2.length ≤ maxStateValueBytes

/-- What `put` enforces on the fields, whatever the schema. -/
structure FieldsBounded (document : StateDocument) : Prop where
  count : document.fields.entries.length ≤ maxStateFields
  key : ∀ entry ∈ document.fields.entries, entry.1 ≠ "" ∧ entry.1.length ≤ maxStateKeyBytes
  value : ∀ entry ∈ document.fields.entries, entry.2.length ≤ maxStateValueBytes

theorem Bounded.fieldsBounded {document : StateDocument} (h : document.Bounded) : document.FieldsBounded :=
  ⟨h.count, h.key, h.value⟩

theorem bounded_empty {schema : Nat} (hpos : 0 < schema) (hle : schema ≤ maxU32) : Bounded { schema := schema } :=
  ⟨hpos, hle, Nat.zero_le _, fun _ h => absurd h List.not_mem_nil, fun _ h => absurd h List.not_mem_nil⟩

variable {document document' : StateDocument} {key value : String}

theorem schema_remove (hremove : document.remove key = .ok document') : document'.schema = document.schema := by
  unfold StateDocument.remove at hremove
  split at hremove <;> cases hremove
  rfl

theorem FieldsBounded.put (h : document.FieldsBounded) (hput : document.put key value = .ok document') :
    document'.FieldsBounded := by
  obtain ⟨rfl, hne, hkey, hvalue⟩ := put_eq_ok hput
  have hmem : ∀ entry ∈ (document.fields.insert key value).entries, entry = (key, value) ∨ entry ∈ document.fields.entries :=
    fun _ he => mem_assocInsert he
  refine ⟨?_, ?_, ?_⟩
  · cases hfind : document.fields.find key with
    | none =>
      have hroom : ¬ document.fields.entries.length ≥ maxStateFields := by
        intro hfull
        unfold StateDocument.put at hput
        rw [if_neg (not_or.2 ⟨hne, Nat.not_lt.2 hkey⟩), if_neg (Nat.not_lt.2 hvalue), if_pos ⟨hfind, hfull⟩] at hput
        cases hput
      have := length_assocInsert_le key value document.fields.entries
      show (assocInsert key value document.fields.entries).length ≤ _
      omega
    | some old =>
      have hsome : (assocFind key document.fields.entries).isSome := by
        rw [show assocFind key _ = some old from hfind]
        rfl
      have hsame : (document.fields.insert key value).entries.length = _ := length_assocInsert_mem hsome document.fields.ascend
      exact hsame ▸ h.count
  · intro entry he
    obtain rfl | he := hmem entry he
    · exact ⟨hne, hkey⟩
    · exact h.key entry he
  · intro entry he
    obtain rfl | he := hmem entry he
    · exact hvalue
    · exact h.value entry he

theorem FieldsBounded.remove (h : document.FieldsBounded) (hremove : document.remove key = .ok document') :
    document'.FieldsBounded := by
  unfold StateDocument.remove at hremove
  split at hremove
  · cases hremove
  · cases hremove
    have hsub : (document.fields.erase key).entries.Sublist document.fields.entries := List.filter_sublist
    exact ⟨hsub.length_le.trans h.count, fun e he => h.key e (hsub.subset he), fun e he => h.value e (hsub.subset he)⟩

/-- A change of the fields keeps the bounds of a document if it keeps those of the fields. -/
theorem Bounded.sameSchema (h : document.Bounded) (hschema : document'.schema = document.schema)
    (hfields : document'.FieldsBounded) : document'.Bounded :=
  ⟨hschema ▸ h.schema_pos, hschema ▸ h.schema_le, hfields.count, hfields.key, hfields.value⟩

theorem Bounded.put (h : document.Bounded) (hput : document.put key value = .ok document') : document'.Bounded :=
  h.sameSchema (schema_put hput) (h.fieldsBounded.put hput)

theorem Bounded.remove (h : document.Bounded) (hremove : document.remove key = .ok document') : document'.Bounded :=
  h.sameSchema (schema_remove hremove) (h.fieldsBounded.remove hremove)

theorem Bounded.setSchema {schema : Nat} (h : document.Bounded) (hle : schema ≤ maxU32)
    (hset : document.setSchema schema = .ok document') : document'.Bounded := by
  unfold StateDocument.setSchema at hset
  split_ifs at hset with hzero
  cases hset
  exact ⟨Nat.pos_of_ne_zero hzero, hle, h.count, h.key, h.value⟩

theorem Bounded.putAll {refuse : String → Status} {l : List (String × Option String)} (h : document.Bounded)
    (hput : putAll refuse document l = .ok document') : document'.Bounded := by
  induction l generalizing document with
  | nil =>
    cases hput
    exact h
  | cons entry rest ih =>
    obtain ⟨key, _ | value⟩ := entry
    · simp [StateDocument.putAll] at hput
    · rw [StateDocument.putAll] at hput
      cases hone : document.put key value with
      | error refusal => simp [hone] at hput
      | ok document₁ =>
        simp only [hone] at hput
        exact ih (h.put hone) hput

/-! ## Migrations -/

/-- What every put and every removal keeps, a transformation keeps. -/
theorem applyForward_keeps {P : StateDocument → Prop} {resolved : ResolvedMigration}
    (hput : ∀ {d d' : StateDocument} {key value}, P d → d.put key value = .ok d' → P d')
    (hremove : ∀ {d d' : StateDocument} {key}, P d → d.remove key = .ok d' → P d')
    (h : P document) (happly : applyForward resolved document = .ok document') : P document' := by
  unfold FabricEvolution.applyForward at happly
  split at happly
  · cases happly
    exact h
  · obtain ⟨key, -, happly⟩ := Result.bind_eq_ok.mp happly
    obtain ⟨value, -, happly⟩ := Result.bind_eq_ok.mp happly
    exact hput h happly
  · obtain ⟨source, -, happly⟩ := Result.bind_eq_ok.mp happly
    obtain ⟨target, -, happly⟩ := Result.bind_eq_ok.mp happly
    split at happly
    · split_ifs at happly
      cases happly
      exact h
    · split_ifs at happly
      obtain ⟨renamed, hrenamed, happly⟩ := Result.bind_eq_ok.mp happly
      exact hremove (hput h hrenamed) happly
  · obtain ⟨key, -, happly⟩ := Result.bind_eq_ok.mp happly
    split_ifs at happly
    · exact hremove h happly
    · cases happly
      exact h
  · obtain ⟨key, -, happly⟩ := Result.bind_eq_ok.mp happly
    obtain ⟨prefixText, -, happly⟩ := Result.bind_eq_ok.mp happly
    obtain ⟨suffixText, -, happly⟩ := Result.bind_eq_ok.mp happly
    split at happly
    · split_ifs at happly
      cases happly
      exact h
    · exact hput h happly
  · obtain ⟨key, -, happly⟩ := Result.bind_eq_ok.mp happly
    obtain ⟨prefixText, -, happly⟩ := Result.bind_eq_ok.mp happly
    obtain ⟨suffixText, -, happly⟩ := Result.bind_eq_ok.mp happly
    split at happly
    · cases happly
    · split at happly
      · cases happly
      · exact hput h happly
  · obtain ⟨key, -, happly⟩ := Result.bind_eq_ok.mp happly
    split at happly
    · cases happly
    · exact hput h happly

theorem Bounded.applyForward {resolved : ResolvedMigration} (h : document.Bounded)
    (happly : applyForward resolved document = .ok document') : document'.Bounded :=
  applyForward_keeps Bounded.put Bounded.remove h happly

theorem FieldsBounded.applyForward {resolved : ResolvedMigration} (h : document.FieldsBounded)
    (happly : applyForward resolved document = .ok document') : document'.FieldsBounded :=
  applyForward_keeps FieldsBounded.put FieldsBounded.remove h happly

theorem schema_applyForward {resolved : ResolvedMigration} (happly : applyForward resolved document = .ok document') :
    document'.schema = document.schema :=
  applyForward_keeps (P := fun d => d.schema = document.schema) (fun h hput => (schema_put hput).trans h)
    (fun h hremove => (schema_remove hremove).trans h) rfl happly

theorem Bounded.migrateSteps {digestOf : Json → Digest} {path : List MigrationStepSpec} {records : List MigrationStepRecord}
    (h : document.Bounded) (hpath : ∀ spec ∈ path, spec.target ≤ maxU32)
    (hmigrate : migrateSteps digestOf document path = .ok (document', records)) : document'.Bounded := by
  induction path generalizing document records with
  | nil =>
    cases hmigrate
    exact h
  | cons spec path ih =>
    obtain ⟨⟨migrated, record⟩, hstep, hmigrate⟩ := Result.bind_eq_ok.mp hmigrate
    obtain ⟨⟨final, rest⟩, hrest, hmigrate⟩ := Result.bind_eq_ok.mp hmigrate
    cases hmigrate
    unfold migrateStep at hstep
    obtain ⟨_, _, hstep⟩ := Result.bind_eq_ok.mp hstep
    obtain ⟨_, _, hstep⟩ := Result.bind_eq_ok.mp hstep
    obtain ⟨_, _, hstep⟩ := Result.bind_eq_ok.mp hstep
    obtain ⟨applied, happly, hstep⟩ := Result.bind_eq_ok.mp hstep
    obtain ⟨migrated', hset, hstep⟩ := Result.bind_eq_ok.mp hstep
    cases hstep
    exact ih ((h.applyForward happly).setSchema (hpath spec List.mem_cons_self) hset)
      (fun s hs => hpath s (List.mem_cons_of_mem _ hs)) hrest

/-! ## The fields object -/

theorem foldl_set_object {before l : List (String × String)} (hascend : KeysAscend (before ++ l)) :
    l.foldl (fun out entry => out.set entry.1 (.string entry.2)) (.object (before.map fun entry => (entry.1, .string entry.2))) =
      Json.object ((before ++ l).map fun entry => (entry.1, .string entry.2)) := by
  induction l generalizing before with
  | nil => simp
  | cons entry rest ih =>
    have hsplit : before ++ entry :: rest = (before ++ [entry]) ++ rest := by simp
    have hfirst : KeysAscend ((before ++ [entry]).map fun entry => (entry.1, Json.string entry.2)) := by
      rw [hsplit] at hascend
      exact List.pairwise_map.2 (List.pairwise_append.1 hascend).1
    rw [List.map_append, List.map_singleton] at hfirst
    rw [hsplit] at hascend ⊢
    rw [← ih hascend, List.foldl_cons, Json.set, assocInsert_last hfirst, List.map_append, List.map_singleton]

/-- The fields object member by member. -/
theorem fieldsToJson_eq (document : StateDocument) :
    document.fieldsToJson = .object (document.fields.entries.map fun entry => (entry.1, .string entry.2)) :=
  @foldl_set_object [] _ document.fields.ascend

/-- The members of a presented object are those of the document built from them. -/
theorem members_of_putAll {refuse : String → Status} {schema : Nat} {l : List (String × Option String)} (hl : KeysAscend l)
    (h : StateDocument.putAll refuse { schema := schema } l = .ok document') : document'.members = l := by
  have hstrings : ∀ {d : StateDocument} {l}, StateDocument.putAll refuse d l = .ok document' →
      ∃ strings : List (String × String), l = strings.map fun entry => (entry.1, some entry.2) := by
    intro d l h
    induction l generalizing d with
    | nil => exact ⟨[], rfl⟩
    | cons entry rest ih =>
      obtain ⟨key, _ | value⟩ := entry
      · simp [StateDocument.putAll] at h
      · rw [StateDocument.putAll] at h
        cases hone : d.put key value with
        | error refusal => simp [hone] at h
        | ok d₁ =>
          simp only [hone] at h
          obtain ⟨strings, rfl⟩ := ih h
          exact ⟨(key, value) :: strings, rfl⟩
  obtain ⟨strings, rfl⟩ := hstrings h
  have hascend : KeysAscend strings := by
    rw [KeysAscend, List.pairwise_map] at hl
    exact hl
  have hentries : document'.fields.entries = strings := by
    refine document'.fields.ascend.ext hascend fun key => ?_
    have hget := get_of_putAll hascend h key
    rw [show document'.get key = assocFind key document'.fields.entries from rfl] at hget
    rw [hget]
    show (assocFind key strings).orElse (fun _ => none) = _
    cases assocFind key strings <;> rfl
  rw [StateDocument.members, hentries]

/-- The members that are left are put behind those put before. -/
theorem putAll_append {refuse : String → Status} {schema : Nat} {before rest : List (String × String)} (hbefore : KeysAscend before)
    (hascend : KeysAscend (before ++ rest)) (hcount : (before ++ rest).length ≤ maxStateFields)
    (hentries : ∀ entry ∈ rest, (entry.1 ≠ "" ∧ entry.1.length ≤ maxStateKeyBytes) ∧ entry.2.length ≤ maxStateValueBytes) :
    StateDocument.putAll refuse ⟨schema, ⟨before, hbefore⟩⟩ (rest.map fun entry => (entry.1, some entry.2)) =
      .ok ⟨schema, ⟨before ++ rest, hascend⟩⟩ := by
  induction rest generalizing before with
  | nil => simp [StateDocument.putAll]
  | cons entry rest ih =>
    obtain ⟨key, value⟩ := entry
    obtain ⟨⟨hne, hkey⟩, hvalue⟩ := hentries _ List.mem_cons_self
    have hsplit : before ++ (key, value) :: rest = (before ++ [(key, value)]) ++ rest := by simp
    have hfirst : KeysAscend (before ++ [(key, value)]) := by
      rw [hsplit] at hascend
      exact (List.pairwise_append.1 hascend).1
    have hroom : ¬ before.length ≥ maxStateFields := by
      rw [List.length_append, List.length_cons] at hcount
      omega
    have hput : StateDocument.put ⟨schema, ⟨before, hbefore⟩⟩ key value = .ok ⟨schema, ⟨before ++ [(key, value)], hfirst⟩⟩ := by
      unfold StateDocument.put
      rw [if_neg (not_or.2 ⟨hne, Nat.not_lt.2 hkey⟩), if_neg (Nat.not_lt.2 hvalue), if_neg fun hfull => hroom hfull.2]
      simp only [SortedMap.insert, assocInsert_last hfirst]
    rw [List.map_cons, StateDocument.putAll, hput]
    simp only [hsplit] at hascend hcount ⊢
    exact ih hfirst hascend hcount fun e he => hentries e (List.mem_cons_of_mem _ he)

/-- A bounded document is built again from its members. -/
theorem Bounded.putAll_members (h : document.Bounded) (refuse : String → Status) :
    StateDocument.putAll refuse { schema := document.schema } document.members = .ok document :=
  @putAll_append refuse document.schema [] _ List.Pairwise.nil document.fields.ascend h.count
    fun entry he => ⟨h.key entry he, h.value entry he⟩

end StateDocument

end FabricEvolution
