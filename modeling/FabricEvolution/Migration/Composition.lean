import FabricEvolution.Migration.Step

/-!
# Migrations one after another

* `migrateStep_record` : what a step records of the documents before and after it;
* `migrateSteps_append` : the steps of one path and then those of another;
* `MigrationOutcome.followedBy`, `migrateForward_append` : the outcome of both, and its records as one chain.
-/

namespace FabricEvolution
open Lib

section
variable (digestOf : Json → Digest)

theorem migrateStep_record {working migrated : StateDocument} {spec : MigrationStepSpec} {record : MigrationStepRecord}
    (h : migrateStep digestOf working spec = .ok (migrated, record)) :
    record.stateDigestBefore = working.digest digestOf ∧ record.stateDigestAfter = migrated.digest digestOf := by
  obtain ⟨_, -, h⟩ := Result.bind_eq_ok.mp h
  obtain ⟨_, -, h⟩ := Result.bind_eq_ok.mp h
  obtain ⟨_, -, h⟩ := Result.bind_eq_ok.mp h
  obtain ⟨_, -, h⟩ := Result.bind_eq_ok.mp h
  obtain ⟨_, -, h⟩ := Result.bind_eq_ok.mp h
  cases h
  exact ⟨rfl, rfl⟩

theorem migrateSteps_cons {working final : StateDocument} {spec : MigrationStepSpec} {path : List MigrationStepSpec}
    {records : List MigrationStepRecord} : migrateSteps digestOf working (spec :: path) = .ok (final, records) ↔
      ∃ migrated record rest, migrateStep digestOf working spec = .ok (migrated, record) ∧
        migrateSteps digestOf migrated path = .ok (final, rest) ∧ records = record :: rest := by
  rw [migrateSteps, Result.bind_eq_ok]
  constructor
  · rintro ⟨⟨migrated, record⟩, hstep, h⟩
    obtain ⟨⟨final', rest⟩, hrest, h⟩ := Result.bind_eq_ok.mp h
    cases h
    exact ⟨migrated, record, rest, hstep, hrest, rfl⟩
  · rintro ⟨migrated, record, rest, hstep, hrest, rfl⟩
    exact ⟨(migrated, record), hstep, Result.bind_eq_ok.mpr ⟨(final, rest), hrest, rfl⟩⟩

/-- The steps of a path, and then those of another on what they make. -/
theorem migrateSteps_append {working final : StateDocument} {path more : List MigrationStepSpec}
    {records : List MigrationStepRecord} : migrateSteps digestOf working (path ++ more) = .ok (final, records) ↔
      ∃ middle first second, migrateSteps digestOf working path = .ok (middle, first) ∧
        migrateSteps digestOf middle more = .ok (final, second) ∧ records = first ++ second := by
  induction path generalizing working records with
  | nil =>
    constructor
    · intro h
      exact ⟨working, [], records, rfl, h, rfl⟩
    · rintro ⟨middle, first, second, hfirst, hsecond, rfl⟩
      cases hfirst
      exact hsecond
  | cons spec path ih =>
    rw [List.cons_append, migrateSteps_cons]
    constructor
    · rintro ⟨migrated, record, rest, hstep, hrest, rfl⟩
      obtain ⟨middle, first, second, hfirst, hsecond, rfl⟩ := ih.mp hrest
      exact ⟨middle, record :: first, second, (migrateSteps_cons digestOf).mpr ⟨migrated, record, first, hstep, hfirst, rfl⟩,
        hsecond, rfl⟩
    · rintro ⟨middle, first, second, hfirst, hsecond, rfl⟩
      obtain ⟨migrated, record, rest, hstep, hrest, rfl⟩ := (migrateSteps_cons digestOf).mp hfirst
      exact ⟨migrated, record, rest ++ second, hstep, ih.mpr ⟨middle, rest, second, hrest, hsecond, rfl⟩, rfl⟩

/-- The records are a chain from the digest of the first document to that of the last. -/
structure ChainsFrom (before after : Digest) (records : List MigrationStepRecord) : Prop where
  linked : records.IsChain fun earlier later => later.stateDigestBefore = earlier.stateDigestAfter
  first : ∀ record, records.head? = some record → record.stateDigestBefore = before
  last : records.foldl (fun _ record => record.stateDigestAfter) before = after

theorem chainsFrom_migrateSteps {working final : StateDocument} {path : List MigrationStepSpec}
    {records : List MigrationStepRecord} (h : migrateSteps digestOf working path = .ok (final, records)) :
    ChainsFrom (working.digest digestOf) (final.digest digestOf) records := by
  induction path generalizing working records with
  | nil =>
    cases h
    exact ⟨.nil, by rintro record ⟨⟩, rfl⟩
  | cons spec path ih =>
    obtain ⟨migrated, record, rest, hstep, hrest, rfl⟩ := (migrateSteps_cons digestOf).mp h
    obtain ⟨hbefore, hafter⟩ := migrateStep_record digestOf hstep
    have hchain := ih hrest
    refine ⟨?_, ?_, ?_⟩
    · cases rest with
      | nil => exact .singleton record
      | cons next rest =>
        rw [List.isChain_cons_cons, hafter]
        exact ⟨hchain.first next rfl, hchain.linked⟩
    · rintro _ ⟨⟩
      exact hbefore
    · have hlast := hchain.last
      rw [← hafter] at hlast
      exact hlast

/-- An outcome, and then another of what the first made. -/
def MigrationOutcome.followedBy (first second : MigrationOutcome) : MigrationOutcome :=
  { source := first.source, target := second.target, steps := first.steps ++ second.steps
    stateDigestBefore := first.stateDigestBefore, stateDigestAfter := second.stateDigestAfter
    crossedIrreversibleBoundary := first.crossedIrreversibleBoundary || second.crossedIrreversibleBoundary
    irreversibleBoundariesCrossed := first.irreversibleBoundariesCrossed ++ second.irreversibleBoundariesCrossed }

/-- The outcome of the steps of a path. -/
def outcomeOf (document final : StateDocument) (records : List MigrationStepRecord) : MigrationOutcome :=
  { source := document.schema, target := final.schema, steps := records
    stateDigestBefore := document.digest digestOf, stateDigestAfter := final.digest digestOf
    crossedIrreversibleBoundary := records.any (·.irreversibleBoundary)
    irreversibleBoundariesCrossed := (records.filter (·.irreversibleBoundary)).map (·.step) }

theorem migrateForward_eq_ok {document final : StateDocument} {path : List MigrationStepSpec} {outcome : MigrationOutcome} :
    migrateForward digestOf document path = .ok (final, outcome) ↔
      ∃ records, migrateSteps digestOf document path = .ok (final, records) ∧ outcome = outcomeOf digestOf document final records := by
  rw [migrateForward, Result.bind_eq_ok]
  constructor
  · rintro ⟨⟨final', records⟩, hsteps, h⟩
    cases h
    exact ⟨records, hsteps, rfl⟩
  · rintro ⟨records, hsteps, rfl⟩
    exact ⟨(final, records), hsteps, rfl⟩

theorem outcomeOf_append (document middle final : StateDocument) (first second : List MigrationStepRecord) :
    outcomeOf digestOf document final (first ++ second) =
      (outcomeOf digestOf document middle first).followedBy (outcomeOf digestOf middle final second) := by
  rw [outcomeOf, List.any_append, List.filter_append, List.map_append]
  rfl

/-- A path that is followed by another migrates a document exactly when the first path does and then the second does what the
first made of it, to the same document; the outcome is that of both, and its records are a chain of digests. -/
theorem migrateForward_append (document : StateDocument) (path more : List MigrationStepSpec) :
    (∀ final outcome, migrateForward digestOf document (path ++ more) = .ok (final, outcome) ↔
      ∃ middle first second, migrateForward digestOf document path = .ok (middle, first) ∧
        migrateForward digestOf middle more = .ok (final, second) ∧ outcome = first.followedBy second) ∧
    ∀ final outcome, migrateForward digestOf document (path ++ more) = .ok (final, outcome) →
      ChainsFrom outcome.stateDigestBefore outcome.stateDigestAfter outcome.steps := by
  constructor
  · intro final outcome
    rw [migrateForward_eq_ok]
    constructor
    · rintro ⟨records, hsteps, rfl⟩
      obtain ⟨middle, first, second, hfirst, hsecond, rfl⟩ := (migrateSteps_append digestOf).mp hsteps
      refine ⟨middle, _, _, (migrateForward_eq_ok digestOf).mpr ⟨first, hfirst, rfl⟩,
        (migrateForward_eq_ok digestOf).mpr ⟨second, hsecond, rfl⟩, outcomeOf_append ..⟩
    · rintro ⟨middle, first, second, hfirst, hsecond, rfl⟩
      obtain ⟨records, hrecords, rfl⟩ := (migrateForward_eq_ok digestOf).mp hfirst
      obtain ⟨records', hrecords', rfl⟩ := (migrateForward_eq_ok digestOf).mp hsecond
      refine ⟨records ++ records', (migrateSteps_append digestOf).mpr ⟨middle, records, records', hrecords, hrecords', rfl⟩, ?_⟩
      exact (outcomeOf_append ..).symm
  · intro final outcome h
    obtain ⟨records, hsteps, rfl⟩ := (migrateForward_eq_ok digestOf).mp h
    exact chainsFrom_migrateSteps digestOf hsteps

end

end FabricEvolution
