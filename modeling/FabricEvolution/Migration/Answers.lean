import FabricEvolution.Migration.Table
import FabricEvolution.Manifest.RoundTrip

/-!
# Calls of the migrator

* `MigratorState`, `migratorLoop` : the caller's document and the copy that the loop over a path works on;
* `backStep` : one step of the loop of `migrate_backward`, where the lookup of an absent argument throws;
* `migrateForwardCall`, `migrateBackwardCall` : what a call returns or throws, and the document it leaves to the caller;
  `migrateBackwardCall_eq_ok` : an outcome is that of the migrator as a function;
* `Retracts`, `TakenBack` : a step and a path that are taken back; `ThrowsAt` : a step whose arguments are looked up in vain;
* `migrator_answers_iff` : both calls answer exactly when the backward one arrives at no such step.
-/

namespace FabricEvolution
open Lib

/-! ## The loop -/

/-- Why a call ends without an outcome. -/
inductive Stop where
  | refused (status : Status)
  | thrown (what : String)

/-- The caller's document, and the copy that the steps are applied to. -/
structure MigratorState where
  document : StateDocument
  working : StateDocument

/-- What a step does to the copy. -/
abbrev MigratorStep := StateDocument → MigrationStepSpec → Except Stop (StateDocument × MigrationStepRecord)

/-- The steps in turn, and the records of those applied; the first that stops ends the loop. -/
def migratorLoop (step : MigratorStep) : List MigrationStepRecord → MigratorState → List MigrationStepSpec →
    Except Stop (List MigrationStepRecord) × MigratorState
  | records, state, [] => (.ok records, state)
  | records, state, spec :: path =>
    match step state.working spec with
    | .error stop => (.error stop, state)
    | .ok (migrated, record) => migratorLoop step (records ++ [record]) { state with working := migrated } path

/-- The loop on a copy; the document is replaced only after the last step. -/
def migratorCall (step : MigratorStep) (outcome : StateDocument → List MigrationStepRecord → MigrationOutcome)
    (document : StateDocument) (path : List MigrationStepSpec) : Except Stop MigrationOutcome × StateDocument :=
  match migratorLoop step [] ⟨document, document⟩ path with
  | (.error stop, state) => (.error stop, state.document)
  | (.ok records, state) => (.ok (outcome state.working records), state.working)

/-! ## The calls -/

/-- The refusal of a step ends the call. -/
def refusing {α : Type} : Result α → Except Stop α
  | .ok a => .ok a
  | .error refusal => .error (.refused refusal)

namespace ResolvedMigration

/-- `map::at`. -/
def argumentAt (resolved : ResolvedMigration) (name : String) : Except Stop String :=
  match assocFind name resolved.args with
  | some value => .ok value
  | none => .error (.thrown "map::at")

/-- The transformation that takes a step back. -/
def reversed (resolved : ResolvedMigration) : Except Stop ResolvedMigration :=
  match resolved.kind with
  | .identity => return ⟨resolved.spec, .identity, resolved.args⟩
  | .addField => do
    let key ← resolved.argumentAt "key"
    return ⟨resolved.spec, .removeField, [("key", key)]⟩
  | .renameField => do
    let target ← resolved.argumentAt "to"
    let source ← resolved.argumentAt "from"
    return ⟨resolved.spec, .renameField, [("from", target), ("to", source)]⟩
  | .wrapValue => return ⟨resolved.spec, .unwrapValue, resolved.args⟩
  | _ => .error (.refused ⟨.irreversibleBoundary, resolved.spec.title ++ " has no reverse transformation",
      .ofPairs [("function", .string resolved.spec.function)]⟩)

end ResolvedMigration

section
variable (digestOf : Json → Digest)

def backStep : MigratorStep := fun working spec => do
  refusing (refuseUnless (spec.target = working.schema)
    ⟨.migrationFailure, "reverse migration path is not contiguous at step " ++ spec.id.str,
      .ofPairs [("expected_to", .uint working.schema), ("step_to", .uint spec.target)]⟩)
  let resolved ← refusing (resolveMigrationStep spec)
  refusing (refuseUnless (!(spec.irreversibleBoundary || !spec.reversible))
    ⟨.irreversibleBoundary, "cannot downgrade across irreversible migration boundary " ++ spec.id.str,
      .ofPairs [("step", .string spec.id.str), ("from_schema", .uint spec.source), ("to_schema", .uint spec.target),
        ("function", .string spec.function)]⟩)
  let before := working.digest digestOf
  let reverse ← resolved.reversed
  let applied ← refusing (applyForward reverse working)
  let migrated ← refusing (applied.setSchema spec.source)
  return (migrated,
    { step := spec.id, source := spec.target, target := spec.source, stateDigestBefore := before,
      stateDigestAfter := migrated.digest digestOf, evidenceDigest := .zero, irreversibleBoundary := false })

/-- The outcome of a path that was taken back. -/
def reverseOutcomeOf (document final : StateDocument) (records : List MigrationStepRecord) : MigrationOutcome :=
  { source := document.schema, target := final.schema, steps := records,
    stateDigestBefore := document.digest digestOf, stateDigestAfter := final.digest digestOf,
    crossedIrreversibleBoundary := false, irreversibleBoundariesCrossed := [] }

def migrateForwardCall (document : StateDocument) : List MigrationStepSpec → Except Stop MigrationOutcome × StateDocument :=
  migratorCall (fun working spec => refusing (migrateStep digestOf working spec)) (outcomeOf digestOf document) document

def migrateBackwardCall (document : StateDocument) (path : List MigrationStepSpec) :
    Except Stop MigrationOutcome × StateDocument :=
  migratorCall (backStep digestOf) (reverseOutcomeOf digestOf document) document path.reverse

/-- A call that returns: an outcome and the document it is about, or an error and the document as it was. -/
def Answers (document : StateDocument) : Except Stop MigrationOutcome × StateDocument → Prop
  | (.ok outcome, after) => outcome.source = document.schema ∧ outcome.stateDigestBefore = document.digest digestOf ∧
      outcome.target = after.schema ∧ outcome.stateDigestAfter = after.digest digestOf
  | (.error (.refused _), after) => after = document
  | (.error (.thrown _), _) => False

end

/-! ## Runs of the loop -/

section
variable (step : MigratorStep) (records : List MigrationStepRecord) (state : MigratorState)

/-- No step touches the caller's document. -/
theorem document_migratorLoop (path : List MigrationStepSpec) : (migratorLoop step records state path).2.document = state.document := by
  induction path generalizing records state with
  | nil => rfl
  | cons spec path ih =>
    rw [migratorLoop]
    cases step state.working spec with
    | error stop => rfl
    | ok result => exact ih ..

/-- One step more. -/
theorem migratorLoop_snoc (path : List MigrationStepSpec) (spec : MigrationStepSpec) :
    migratorLoop step records state (path ++ [spec]) = match migratorLoop step records state path with
      | (.error stop, state') => (.error stop, state')
      | (.ok records', state') => migratorLoop step records' state' [spec] := by
  induction path generalizing records state with
  | nil => rfl
  | cons first path ih =>
    rw [List.cons_append, migratorLoop, migratorLoop]
    cases step state.working first with
    | error stop => rfl
    | ok result => exact ih ..

end

section
variable (digestOf : Json → Digest)

/-- A call answers unless it throws. -/
theorem answers_migratorCall {step : MigratorStep} {outcome : StateDocument → List MigrationStepRecord → MigrationOutcome}
    {document : StateDocument} (path : List MigrationStepSpec)
    (houtcome : ∀ final records, Answers digestOf document (.ok (outcome final records), final)) :
    Answers digestOf document (migratorCall step outcome document path) ↔
      ¬ ∃ what, (migratorLoop step [] ⟨document, document⟩ path).1 = .error (.thrown what) := by
  have hdocument := document_migratorLoop step [] ⟨document, document⟩ path
  unfold migratorCall
  generalize migratorLoop step [] ⟨document, document⟩ path = call at hdocument
  obtain ⟨ending, state⟩ := call
  cases ending with
  | ok records => simpa using houtcome state.working records
  | error stop =>
    cases stop with
    | refused status => simpa [Answers] using hdocument
    | thrown what => simp [Answers]

end

/-! ## Steps taken back -/

/-- The row of the table that undoes a row, and its arguments. -/
inductive Inverse (args : List (String × String)) : MigrationOpKind → MigrationOpKind → List (String × String) → Prop
  | identity : Inverse args .identity .identity args
  | addField {key : String} : assocFind "key" args = some key → Inverse args .addField .removeField [("key", key)]
  | renameField {source target : String} : assocFind "from" args = some source → assocFind "to" args = some target →
      Inverse args .renameField .renameField [("from", target), ("to", source)]
  | wrapValue : Inverse args .wrapValue .unwrapValue args

/-- A declared reversible step is taken back to its source by the row that undoes it. -/
structure Retracts (document : StateDocument) (spec : MigrationStepSpec) (document' : StateDocument) : Prop where
  contiguous : spec.target = document.schema
  crossable : (spec.irreversibleBoundary || !spec.reversible) = false
  source : spec.source ≠ 0
  undone : ∃ kind args kind' args' undone, Declares spec kind args ∧ Inverse args kind kind' args' ∧
    Transforms kind' args' document undone ∧ ¬ Slips kind' args' document ∧ document' = { undone with schema := spec.source }

/-- A path from its last step to its first. -/
inductive TakenBack (document : StateDocument) : List MigrationStepSpec → StateDocument → Prop
  | nil : TakenBack document [] document
  | cons {middle final : StateDocument} {spec : MigrationStepSpec} {path : List MigrationStepSpec} :
      TakenBack document path middle → Retracts middle spec final → TakenBack document (spec :: path) final

/-- A parameter that the reverse of the function is made of is not there. -/
def Lacks : MigrationOpKind → List (String × String) → Prop
  | .addField, args => assocFind "key" args = none
  | .renameField, args => assocFind "to" args = none ∨ assocFind "from" args = none
  | _, _ => False

/-- A declared reversible step to the schema of the document, without a parameter that its reverse is made of. -/
structure ThrowsAt (spec : MigrationStepSpec) (document : StateDocument) : Prop where
  contiguous : spec.target = document.schema
  crossable : (spec.irreversibleBoundary || !spec.reversible) = false
  lacks : ∃ kind args, Declares spec kind args ∧ Lacks kind args

@[simp] theorem refusing_eq_ok {α : Type} {result : Result α} {a : α} : refusing result = .ok a ↔ result = .ok a := by
  cases result <;> simp [refusing]

@[simp] theorem refusing_ne_thrown {α : Type} {result : Result α} {what : String} : refusing result ≠ .error (.thrown what) := by
  cases result <;> simp [refusing]

namespace Stop
variable {α β : Type} {x : Except Stop α} {f : α → Except Stop β}

theorem bind_eq_ok {b : β} : x >>= f = .ok b ↔ ∃ a, x = .ok a ∧ f a = .ok b := by
  cases x with
  | error stop => simp [bind, Except.bind]
  | ok a => simp [bind, Except.bind]

theorem bind_eq_thrown {what : String} :
    x >>= f = .error (.thrown what) ↔ x = .error (.thrown what) ∨ ∃ a, x = .ok a ∧ f a = .error (.thrown what) := by
  cases x with
  | error stop => simp [bind, Except.bind]
  | ok a => simp [bind, Except.bind]

end Stop

namespace ResolvedMigration
variable {resolved reverse : ResolvedMigration} {name value : String}

theorem argumentAt_eq_ok : resolved.argumentAt name = .ok value ↔ assocFind name resolved.args = some value := by
  unfold argumentAt
  cases assocFind name resolved.args <;> simp

theorem argumentAt_thrown : (∃ what, resolved.argumentAt name = .error (.thrown what)) ↔ assocFind name resolved.args = none := by
  unfold argumentAt
  cases assocFind name resolved.args <;> simp

theorem reversed_eq_ok : resolved.reversed = .ok reverse ↔
    reverse.spec = resolved.spec ∧ Inverse resolved.args resolved.kind reverse.kind reverse.args := by
  unfold reversed
  constructor
  · intro h
    cases hkind : resolved.kind with
    | identity =>
      rw [hkind] at h
      cases h
      exact ⟨rfl, .identity⟩
    | addField =>
      rw [hkind] at h
      obtain ⟨key, hkey, h⟩ := Stop.bind_eq_ok.mp h
      cases h
      exact ⟨rfl, .addField (argumentAt_eq_ok.mp hkey)⟩
    | renameField =>
      rw [hkind] at h
      obtain ⟨target, htarget, h⟩ := Stop.bind_eq_ok.mp h
      obtain ⟨source, hsource, h⟩ := Stop.bind_eq_ok.mp h
      cases h
      exact ⟨rfl, .renameField (argumentAt_eq_ok.mp hsource) (argumentAt_eq_ok.mp htarget)⟩
    | wrapValue =>
      rw [hkind] at h
      cases h
      exact ⟨rfl, .wrapValue⟩
    | _ =>
      rw [hkind] at h
      cases h
  · obtain ⟨spec, kind', args'⟩ := reverse
    rintro ⟨rfl, hinverse⟩
    cases hkind : resolved.kind with
    | identity =>
      rw [hkind] at hinverse
      cases hinverse
      rfl
    | addField =>
      rw [hkind] at hinverse
      obtain ⟨⟩ | ⟨hkey⟩ := hinverse
      exact Stop.bind_eq_ok.mpr ⟨_, argumentAt_eq_ok.mpr hkey, rfl⟩
    | renameField =>
      rw [hkind] at hinverse
      cases hinverse with
      | renameField hsource htarget =>
        exact Stop.bind_eq_ok.mpr ⟨_, argumentAt_eq_ok.mpr htarget, Stop.bind_eq_ok.mpr ⟨_, argumentAt_eq_ok.mpr hsource, rfl⟩⟩
    | wrapValue =>
      rw [hkind] at hinverse
      cases hinverse
      rfl
    | _ =>
      rw [hkind] at hinverse
      cases hinverse

theorem reversed_thrown : (∃ what, resolved.reversed = .error (.thrown what)) ↔ Lacks resolved.kind resolved.args := by
  unfold reversed Lacks
  cases resolved.kind with
  | addField =>
    show _ ↔ assocFind "key" resolved.args = none
    rw [← argumentAt_thrown]
    simp only [Stop.bind_eq_thrown, pure, Except.pure, reduceCtorEq, and_false, exists_false, or_false]
  | renameField =>
    show _ ↔ assocFind "to" resolved.args = none ∨ assocFind "from" resolved.args = none
    simp only [Stop.bind_eq_thrown, pure, Except.pure, reduceCtorEq, and_false, exists_false, or_false, exists_or, argumentAt_thrown,
      argumentAt_eq_ok]
    cases assocFind "to" resolved.args with
    | none => simp
    | some target => simp [argumentAt_thrown]
  | _ => simp [pure, Except.pure]

end ResolvedMigration

section
variable {digestOf : Json → Digest} {document document' : StateDocument} {spec : MigrationStepSpec}

theorem backStep_eq_ok : (∃ record, backStep digestOf document spec = .ok (document', record)) ↔ Retracts document spec document' := by
  constructor
  · rintro ⟨record, h⟩
    simp only [backStep, Stop.bind_eq_ok, refusing_eq_ok, refuseUnless_eq_ok, decide_eq_true_eq, Bool.not_eq_true'] at h
    obtain ⟨_, hcontiguous, resolved, hresolved, _, hcrossable, reverse, hreverse, undone, happlied, migrated, hschema, h⟩ := h
    cases h
    obtain ⟨hdeclares, -⟩ := resolveMigrationStep_iff.mp hresolved
    obtain ⟨-, hinverse⟩ := ResolvedMigration.reversed_eq_ok.mp hreverse
    obtain ⟨htransforms, hslips⟩ := ResolvedMigration.applyForward_iff.mp happlied
    obtain ⟨hsource, rfl⟩ := StateDocument.setSchema_eq_ok.mp hschema
    exact ⟨hcontiguous, hcrossable, hsource, _, _, _, _, undone, hdeclares, hinverse, htransforms, hslips, rfl⟩
  · intro h
    obtain ⟨kind, args, kind', args', undone, hdeclares, hinverse, htransforms, hslips, rfl⟩ := h.undone
    have hresolved : resolveMigrationStep spec = .ok ⟨spec, kind, args⟩ := resolveMigrationStep_iff.mpr ⟨hdeclares, rfl⟩
    have hreverse : ResolvedMigration.reversed ⟨spec, kind, args⟩ = .ok ⟨spec, kind', args'⟩ :=
      ResolvedMigration.reversed_eq_ok.mpr ⟨rfl, hinverse⟩
    have happlied : applyForward ⟨spec, kind', args'⟩ document = .ok undone :=
      ResolvedMigration.applyForward_iff.mpr ⟨htransforms, hslips⟩
    have hschema : undone.setSchema spec.source = .ok { undone with schema := spec.source } :=
      StateDocument.setSchema_eq_ok.mpr ⟨h.source, rfl⟩
    simp only [backStep, Stop.bind_eq_ok, refusing_eq_ok, refuseUnless_eq_ok, decide_eq_true_eq, Bool.not_eq_true']
    exact ⟨_, (), h.contiguous, _, hresolved, (), h.crossable, _, hreverse, _, happlied, _, hschema, rfl⟩

theorem backStep_thrown : (∃ what, backStep digestOf document spec = .error (.thrown what)) ↔ ThrowsAt spec document := by
  constructor
  · rintro ⟨what, h⟩
    simp only [backStep, Stop.bind_eq_thrown, refusing_ne_thrown, refusing_eq_ok, refuseUnless_eq_ok, decide_eq_true_eq,
      Bool.not_eq_true', pure, Except.pure, reduceCtorEq, false_or, and_false, exists_false, or_false] at h
    obtain ⟨_, hcontiguous, resolved, hresolved, _, hcrossable, hreverse⟩ := h
    obtain ⟨hdeclares, -⟩ := resolveMigrationStep_iff.mp hresolved
    exact ⟨hcontiguous, hcrossable, _, _, hdeclares, ResolvedMigration.reversed_thrown.mp ⟨what, hreverse⟩⟩
  · intro h
    obtain ⟨kind, args, hdeclares, hlacks⟩ := h.lacks
    have hresolved : resolveMigrationStep spec = .ok ⟨spec, kind, args⟩ := resolveMigrationStep_iff.mpr ⟨hdeclares, rfl⟩
    have hthrown : ∃ what, ResolvedMigration.reversed ⟨spec, kind, args⟩ = .error (.thrown what) :=
      ResolvedMigration.reversed_thrown.mpr hlacks
    obtain ⟨what, hreverse⟩ := hthrown
    refine ⟨what, ?_⟩
    simp only [backStep, Stop.bind_eq_thrown, refusing_ne_thrown, refusing_eq_ok, refuseUnless_eq_ok, decide_eq_true_eq,
      Bool.not_eq_true', pure, Except.pure, reduceCtorEq, false_or, and_false, exists_false, or_false]
    exact ⟨(), h.contiguous, _, hresolved, (), h.crossable, hreverse⟩

/-- The loop takes back what is taken back, and throws where an argument is looked up in vain. -/
theorem backLoop_cases (path : List MigrationStepSpec) :
    (∀ middle, (∃ records, migratorLoop (backStep digestOf) [] ⟨document, document⟩ path.reverse = (.ok records, ⟨document, middle⟩)) ↔
      TakenBack document path middle) ∧
    ((∃ what, (migratorLoop (backStep digestOf) [] ⟨document, document⟩ path.reverse).1 = .error (.thrown what)) ↔
      ∃ front spec back middle, path = front ++ spec :: back ∧ TakenBack document back middle ∧ ThrowsAt spec middle) := by
  induction path with
  | nil =>
    refine ⟨fun middle => ?_, ?_⟩
    · constructor
      · rintro ⟨records, h⟩
        cases h
        exact .nil
      · intro h
        cases h
        exact ⟨[], rfl⟩
    · simp [migratorLoop]
  | cons spec path ih =>
    obtain ⟨ihBack, ihThrown⟩ := ih
    have hkept := document_migratorLoop (backStep digestOf) [] ⟨document, document⟩ path.reverse
    rw [List.reverse_cons, migratorLoop_snoc]
    generalize migratorLoop (backStep digestOf) [] ⟨document, document⟩ path.reverse = before at ihBack ihThrown hkept
    obtain ⟨ending, kept, working⟩ := before
    obtain rfl : kept = document := hkept
    cases ending with
    | error stop =>
      have hnone : ∀ middle, ¬ TakenBack kept path middle := by
        intro middle hback
        obtain ⟨records, h⟩ := (ihBack middle).mpr hback
        cases h
      refine ⟨fun middle => ?_, ?_⟩
      · constructor
        · rintro ⟨records, h⟩
          cases h
        · intro h
          cases h with
          | cons hback _ => exact absurd hback (hnone _)
      · constructor
        · intro h
          obtain ⟨front, spec', back, middle, rfl, hback, hthrows⟩ := ihThrown.mp h
          exact ⟨spec :: front, spec', back, middle, rfl, hback, hthrows⟩
        · rintro ⟨front, spec', back, middle, hpath, hback, hthrows⟩
          cases front with
          | nil =>
            cases hpath
            exact absurd hback (hnone _)
          | cons _ front =>
            cases hpath
            exact ihThrown.mpr ⟨front, spec', back, middle, rfl, hback, hthrows⟩
    | ok records =>
      have hback : TakenBack kept path working := (ihBack working).mp ⟨records, rfl⟩
      have hsame : ∀ middle, TakenBack kept path middle → middle = working := by
        intro middle h
        obtain ⟨records', h⟩ := (ihBack middle).mpr h
        cases h
        rfl
      have hstops : ∀ front spec' back middle, path = front ++ spec' :: back → TakenBack kept back middle → ¬ ThrowsAt spec' middle := by
        intro front spec' back middle hpath hback hthrows
        obtain ⟨what, h⟩ := ihThrown.mpr ⟨front, spec', back, middle, hpath, hback, hthrows⟩
        cases h
      refine ⟨fun final => ?_, ?_⟩
      · constructor
        · rintro ⟨records', h⟩
          cases hstep : backStep digestOf working spec with
          | error stop =>
            simp only [migratorLoop, hstep] at h
            cases h
          | ok result =>
            simp only [migratorLoop, hstep] at h
            cases h
            exact .cons hback (backStep_eq_ok.mp ⟨result.2, hstep⟩)
        · intro h
          cases h with
          | cons hback' hretracts =>
            rw [hsame _ hback'] at hretracts
            have hback : ∃ record, backStep digestOf working spec = .ok (final, record) := backStep_eq_ok.mpr hretracts
            obtain ⟨record, hstep⟩ := hback
            exact ⟨records ++ [record], by simp only [migratorLoop, hstep]⟩
      · have hloop : (∃ what, (migratorLoop (backStep digestOf) records ⟨kept, working⟩ [spec]).1 = .error (.thrown what)) ↔
            ∃ what, backStep digestOf working spec = .error (.thrown what) := by
          rw [migratorLoop]
          cases backStep digestOf working spec with
          | error stop => simp
          | ok result => simp [migratorLoop]
        show (∃ what, (migratorLoop (backStep digestOf) records ⟨kept, working⟩ [spec]).1 = .error (.thrown what)) ↔ _
        rw [hloop, backStep_thrown]
        constructor
        · intro hthrows
          exact ⟨[], spec, path, working, rfl, hback, hthrows⟩
        · rintro ⟨front, spec', back, middle, hpath, hback', hthrows⟩
          cases front with
          | nil =>
            cases hpath
            rw [hsame _ hback'] at hthrows
            exact hthrows
          | cons _ front =>
            cases hpath
            exact absurd hthrows (hstops front spec' back middle rfl hback')

/-- The loop over a path forwards throws nothing. -/
theorem forwardLoop_not_thrown (records : List MigrationStepRecord) (state : MigratorState) (path : List MigrationStepSpec)
    (what : String) :
    (migratorLoop (fun working spec => refusing (migrateStep digestOf working spec)) records state path).1 ≠ .error (.thrown what) := by
  induction path generalizing records state with
  | nil => exact fun h => nomatch h
  | cons spec path ih =>
    rw [migratorLoop]
    cases hstep : refusing (migrateStep digestOf state.working spec) with
    | error stop =>
      intro h
      obtain rfl : stop = .thrown what := Except.error.inj h
      exact refusing_ne_thrown hstep
    | ok result => exact ih _ _

end

/-! ## Both calls -/

/-- Both calls answer exactly when the backward one, after taking back the steps behind it, comes to no reversible step of a function
whose reverse is made of a parameter that the step has not. -/
theorem migrator_answers_iff (digestOf : Json → Digest) (document : StateDocument) (path : List MigrationStepSpec) :
    (Answers digestOf document (migrateForwardCall digestOf document path) ∧
        Answers digestOf document (migrateBackwardCall digestOf document path)) ↔
      ∀ front spec back middle, path = front ++ spec :: back → TakenBack document back middle → ¬ ThrowsAt spec middle := by
  have hforward : Answers digestOf document (migrateForwardCall digestOf document path) := by
    rw [migrateForwardCall, answers_migratorCall digestOf path fun _ _ => ⟨rfl, rfl, rfl, rfl⟩]
    rintro ⟨what, h⟩
    exact forwardLoop_not_thrown _ _ path what h
  rw [and_iff_right hforward, migrateBackwardCall, answers_migratorCall digestOf _ fun _ _ => ⟨rfl, rfl, rfl, rfl⟩,
    (backLoop_cases path).2]
  simp only [not_exists, not_and]

/-- A step that a manifest may carry, and a document of its target. -/
theorem migrateBackwardCall_throws : ∃ value spec document, migrationStepFromJson value = .ok spec ∧
    ∀ digestOf, migrateBackwardCall digestOf document [spec] = (.error (.thrown "map::at"), document) := by
  let spec : MigrationStepSpec := { id := ⟨"add", .inr (by decide)⟩, source := 1, target := 2, function := "add_field" }
  refine ⟨spec.toJson, spec, { schema := 2 }, MigrationStepSpec.fromJson_toJson ?_, fun digestOf => rfl⟩
  exact ⟨by decide, by decide, by decide, by decide, rfl⟩

/-! ## The calls and the migrator as a function -/

section
variable {digestOf : Json → Digest}

theorem reversed_iff {resolved reverse : ResolvedMigration} :
    resolved.reversed = .ok reverse ↔ reverseMigration resolved = .ok reverse := by
  unfold ResolvedMigration.reversed reverseMigration
  cases resolved.kind with
  | addField =>
    simp only [ResolvedMigration.argumentAt, ResolvedMigration.argAt]
    cases assocFind "key" resolved.args with
    | none => constructor <;> (intro h; cases h)
    | some key => constructor <;> (intro h; cases h; rfl)
  | renameField =>
    simp only [ResolvedMigration.argumentAt, ResolvedMigration.argAt]
    cases assocFind "to" resolved.args with
    | none => constructor <;> (intro h; cases h)
    | some target =>
      cases assocFind "from" resolved.args with
      | none => constructor <;> (intro h; cases h)
      | some source => constructor <;> (intro h; cases h; rfl)
  | identity | wrapValue => constructor <;> (intro h; cases h; rfl)
  | _ => constructor <;> (intro h; cases h)

theorem backStep_iff {document : StateDocument} {spec : MigrationStepSpec} {result : StateDocument × MigrationStepRecord} :
    backStep digestOf document spec = .ok result ↔ migrateBackStep digestOf document spec = .ok result := by
  simp only [backStep, migrateBackStep, Stop.bind_eq_ok, Result.bind_eq_ok, refusing_eq_ok, reversed_iff, pure, Except.pure,
    Except.ok.injEq]

/-- The loop over steps that only refuse, as the steps of the migrator as a function. -/
theorem migratorLoop_eq_ok {step : MigratorStep} (steps : StateDocument → List MigrationStepSpec →
      Result (StateDocument × List MigrationStepRecord)) (hnil : ∀ working, steps working [] = .ok (working, []))
    (hcons : ∀ {working final spec path all}, steps working (spec :: path) = .ok (final, all) ↔
      ∃ migrated record rest, step working spec = .ok (migrated, record) ∧ steps migrated path = .ok (final, rest) ∧
        all = record :: rest)
    {path : List MigrationStepSpec} {records all : List MigrationStepRecord} {document working : StateDocument}
    {state : MigratorState} : migratorLoop step records ⟨document, working⟩ path = (.ok all, state) ↔
      state.document = document ∧ ∃ rest, steps working path = .ok (state.working, rest) ∧ all = records ++ rest := by
  induction path generalizing records working with
  | nil =>
    obtain ⟨document', working'⟩ := state
    rw [migratorLoop, hnil]
    constructor
    · intro h
      cases h
      exact ⟨rfl, [], rfl, (List.append_nil _).symm⟩
    · rintro ⟨rfl, rest, h, rfl⟩
      cases h
      rw [List.append_nil]
  | cons spec path ih =>
    simp only [hcons]
    rw [migratorLoop]
    cases hstep : step working spec with
    | error stop =>
      constructor
      · intro h
        cases h
      · rintro ⟨-, rest, ⟨_, _, _, h, -⟩, -⟩
        cases h
    | ok result =>
      obtain ⟨migrated, record⟩ := result
      show migratorLoop step (records ++ [record]) ⟨document, migrated⟩ path = (.ok all, state) ↔ _
      rw [ih]
      constructor
      · rintro ⟨hdocument, rest, hrest, rfl⟩
        exact ⟨hdocument, record :: rest, ⟨migrated, record, rest, rfl, hrest, rfl⟩, List.append_cons .. |>.symm⟩
      · rintro ⟨hdocument, all', ⟨migrated', record', rest, h, hrest, rfl⟩, rfl⟩
        cases h
        exact ⟨hdocument, rest, hrest, List.append_cons ..⟩

theorem migratorCall_eq_ok {step : MigratorStep} {outcomeFor : StateDocument → List MigrationStepRecord → MigrationOutcome}
    {document final : StateDocument} {path : List MigrationStepSpec} {outcome : MigrationOutcome} :
    migratorCall step outcomeFor document path = (.ok outcome, final) ↔
      ∃ records, migratorLoop step [] ⟨document, document⟩ path = (.ok records, ⟨document, final⟩) ∧
        outcome = outcomeFor final records := by
  have hdocument := document_migratorLoop step [] ⟨document, document⟩ path
  unfold migratorCall
  generalize migratorLoop step [] ⟨document, document⟩ path = call at hdocument
  obtain ⟨ending, document', working⟩ := call
  obtain rfl : document' = document := hdocument
  cases ending with
  | error stop =>
    constructor
    · intro h
      cases h
    · rintro ⟨records, h, -⟩
      cases h
  | ok records =>
    constructor
    · intro h
      cases h
      exact ⟨records, rfl, rfl⟩
    · rintro ⟨records', h, rfl⟩
      cases h
      rfl

theorem migrateForwardCall_eq_ok {document final : StateDocument} {path : List MigrationStepSpec} {outcome : MigrationOutcome} :
    migrateForwardCall digestOf document path = (.ok outcome, final) ↔
      migrateForward digestOf document path = .ok (final, outcome) := by
  rw [migrateForwardCall, migratorCall_eq_ok, migrateForward_eq_ok]
  refine exists_congr fun records => and_congr_left fun _ => ?_
  rw [migratorLoop_eq_ok (migrateSteps digestOf) (fun _ => rfl) (by simp only [migrateSteps_cons, refusing_eq_ok, implies_true])]
  simp

theorem migrateBackSteps_cons {working final : StateDocument} {spec : MigrationStepSpec} {path : List MigrationStepSpec}
    {records : List MigrationStepRecord} : migrateBackSteps digestOf working (spec :: path) = .ok (final, records) ↔
      ∃ migrated record rest, backStep digestOf working spec = .ok (migrated, record) ∧
        migrateBackSteps digestOf migrated path = .ok (final, rest) ∧ records = record :: rest := by
  rw [migrateBackSteps, Result.bind_eq_ok]
  constructor
  · rintro ⟨⟨migrated, record⟩, hstep, h⟩
    obtain ⟨⟨final', rest⟩, hrest, h⟩ := Result.bind_eq_ok.mp h
    cases h
    exact ⟨migrated, record, rest, backStep_iff.mpr hstep, hrest, rfl⟩
  · rintro ⟨migrated, record, rest, hstep, hrest, rfl⟩
    exact ⟨(migrated, record), backStep_iff.mp hstep, Result.bind_eq_ok.mpr ⟨(final, rest), hrest, rfl⟩⟩

theorem migrateBackwardCall_eq_ok {document final : StateDocument} {path : List MigrationStepSpec} {outcome : MigrationOutcome} :
    migrateBackwardCall digestOf document path = (.ok outcome, final) ↔
      migrateBackward digestOf document path = .ok (final, outcome) := by
  rw [migrateBackwardCall, migratorCall_eq_ok, migrateBackward, Result.bind_eq_ok]
  simp only [migratorLoop_eq_ok (migrateBackSteps digestOf) (fun _ => rfl) migrateBackSteps_cons]
  constructor
  · rintro ⟨records, ⟨-, rest, hrest, hrecords⟩, rfl⟩
    rw [List.nil_append] at hrecords
    rw [hrecords]
    exact ⟨(final, rest), hrest, rfl⟩
  · rintro ⟨⟨final', records⟩, hsteps, h⟩
    cases h
    exact ⟨records, ⟨trivial, records, hsteps, rfl⟩, rfl⟩

end

end FabricEvolution
