import FabricEvolution.Migration.Document
import FabricEvolution.Lib.ListUpdate

/-!
# Declared migration steps and the forward migrator

* `MigrationStepSpec` : one declared step; `resolveMigrationStep` finds the built-in transformation it names;
* `applyForward` : the transformation on a document;
* `migrateForward` : a whole path, the document unchanged on failure;
* `MigrationJournal` : the bounded record of applied steps.

The digest of a JSON value is the parameter `digestOf`: the hash of its canonical text.
-/

namespace FabricEvolution
open Lib

def maxMigrationArgumentBytes : Nat := 4096

/-! ## Declared steps -/

/-- One declared state-migration step; `function` names a built-in deterministic transformation. -/
structure MigrationStepSpec where
  id : MigrationStepId
  source : Nat
  target : Nat
  function : String
  parameters : Json := .object []
  deterministic : Bool := true
  reversible : Bool := true
  irreversibleBoundary : Bool := false
  evidenceDigest : Digest := .zero
  description : String := ""

namespace MigrationStepSpec

/-- `source` and `target` are the members `from` and `to`. -/
def toJson (step : MigrationStepSpec) : Json :=
  (Json.object []).set "id" (.string step.id.str)
    |>.set "from" (.uint step.source)
    |>.set "to" (.uint step.target)
    |>.set "function" (.string step.function)
    |>.set "parameters" step.parameters
    |>.set "deterministic" (.bool step.deterministic)
    |>.set "reversible" (.bool step.reversible)
    |>.set "irreversible_boundary" (.bool step.irreversibleBoundary)
    |>.set "evidence_digest" (.string step.evidenceDigest.toHex)
    |>.set "description" (.string step.description)

end MigrationStepSpec

inductive MigrationOpKind where
  | identity | addField | renameField | removeField | wrapValue | unwrapValue | lowercaseField
deriving DecidableEq

namespace MigrationOpKind

def name : MigrationOpKind → String
  | identity => "identity"
  | addField => "add_field"
  | renameField => "rename_field"
  | removeField => "remove_field"
  | wrapValue => "wrap_value"
  | unwrapValue => "unwrap_value"
  | lowercaseField => "lowercase_field"

/-- The built-in transformation a step names. -/
def fromFunction (function : String) : Option MigrationOpKind :=
  [identity, addField, renameField, removeField, wrapValue, unwrapValue, lowercaseField].find?
    (·.name = function)

end MigrationOpKind

/-- A step with the transformation it names and its arguments. -/
structure ResolvedMigration where
  spec : MigrationStepSpec
  kind : MigrationOpKind
  args : List (String × String)

/-- How the refusals of a step begin. -/
def MigrationStepSpec.title (spec : MigrationStepSpec) : String := "migration step " ++ spec.id.str

def readArg (spec : MigrationStepSpec) (entry : String × Json) : Result (String × String) :=
  match entry.2.tryString with
  | none => .error (.plain .unsupported (spec.title ++ " parameter '" ++ entry.1 ++ "' must be a string"))
  | some value =>
    if entry.1.length > maxStateKeyBytes ∨ value.length > maxMigrationArgumentBytes then
      .error (.plain .boundsExceeded (spec.title ++ " parameter '" ++ entry.1 ++ "' exceeds the permitted size"))
    else .ok (entry.1, value)

def readArgs (spec : MigrationStepSpec) : Result (List (String × String)) :=
  match spec.parameters with
  | .object members => members.mapM (readArg spec)
  | .null => .ok []
  | _ => .error (.plain .unsupported (spec.title ++ " parameters must be an object"))

def resolveMigrationStep (spec : MigrationStepSpec) : Result ResolvedMigration := do
  let args ← readArgs spec
  let kind ← orRefuse (MigrationOpKind.fromFunction spec.function) ⟨.unsupported, "unknown migration function: " ++ spec.function,
    .ofPairs [("step", .string spec.id.str)]⟩
  refuseUnless spec.deterministic (.plain .unsupported (spec.title ++ " is declared non-deterministic"))
  return ⟨spec, kind, args⟩

/-! ## The transformations -/

namespace ResolvedMigration
variable (resolved : ResolvedMigration)

def requireArg (name : String) : Result String :=
  match assocFind name resolved.args with
  | none => .error (.plain .unsupported (resolved.spec.title ++ " requires argument '" ++ name ++ "'"))
  | some value =>
    if value = "" then
      .error (.plain .unsupported (resolved.spec.title ++ " requires argument '" ++ name ++ "'"))
    else .ok value

def argumentIsTrue (name : String) : Bool :=
  match assocFind name resolved.args with
  | none => false
  | some value => value = "true" || value = "1"

/-- A step may declare its field optional; otherwise an absent field is a failure. -/
def fieldIsOptional : Bool := resolved.argumentIsTrue "optional"

/-- The refusal of a step that does not find what the manifest promised. -/
def failure (what key : String) : Status :=
  .plain .migrationFailure (resolved.spec.title ++ " " ++ what ++ key)

end ResolvedMigration

/-- A text without a prefix and a suffix it carries. -/
def stripFraming (prefixText suffixText text : String) : Option String :=
  if text.length < prefixText.length + suffixText.length then none
  else if prefixText.toList.isPrefixOf text.toList = false then none
  else if suffixText.toList.isSuffixOf text.toList = false then none
  else some (String.ofList ((text.toList.drop prefixText.length).take
    (text.length - prefixText.length - suffixText.length)))

def lowerChar (c : Char) : Char := if 'A' ≤ c ∧ c ≤ 'Z' then Char.ofNat (c.toNat - 'A'.toNat + 'a'.toNat) else c

def lowercase (text : String) : String := String.ofList (text.toList.map lowerChar)

def applyForward (resolved : ResolvedMigration) (document : StateDocument) : Result StateDocument :=
  match resolved.kind with
  | .identity => .ok document
  | .addField => do
    let key ← resolved.requireArg "key"
    let value ← resolved.requireArg "value"
    document.put key value
  | .renameField => do
    let source ← resolved.requireArg "from"
    let target ← resolved.requireArg "to"
    match document.get source with
    | none =>
      if resolved.fieldIsOptional then return document
      else .error (resolved.failure "cannot rename a field that is absent: " source)
    | some value =>
      if document.contains target then
        .error (resolved.failure "would overwrite an existing field: " target)
      else do
        let renamed ← document.put target value
        renamed.remove source
  | .removeField => do
    let key ← resolved.requireArg "key"
    if document.contains key then document.remove key
    else if resolved.fieldIsOptional then return document
    else .error (resolved.failure "cannot remove a field that is absent: " key)
  | .wrapValue => do
    let key ← resolved.requireArg "key"
    let prefixText ← resolved.requireArg "prefix"
    let suffixText ← resolved.requireArg "suffix"
    match document.get key with
    | none =>
      if resolved.fieldIsOptional then return document
      else .error (resolved.failure "cannot wrap a field that is absent: " key)
    | some value => document.put key (prefixText ++ value ++ suffixText)
  | .unwrapValue => do
    let key ← resolved.requireArg "key"
    let prefixText ← resolved.requireArg "prefix"
    let suffixText ← resolved.requireArg "suffix"
    match document.get key with
    | none => .error (resolved.failure "cannot unwrap a field that is absent: " key)
    | some value =>
      match stripFraming prefixText suffixText value with
      | none => .error (resolved.failure "cannot unwrap a field whose value lacks the expected framing: " key)
      | some unwrapped => document.put key unwrapped
  | .lowercaseField => do
    let key ← resolved.requireArg "key"
    match document.get key with
    | none => .error (resolved.failure "cannot lowercase a field that is absent: " key)
    | some value => document.put key (lowercase value)

/-! ## Paths -/

structure MigrationStepRecord where
  step : MigrationStepId
  source : Nat
  target : Nat
  stateDigestBefore : Digest
  stateDigestAfter : Digest
  evidenceDigest : Digest
  irreversibleBoundary : Bool

structure MigrationOutcome where
  source : Nat
  target : Nat
  steps : List MigrationStepRecord
  stateDigestBefore : Digest
  stateDigestAfter : Digest
  crossedIrreversibleBoundary : Bool
  irreversibleBoundariesCrossed : List MigrationStepId

section Migrator
variable (digestOf : Json → Digest)

def StateDocument.digest (document : StateDocument) : Digest := digestOf document.toJson

/-- The evidence of a step commits to the step without its evidence, and to the state it is applied to. -/
def migrationEvidenceDigest (spec : MigrationStepSpec) (stateDigestBefore : Digest) : Digest :=
  let declarative := { spec with evidenceDigest := .zero }
  digestOf ((Json.object []).set "step" declarative.toJson
    |>.set "state_digest_before" (.string stateDigestBefore.toHex))

/-- One step of the loop of `migrate_forward`; the loop's `current` is the schema of `working`. -/
def migrateStep (working : StateDocument) (spec : MigrationStepSpec) :
    Result (StateDocument × MigrationStepRecord) := do
  refuseUnless (spec.source = working.schema)
    ⟨.migrationFailure, "migration path is not contiguous at step " ++ spec.id.str,
      .ofPairs [("expected_from", .uint working.schema), ("step_from", .uint spec.source)]⟩
  let resolved ← resolveMigrationStep spec
  let before := working.digest digestOf
  let expected := migrationEvidenceDigest digestOf spec before
  refuseUnless (spec.evidenceDigest.isZero || expected = spec.evidenceDigest)
    ⟨.integrityFailure, spec.title ++ " evidence does not bind to the state it was applied to",
      .ofPairs [("declared", .string spec.evidenceDigest.toHex), ("computed", .string expected.toHex),
        ("state_digest_before", .string before.toHex)]⟩
  let applied ← applyForward resolved working
  let migrated ← applied.setSchema spec.target
  return (migrated,
    { step := spec.id, source := spec.source, target := spec.target, stateDigestBefore := before,
      stateDigestAfter := migrated.digest digestOf, evidenceDigest := spec.evidenceDigest,
      irreversibleBoundary := spec.irreversibleBoundary })

/-- Every step in order. -/
def migrateSteps : StateDocument → List MigrationStepSpec → Result (StateDocument × List MigrationStepRecord)
  | working, [] => .ok (working, [])
  | working, spec :: path => do
    let (migrated, record) ← migrateStep digestOf working spec
    let (final, records) ← migrateSteps migrated path
    return (final, record :: records)

def migrateForward (document : StateDocument) (path : List MigrationStepSpec) :
    Result (StateDocument × MigrationOutcome) := do
  let (final, records) ← migrateSteps digestOf document path
  return (final,
    { source := document.schema, target := final.schema, steps := records,
      stateDigestBefore := document.digest digestOf, stateDigestAfter := final.digest digestOf,
      crossedIrreversibleBoundary := records.any (·.irreversibleBoundary)
      irreversibleBoundariesCrossed := (records.filter (·.irreversibleBoundary)).map (·.step) })

/-- The records of a path are those of its steps. -/
theorem migrateSteps_records {working final : StateDocument} {path : List MigrationStepSpec}
    {records : List MigrationStepRecord} (h : migrateSteps digestOf working path = .ok (final, records)) :
    records.map (fun record => (record.step, record.irreversibleBoundary)) =
      path.map fun spec => (spec.id, spec.irreversibleBoundary) := by
  induction path generalizing working records with
  | nil =>
    cases h
    rfl
  | cons spec path ih =>
    obtain ⟨⟨migrated, record⟩, hstep, h⟩ := Result.bind_eq_ok.mp h
    obtain ⟨⟨final', records'⟩, hrest, h⟩ := Result.bind_eq_ok.mp h
    cases h
    have hrecord : record.step = spec.id ∧ record.irreversibleBoundary = spec.irreversibleBoundary := by
      unfold migrateStep at hstep
      obtain ⟨_, _, hstep⟩ := Result.bind_eq_ok.mp hstep
      obtain ⟨_, _, hstep⟩ := Result.bind_eq_ok.mp hstep
      obtain ⟨_, _, hstep⟩ := Result.bind_eq_ok.mp hstep
      obtain ⟨_, _, hstep⟩ := Result.bind_eq_ok.mp hstep
      obtain ⟨_, _, hstep⟩ := Result.bind_eq_ok.mp hstep
      cases hstep
      exact ⟨rfl, rfl⟩
    simp only [List.map_cons, hrecord.1, hrecord.2, ih hrest]

/-- The boundaries a migration crossed are those of its path. -/
theorem migrateForward_boundaries {document migrated : StateDocument} {path : List MigrationStepSpec}
    {outcome : MigrationOutcome} (h : migrateForward digestOf document path = .ok (migrated, outcome)) :
    outcome.crossedIrreversibleBoundary = path.any (·.irreversibleBoundary) ∧
      outcome.irreversibleBoundariesCrossed = (path.filter (·.irreversibleBoundary)).map (·.id) := by
  obtain ⟨⟨final, records⟩, hsteps, h⟩ := Result.bind_eq_ok.mp h
  cases h
  have hrecords := migrateSteps_records digestOf hsteps
  constructor
  · have := congrArg (List.any · Prod.snd) hrecords
    simpa only [List.any_map, Function.comp_def] using this
  · have := congrArg (fun l => (l.filter Prod.snd).map Prod.fst) hrecords
    simpa only [List.filter_map, List.map_map, Function.comp_def] using this

end Migrator

/-! ## The journal of applied steps -/

structure MigrationJournalRecord where
  shard : ShardId
  component : ComponentId
  step : MigrationStepId
  source : Nat
  target : Nat
  stateDigestAfter : Digest
  appliedAtMs : Nat
  irreversibleBoundary : Bool

structure MigrationJournal where
  records : List MigrationJournalRecord := []
  capacity : Nat := 1024

def MigrationJournal.record (journal : MigrationJournal) (entry : MigrationJournalRecord) : Result MigrationJournal :=
  if !entry.shard.isValid ∨ !entry.component.isValid ∨ !entry.step.isValid then
    .error (invalidArgument "migration journal entry identities must be valid")
  else if entry.source = 0 ∨ entry.target = 0 then
    .error (invalidArgument "migration journal entry schema versions must be valid")
  else .ok { journal with records := pushBounded journal.capacity journal.records entry }

end FabricEvolution
