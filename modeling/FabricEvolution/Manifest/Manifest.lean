import FabricEvolution.Controller.Campaign
import FabricEvolution.Manifest.Decision

/-!
# The evolution manifest

* `ManifestDocument` : a manifest with all it declares; `ManifestDocument.admitted` : what the controller reads of it;
* `ManifestDocument.migrationPath`, `crossesIrreversibleBoundary` : the steps followed from one schema to another;
* `ManifestDocument.validate` : the structural and cross-field checks of an admission, group by group.
-/

namespace FabricEvolution
open Lib

/-! ## What a manifest declares -/

/-- A component as a manifest declares it. -/
structure ComponentDocument extends ComponentSpec where
  features : FeatureSet := .none
  artifactDigest : Digest := .zero

structure WindowDocument extends MixedVersionWindow where
  minParticipants : Nat := 1
  requireReadOnlySharedPhase : Bool := true

structure ProtocolPath where
  accepted : List ProtocolVersion
  requiredFeatures : FeatureSet := .none
  allowedFeatures : FeatureSet := .none

inductive RollbackKind where
  /-- Safe to return to the source version. -/
  | rollbackToPredecessor
  /-- Rollback until an irreversible boundary is crossed. -/
  | rollbackIfNoBoundaryCrossed
  /-- Rollback is never safe; the campaign must go forward. -/
  | forwardRecoveryOnly
deriving DecidableEq

namespace RollbackKind

def name : RollbackKind → String
  | rollbackToPredecessor => "rollback_to_predecessor"
  | rollbackIfNoBoundaryCrossed => "rollback_if_no_boundary_crossed"
  | forwardRecoveryOnly => "forward_recovery_only"

def fromName (text : String) : Option RollbackKind :=
  if text = "rollback_to_predecessor" then some rollbackToPredecessor
  else if text = "rollback_if_no_boundary_crossed" then some rollbackIfNoBoundaryCrossed
  else if text = "forward_recovery_only" then some forwardRecoveryOnly
  else none

theorem fromName_name (kind : RollbackKind) : fromName kind.name = some kind := by
  cases kind <;> decide

end RollbackKind

structure RollbackStrategy where
  kind : RollbackKind := .rollbackIfNoBoundaryCrossed
  recoveryPlan : String := ""
  declaredIrreversibleBoundaries : List MigrationStepId := []

def RollbackStrategy.declares (rollback : RollbackStrategy) (step : MigrationStepId) : Bool :=
  step ∈ rollback.declaredIrreversibleBoundaries

structure ManifestDocument where
  id : ManifestId
  campaign : CampaignId
  shard : ShardId
  revision : Nat := 1
  source : ComponentDocument
  target : ComponentDocument
  window : WindowDocument := {}
  compatibility : CompatibilityDecision
  migrations : List MigrationStepSpec := []
  protocol : ProtocolPath
  rollback : RollbackStrategy := {}
  digest : Digest := .zero

/-! ## Versions -/

/-- Any part of the version tells it from the default. -/
def SoftwareVersion.isValid (version : SoftwareVersion) : Bool :=
  version.major ≠ 0 || version.minor ≠ 0 || version.patch ≠ 0 || version.build ≠ ""

namespace ProtocolVersion

def isValid (version : ProtocolVersion) : Bool := version.major ≠ 0

def compatibleWith (version other : ProtocolVersion) : Bool := version.major = other.major

/-- The lower minor wins. -/
def negotiate (version other : ProtocolVersion) : ProtocolVersion := ⟨version.major, min version.minor other.minor⟩

end ProtocolVersion

def ProtocolPath.accepts (path : ProtocolPath) (version : ProtocolVersion) : Bool := version ∈ path.accepted

def ComponentDocument.isValid (spec : ComponentDocument) : Bool :=
  spec.id.isValid && spec.software.isValid && spec.protocol.isValid && spec.schema ≠ 0 && spec.host ≠ "" && spec.port ≠ 0

/-! ## Migration paths -/

/-- The first step that starts at `schema`. -/
def stepFrom (migrations : List MigrationStepSpec) (schema : Nat) : Option MigrationStepSpec :=
  migrations.find? (·.source = schema)

/-- The steps followed from `current` to `target`; none when the list has no step on, goes back, or `guard` steps do not do. -/
def followPath (migrations : List MigrationStepSpec) (target : Nat) : Nat → Nat → Option (List MigrationStepSpec)
  | guard, current =>
    if current = target then some []
    else
      match guard with
      | 0 => none
      | guard + 1 =>
        match stepFrom migrations current with
        | none => none
        | some step =>
          if step.target ≤ current then none
          else (followPath migrations target guard step.target).map (step :: ·)

/-- The loop takes one step more than there are. -/
def ManifestDocument.migrationPath (migrations : List MigrationStepSpec) (source target : Nat) : List MigrationStepSpec :=
  if source = target then []
  else if target < source then []
  else (followPath migrations target (migrations.length + 1) source).getD []

def crossesIrreversibleBoundary (migrations : List MigrationStepSpec) (source target : Nat) : Bool :=
  (ManifestDocument.migrationPath migrations source target).any (·.irreversibleBoundary)

/-! ## Validation -/

namespace ManifestDocument

def maxMixedVersionWindowMs : Nat := 30 * 24 * 60 * 60 * 1000
def maxMixedVersionOperations : Nat := 10000000000
def maxMigrationSteps : Nat := 128

variable (digestOf : Json → Digest) (manifest : ManifestDocument)

/-- What the controller reads of an admitted manifest. -/
def admitted : EvolutionManifest :=
  { id := manifest.id, campaign := manifest.campaign, shard := manifest.shard
    source := manifest.source.toComponentSpec, target := manifest.target.toComponentSpec
    window := manifest.window.toMixedVersionWindow
    compatibility := ⟨manifest.compatibility.maxMixedVersionMs, manifest.compatibility.maxMixedVersionOperations⟩
    migrations := manifest.migrations, digest := manifest.digest }

def validateIdentity : Result Unit := do
  refuseUnless manifest.id.isValid (invalidArgument "manifest id is required")
  refuseUnless manifest.campaign.isValid (invalidArgument "manifest campaign id is required")
  refuseUnless manifest.shard.isValid (invalidArgument "manifest shard id is required")
  refuseUnless manifest.source.isValid (invalidArgument "manifest source component spec is incomplete")
  refuseUnless manifest.target.isValid (invalidArgument "manifest target component spec is incomplete")
  refuseUnless (!(manifest.source.id = manifest.target.id && manifest.source.host = manifest.target.host &&
      manifest.source.port = manifest.target.port))
    (invalidArgument "manifest source and target endpoints are identical")
  refuseUnless (manifest.migrations.length ≤ maxMigrationSteps) ⟨.boundsExceeded, "manifest declares too many migration steps",
    .ofPairs [("steps", .uint manifest.migrations.length), ("limit", .uint maxMigrationSteps)]⟩

/-- The embedded evidence: intact, in favour, and about this pair. -/
def validateEvidence : Result Unit := do
  let evidence := manifest.compatibility
  evidence.verifyDigest digestOf
  refuseUnless (evidence.verdict ≠ .unsupported)
    ⟨.compatibilityInsufficient, "compatibility registry marks this version pair unsupported",
      .ofPairs [("decision_id", .string evidence.decisionId)]⟩
  refuseUnless (evidence.subject = manifest.source.id)
    ⟨.compatibilityInsufficient, "compatibility decision subject does not match the manifest source component",
      .ofPairs [("subject", .string evidence.subject.str), ("source", .string manifest.source.id.str)]⟩
  refuseUnless (evidence.source = manifest.source.software && evidence.target = manifest.target.software)
    ⟨.compatibilityInsufficient, "compatibility decision does not cover the manifest software versions",
      .ofPairs [("decision_source", .string evidence.source.toString), ("decision_target", .string evidence.target.toString),
        ("manifest_source", .string manifest.source.software.toString),
        ("manifest_target", .string manifest.target.software.toString)]⟩
  refuseUnless (evidence.sourceProtocol = manifest.source.protocol && evidence.targetProtocol = manifest.target.protocol)
    (.plain .compatibilityInsufficient "compatibility decision does not cover the manifest protocol versions")
  refuseUnless (evidence.sourceSchema = manifest.source.schema && evidence.targetSchema = manifest.target.schema)
    (.plain .compatibilityInsufficient "compatibility decision does not cover the manifest schema versions")

/-- One step, with the identifiers of the steps before it. -/
def validateStep (seen : List MigrationStepId) (step : MigrationStepSpec) : Result Unit := do
  refuseUnless step.id.isValid (invalidArgument "migration step id is required")
  refuseUnless (step.id ∉ seen) (invalidArgument ("duplicate migration step id: " ++ step.id.str))
  refuseUnless (step.function ≠ "") (invalidArgument (step.title ++ " does not name a function"))
  refuseUnless (step.source ≠ 0 && step.target ≠ 0 && step.source < step.target)
    ⟨.malformed, step.title ++ " must advance the schema version",
      .ofPairs [("from", .uint step.source), ("to", .uint step.target)]⟩
  refuseUnless (!(step.irreversibleBoundary && step.reversible))
    (malformed (step.title ++ " is declared both irreversible and reversible"))
  refuseUnless step.deterministic
    ⟨.malformed, step.title ++ " is not deterministic", .ofPairs [("step", .string step.id.str)]⟩
  refuseUnless (!step.irreversibleBoundary || manifest.rollback.declares step.id)
    ⟨.irreversibleBoundary, step.title ++ " is irreversible but the rollback strategy does not declare the boundary",
      .ofPairs [("step", .string step.id.str)]⟩

def validateSteps : List MigrationStepId → List MigrationStepSpec → Result Unit
  | _, [] => return ()
  | seen, step :: rest => do
    manifest.validateStep seen step
    validateSteps (step.id :: seen) rest

def validatePath : Result Unit :=
  if manifest.source.schema ≠ manifest.target.schema then
    refuseUnless (migrationPath manifest.migrations manifest.source.schema manifest.target.schema ≠ [])
      ⟨.migrationFailure, "manifest does not declare a contiguous migration path from source to target schema",
        .ofPairs [("from", .uint manifest.source.schema), ("to", .uint manifest.target.schema)]⟩
  else
    refuseUnless manifest.migrations.isEmpty
      (malformed "manifest declares migration steps but source and target schema are equal")

def crosses : Bool := crossesIrreversibleBoundary manifest.migrations manifest.source.schema manifest.target.schema

def validateRollback : Result Unit := do
  let rollback := manifest.rollback
  refuseUnless (!(rollback.kind = .forwardRecoveryOnly && rollback.recoveryPlan = ""))
    (malformed "forward-recovery-only strategy must describe the recovery plan")
  refuseUnless (!(rollback.kind = .forwardRecoveryOnly && !manifest.crosses))
    (malformed "forward-recovery-only strategy is only permitted when an irreversible boundary is crossed")
  refuseUnless (!(rollback.kind = .rollbackToPredecessor && manifest.crosses)) (.plain .irreversibleBoundary
    "rollback-to-predecessor is declared but the migration path crosses an irreversible boundary")
  rollback.declaredIrreversibleBoundaries.forM fun boundary =>
    refuseUnless (manifest.migrations.any fun step => step.id = boundary && step.irreversibleBoundary)
      (.plain .irreversibleBoundary
        ("rollback strategy declares a boundary that no migration step marks irreversible: " ++ boundary.str))

/-- The refusal that lists the features of a set. -/
def featureRefusal (code : ErrorCode) (message : String) (features : FeatureSet) : Status := ⟨code, message, features.toJson⟩

def validateProtocol : Result Unit := do
  let path := manifest.protocol
  let certified := manifest.compatibility.certifiedFeatures
  refuseUnless (path.accepted ≠ []) (invalidArgument "manifest must declare at least one accepted protocol version")
  refuseUnless (path.accepts manifest.source.protocol)
    (.plain .unsupportedProtocol "manifest protocol path does not accept the source protocol version")
  refuseUnless (path.accepts manifest.target.protocol)
    (.plain .unsupportedProtocol "manifest protocol path does not accept the target protocol version")
  refuseUnless (path.accepted.all fun version =>
      version.compatibleWith manifest.source.protocol && version.compatibleWith manifest.target.protocol)
    (.plain .unsupportedProtocol "manifest protocol path contains a version that is not major-compatible")
  -- The source checks here that the required features contain themselves.
  refuseUnless (path.requiredFeatures.containsAll path.requiredFeatures)
    (invalidArgument "required feature set is self-inconsistent")
  refuseUnless (path.allowedFeatures.containsAll path.requiredFeatures)
    (.plain .featureNotNegotiated "manifest requires features it does not allow")
  let support := manifest.source.features.intersect manifest.target.features
  refuseUnless (support.containsAll path.requiredFeatures) (featureRefusal .featureNotNegotiated
    "manifest requires features that at least one participant does not support" (path.requiredFeatures.without support))
  refuseUnless (certified.containsAll path.requiredFeatures) (featureRefusal .compatibilityInsufficient
    "manifest requires features the compatibility registry has not certified" (path.requiredFeatures.without certified))
  refuseUnless (path.allowedFeatures.without certified).isEmpty (featureRefusal .compatibilityInsufficient
    "manifest allows features the compatibility registry has not certified" (path.allowedFeatures.without certified))

def validateWindow : Result Unit := do
  let window := manifest.window
  let evidence := manifest.compatibility
  let rollback := manifest.rollback
  refuseUnless (window.maxDurationMs ≠ 0)
    (invalidArgument "manifest mixed-version window must have a positive duration bound")
  refuseUnless (window.maxDurationMs ≤ maxMixedVersionWindowMs)
    ⟨.boundsExceeded, "manifest mixed-version window is unreasonably long",
      .ofPairs [("max_duration_ms", .uint window.maxDurationMs), ("limit_ms", .uint maxMixedVersionWindowMs)]⟩
  refuseUnless (window.maxOperations ≠ 0)
    (invalidArgument "manifest mixed-version window must have a positive operation bound")
  refuseUnless (window.maxOperations ≤ maxMixedVersionOperations)
    (.plain .boundsExceeded "manifest mixed-version operation bound is too large")
  refuseUnless (window.minParticipants ≠ 0)
    (invalidArgument "manifest mixed-version window must require at least one participant")
  refuseUnless (!(evidence.verdict = .supported && !evidence.rollbackPermitted && rollback.kind = .rollbackToPredecessor))
    (.plain .compatibilityInsufficient "compatibility registry does not permit rollback for this version pair")
  refuseUnless (!(rollback.kind ≠ .forwardRecoveryOnly && rollback.recoveryPlan = ""))
    (invalidArgument "rollback strategy must describe its recovery plan")

def validate : Result Unit := do
  manifest.validateIdentity
  manifest.validateEvidence digestOf
  manifest.validateSteps [] manifest.migrations
  manifest.validatePath
  manifest.validateRollback
  manifest.validateProtocol
  manifest.validateWindow

end ManifestDocument

end FabricEvolution
