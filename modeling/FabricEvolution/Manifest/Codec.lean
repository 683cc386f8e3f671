import FabricEvolution.Manifest.Manifest
import FabricEvolution.Wire.Equal

/-!
# The wire form of a manifest

* `ComponentDocument.toJson`, `MigrationStepSpec.toJson`, `ManifestDocument.toJson` and their decoders; a manifest is verified
  or sealed as it is read;
* `ManifestDocument.content`, `computeDigest`, `sealed`, `verifyDigest` : what the digest binds.

The digest of a JSON value is the parameter `digestOf`.
-/

namespace FabricEvolution
open Lib

/-! ## Components and steps -/

def ComponentDocument.toJson (spec : ComponentDocument) : Json :=
  (Json.object []).set "id" (.string spec.id.str)
    |>.set "software" (.string spec.software.toString)
    |>.set "protocol" (.string spec.protocol.toString)
    |>.set "schema" (.uint spec.schema)
    |>.set "features" spec.features.toJson
    |>.set "artifact_digest" (.string spec.artifactDigest.toHex)
    |>.set "host" (.string spec.host)
    |>.set "port" (.uint spec.port)

/-- A digest in hex under `key`; unset when absent. -/
def digestMember (value : Json) (key : String) (refusal : Status) : Result Digest :=
  match jsonString value key with
  | none => return .zero
  | some text => orRefuse (Digest.fromHex text) refusal

def componentSpecFromJson (value : Json) : Result ComponentDocument := do
  refuseUnless value.isObject (malformed "component spec must be an object")
  let idText ← orRefuse (jsonString value "id") (malformed "component spec is missing id")
  let id ← orRefuse (TaggedName.parse idText) (malformed ("component spec id is invalid: " ++ idText))
  let softwareText ← orRefuse (jsonString value "software") (malformed "component spec is missing software version")
  let software ← orRefuse (SoftwareVersion.parse softwareText)
    (malformed ("component spec software version is invalid: " ++ softwareText))
  let protocolText ← orRefuse (jsonString value "protocol") (malformed "component spec is missing protocol version")
  let protocol ← orRefuse (ProtocolVersion.parse protocolText)
    (malformed ("component spec protocol version is invalid: " ++ protocolText))
  let schema ← orRefuse (jsonSchema value "schema") (malformed "component spec schema version is missing or out of range")
  let features ← featuresMember value "features" "component spec features"
  let artifactDigest ← digestMember value "artifact_digest"
    (malformed "component spec artifact_digest is not a sha256 hex digest")
  let host ← orRefuse ((jsonString value "host").filter (· ≠ "")) (malformed "component spec is missing host")
  let port ← orRefuse ((jsonU64 value "port").filter fun port => port ≠ 0 && port ≤ 65535)
    (malformed "component spec port is missing or out of range")
  return { id, software, protocol, schema, features, artifactDigest, host, port }

/-- The parameters of a step: an object, empty when absent. -/
def parametersFromJson (value : Json) : Result Json :=
  match value.find "parameters" with
  | none => return .object []
  | some parameters =>
    if parameters.isObject then return parameters
    else .error (malformed "migration step parameters must be an object")

def migrationStepFromJson (value : Json) : Result MigrationStepSpec := do
  refuseUnless value.isObject (malformed "migration step must be an object")
  let idText ← orRefuse (jsonString value "id") (malformed "migration step is missing id")
  let id ← orRefuse (TaggedName.parse idText) (malformed ("migration step id is invalid: " ++ idText))
  let (source, target) ← orRefuse (both (jsonSchema value "from") (jsonSchema value "to"))
    (malformed "migration step schema versions are missing or out of range")
  let function ← orRefuse ((jsonString value "function").filter (· ≠ "")) (malformed "migration step is missing function")
  let parameters ← parametersFromJson value
  let evidenceDigest ← digestMember value "evidence_digest"
    (malformed "migration step evidence_digest is not a sha256 hex digest")
  return {
    id, source, target, function, parameters, evidenceDigest
    deterministic := jsonBoolOr value "deterministic" true
    reversible := jsonBoolOr value "reversible" true
    irreversibleBoundary := jsonBoolOr value "irreversible_boundary" false
    description := jsonStringOr value "description" "" }

/-! ## The manifest -/

def WindowDocument.toJson (window : WindowDocument) : Json :=
  (Json.object []).set "max_duration_ms" (.uint window.maxDurationMs)
    |>.set "max_operations" (.uint window.maxOperations)
    |>.set "min_participants" (.uint window.minParticipants)
    |>.set "require_read_only_shared_phase" (.bool window.requireReadOnlySharedPhase)

def ProtocolPath.toJson (path : ProtocolPath) : Json :=
  (Json.object []).set "accepted" (.array (path.accepted.map fun version => .string version.toString))
    |>.set "required_features" path.requiredFeatures.toJson
    |>.set "allowed_features" path.allowedFeatures.toJson

def RollbackStrategy.toJson (rollback : RollbackStrategy) : Json :=
  (Json.object []).set "kind" (.string rollback.kind.name)
    |>.set "recovery_plan" (.string rollback.recoveryPlan)
    |>.set "declared_irreversible_boundaries"
      (.array (rollback.declaredIrreversibleBoundaries.map fun boundary => .string boundary.str))

namespace ManifestDocument
variable (digestOf : Json → Digest) (manifest : ManifestDocument)

/-- The members that `compute_digest` hashes. -/
def content : Json :=
  (Json.object []).set "id" (.string manifest.id.str)
    |>.set "campaign" (.string manifest.campaign.str)
    |>.set "shard" (.string manifest.shard.str)
    |>.set "revision" (.uint manifest.revision)
    |>.set "source" manifest.source.toJson
    |>.set "target" manifest.target.toJson
    |>.set "compatibility" manifest.compatibility.toJson
    |>.set "window" manifest.window.toJson
    |>.set "migrations" (.array (manifest.migrations.map MigrationStepSpec.toJson))
    |>.set "protocol" manifest.protocol.toJson
    |>.set "rollback" manifest.rollback.toJson

def computeDigest : Digest := digestOf manifest.content

/-- `seal` validates before it binds. -/
def sealed : Result ManifestDocument := do
  manifest.validate digestOf
  return { manifest with digest := manifest.computeDigest digestOf }

def verifyDigest : Result Unit :=
  refuseUnless (manifest.computeDigest digestOf = manifest.digest)
    ⟨.integrityFailure, "manifest digest mismatch",
      .ofPairs [("recorded", .string manifest.digest.toHex), ("recomputed", .string (manifest.computeDigest digestOf).toHex)]⟩

def toJson : Json :=
  (Json.object []).set "id" (.string manifest.id.str)
    |>.set "campaign" (.string manifest.campaign.str)
    |>.set "shard" (.string manifest.shard.str)
    |>.set "revision" (.uint manifest.revision)
    |>.set "source" manifest.source.toJson
    |>.set "target" manifest.target.toJson
    |>.set "compatibility" manifest.compatibility.toJson
    |>.set "window" manifest.window.toJson
    |>.set "migrations" (.array (manifest.migrations.map MigrationStepSpec.toJson))
    |>.set "protocol" manifest.protocol.toJson
    |>.set "rollback" manifest.rollback.toJson
    |>.set "digest" (.string manifest.digest.toHex)

end ManifestDocument

def windowFromJson (value : Json) : Result WindowDocument := do
  let window ← orRefuse ((value.find "window").filter Json.isObject)
    (malformed "manifest must declare a mixed-version window")
  let minParticipants ← orRefuse
    ((jsonU64 window "min_participants").filter fun participants => participants ≠ 0 && participants ≤ maxU32)
    (malformed "manifest min_participants is missing or out of range")
  return {
    minParticipants
    maxDurationMs := jsonU64Or window "max_duration_ms" 0
    maxOperations := jsonU64Or window "max_operations" 0
    requireReadOnlySharedPhase := jsonBoolOr window "require_read_only_shared_phase" true }

def acceptedVersionFromJson (value : Json) : Result ProtocolVersion := do
  let text ← orRefuse value.tryString (malformed "manifest accepted protocol versions must be strings")
  orRefuse (ProtocolVersion.parse text) (malformed ("manifest accepted protocol version is invalid: " ++ text))

def protocolPathFromJson (value : Json) : Result ProtocolPath := do
  let protocol ← orRefuse ((value.find "protocol").filter Json.isObject) (malformed "manifest must declare a protocol path")
  let values ← orRefuse (((protocol.find "accepted").bind Json.tryArray).filter (· ≠ []))
    (malformed "manifest protocol path must list accepted versions")
  let accepted ← values.mapM acceptedVersionFromJson
  let requiredFeatures ← featuresMember protocol "required_features" "protocol required_features"
  let allowedFeatures ← featuresMember protocol "allowed_features" "protocol allowed_features"
  return { accepted, requiredFeatures, allowedFeatures }

def boundaryFromJson (value : Json) : Result MigrationStepId := do
  let text ← orRefuse value.tryString (malformed "rollback boundaries must be strings")
  orRefuse (TaggedName.parse text) (malformed ("rollback boundary id is invalid: " ++ text))

def rollbackFromJson (value : Json) : Result RollbackStrategy := do
  let rollback ← orRefuse ((value.find "rollback").filter Json.isObject)
    (malformed "manifest must declare a rollback strategy")
  let kindText ← orRefuse (jsonString rollback "kind") (malformed "rollback strategy is missing kind")
  let kind ← orRefuse (RollbackKind.fromName kindText) (malformed ("rollback strategy kind is invalid: " ++ kindText))
  let declaredIrreversibleBoundaries ← readMember rollback "declared_irreversible_boundaries"
    "rollback declared_irreversible_boundaries must be an array" boundaryFromJson
  return { kind, declaredIrreversibleBoundaries, recoveryPlan := jsonStringOr rollback "recovery_plan" "" }

/-- A name under `key`; `what` words the refusals. -/
def manifestName (value : Json) (key what : String) : Result TaggedName := do
  let text ← orRefuse (jsonString value key) (malformed ("manifest is missing " ++ key))
  orRefuse (TaggedName.parse text) (malformed ("manifest " ++ what ++ " is invalid: " ++ text))

def manifestFromJson (digestOf : Json → Digest) (value : Json) : Result ManifestDocument := do
  refuseUnless value.isObject (malformed "manifest must be an object")
  let id ← manifestName value "id" "id"
  let campaign ← manifestName value "campaign" "campaign id"
  let shard ← manifestName value "shard" "shard id"
  let (sourceValue, targetValue) ← orRefuse (both (value.find "source") (value.find "target"))
    (malformed "manifest must declare source and target component specs")
  let source ← componentSpecFromJson sourceValue
  let target ← componentSpecFromJson targetValue
  let compatibilityValue ← orRefuse (value.find "compatibility") (malformed "manifest must embed a compatibility decision")
  let compatibility ← compatibilityDecisionFromJson digestOf compatibilityValue
  let window ← windowFromJson value
  let steps ← orRefuse ((value.find "migrations").bind Json.tryArray) (malformed "manifest must declare a migrations array")
  let migrations ← steps.mapM migrationStepFromJson
  let protocol ← protocolPathFromJson value
  let rollback ← rollbackFromJson value
  let manifest : ManifestDocument := {
    id, campaign, shard, source, target, compatibility, window, migrations, protocol, rollback
    revision := jsonU64Or value "revision" 1 }
  match jsonString value "digest" with
  | none => manifest.sealed digestOf
  | some digestText =>
    let digest ← orRefuse (Digest.fromHex digestText) (malformed "manifest digest is not a sha256 hex digest")
    let manifest := { manifest with digest := digest }
    manifest.verifyDigest digestOf
    return manifest

end FabricEvolution
