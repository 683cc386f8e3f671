import FabricEvolution.Manifest.Features

/-!
# Compatibility decisions

* `CompatibilityDecision` : a decision of the compatibility registry with the digest it is bound by;
* `CompatibilityDecision.toJson`, `compatibilityDecisionFromJson` : its wire form; a decision is verified or sealed as it is
  read;
* `decide`, `verifyEvidence` : the registry's decision for a pair, and the check of a declared decision against it.

The digest of a JSON value is the parameter `digestOf`.
-/

namespace FabricEvolution
open Lib

inductive CompatibilityVerdict where
  | unsupported | supportedWithConstraints | supported
deriving DecidableEq

namespace CompatibilityVerdict

def name : CompatibilityVerdict → String
  | unsupported => "unsupported"
  | supportedWithConstraints => "supported_with_constraints"
  | supported => "supported"

def fromName (text : String) : Option CompatibilityVerdict :=
  if text = "unsupported" then some unsupported
  else if text = "supported_with_constraints" then some supportedWithConstraints
  else if text = "supported" then some supported
  else none

theorem fromName_name (verdict : CompatibilityVerdict) : fromName verdict.name = some verdict := by
  cases verdict <;> decide

end CompatibilityVerdict

structure CompatibilityConstraint where
  name : String
  value : String
deriving DecidableEq

structure CompatibilityDecision where
  decisionId : String
  registry : String
  subject : ComponentId
  source : SoftwareVersion
  target : SoftwareVersion
  sourceProtocol : ProtocolVersion
  targetProtocol : ProtocolVersion
  sourceSchema : Nat
  targetSchema : Nat
  verdict : CompatibilityVerdict := .unsupported
  rollbackPermitted : Bool := false
  maxMixedVersionOperations : Nat := 0
  maxMixedVersionMs : Nat := 0
  /-- What the registry certifies as mutually supported across the mixed-version window. -/
  certifiedFeatures : FeatureSet := .none
  constraints : List CompatibilityConstraint := []
  decidedAt : Nat := 0
  evidenceDigest : Digest := .zero
deriving DecidableEq

/-! ## The wire form -/

def CompatibilityConstraint.toJson (entry : CompatibilityConstraint) : Json :=
  .ofPairs [("name", .string entry.name), ("value", .string entry.value)]

def compatibilityConstraintFromJson (value : Json) : Result CompatibilityConstraint :=
  match jsonString value "name", jsonString value "value" with
  | some name, some text => return ⟨name, text⟩
  | _, _ => .error (malformed "compatibility decision constraint entries need name and value")

/-- A schema version in range. -/
def jsonSchema (value : Json) (key : String) : Option Nat :=
  (jsonU64 value key).filter fun schema => schema ≠ 0 && schema ≤ maxU32

namespace CompatibilityDecision
variable (digestOf : Json → Digest) (decision : CompatibilityDecision)

/-- The members that `compute_digest` hashes. -/
def content : Json :=
  (Json.object []).set "decision_id" (.string decision.decisionId)
    |>.set "registry" (.string decision.registry)
    |>.set "subject" (.string decision.subject.str)
    |>.set "source" (.string decision.source.toString)
    |>.set "target" (.string decision.target.toString)
    |>.set "source_protocol" (.string decision.sourceProtocol.toString)
    |>.set "target_protocol" (.string decision.targetProtocol.toString)
    |>.set "source_schema" (.uint decision.sourceSchema)
    |>.set "target_schema" (.uint decision.targetSchema)
    |>.set "verdict" (.string decision.verdict.name)
    |>.set "rollback_permitted" (.bool decision.rollbackPermitted)
    |>.set "max_mixed_version_operations" (.uint decision.maxMixedVersionOperations)
    |>.set "max_mixed_version_ms" (.uint decision.maxMixedVersionMs)
    |>.set "certified_features" decision.certifiedFeatures.toJson
    |>.set "constraints" (.array (decision.constraints.map CompatibilityConstraint.toJson))
    |>.set "decided_at" (.uint decision.decidedAt)

def computeDigest : Digest := digestOf decision.content

def sealed : CompatibilityDecision := { decision with evidenceDigest := decision.computeDigest digestOf }

def verifyDigest : Result Unit :=
  refuseUnless (decision.computeDigest digestOf = decision.evidenceDigest)
    ⟨.integrityFailure, "compatibility decision evidence digest mismatch",
      .ofPairs [("recorded", .string decision.evidenceDigest.toHex),
        ("recomputed", .string (decision.computeDigest digestOf).toHex)]⟩

def toJson : Json :=
  (Json.object []).set "decision_id" (.string decision.decisionId)
    |>.set "registry" (.string decision.registry)
    |>.set "subject" (.string decision.subject.str)
    |>.set "source" (.string decision.source.toString)
    |>.set "target" (.string decision.target.toString)
    |>.set "source_protocol" (.string decision.sourceProtocol.toString)
    |>.set "target_protocol" (.string decision.targetProtocol.toString)
    |>.set "source_schema" (.uint decision.sourceSchema)
    |>.set "target_schema" (.uint decision.targetSchema)
    |>.set "verdict" (.string decision.verdict.name)
    |>.set "rollback_permitted" (.bool decision.rollbackPermitted)
    |>.set "max_mixed_version_operations" (.uint decision.maxMixedVersionOperations)
    |>.set "max_mixed_version_ms" (.uint decision.maxMixedVersionMs)
    |>.set "certified_features" decision.certifiedFeatures.toJson
    |>.set "constraints" (.array (decision.constraints.map CompatibilityConstraint.toJson))
    |>.set "decided_at" (.uint decision.decidedAt)
    |>.set "evidence_digest" (.string decision.evidenceDigest.toHex)

end CompatibilityDecision

/-- The elements of an optional array member, each read by `read`. -/
def readMember {α : Type} (value : Json) (key notArray : String) (read : Json → Result α) : Result (List α) :=
  match value.find key with
  | none => return []
  | some (.array values) => values.mapM read
  | some _ => .error (malformed notArray)

def certifiedFeaturesFromJson (value : Json) : Result FeatureSet :=
  match value.find "certified_features" with
  | none => return .none
  | some (.array values) => featuresOfArray values "compatibility decision certified_features entries must be strings"
  | some _ => .error (malformed "compatibility decision certified_features must be an array")

def requireU64 (value : Json) (key : String) : Result Nat :=
  orRefuse (jsonU64 value key)
    (malformed ("compatibility decision field '" ++ key ++ "' must be a non-negative integer"))

/-- Both of two optional values. -/
def both {α β : Type} (first : Option α) (second : Option β) : Option (α × β) := first.bind fun a => second.map (a, ·)

def compatibilityDecisionFromJson (digestOf : Json → Digest) (value : Json) : Result CompatibilityDecision := do
  refuseUnless value.isObject (malformed "compatibility decision must be an object")
  let decisionId ← orRefuse ((jsonString value "decision_id").filter (· ≠ ""))
    (malformed "compatibility decision is missing decision_id")
  let subjectText ← orRefuse (jsonString value "subject") (malformed "compatibility decision is missing subject")
  let subject ← orRefuse (TaggedName.parse subjectText)
    (malformed ("compatibility decision subject is invalid: " ++ subjectText))
  let (sourceText, targetText) ← orRefuse (both (jsonString value "source") (jsonString value "target"))
    (malformed "compatibility decision must name source and target software versions")
  let (source, target) ← orRefuse (both (SoftwareVersion.parse sourceText) (SoftwareVersion.parse targetText))
    (malformed "compatibility decision software versions are invalid")
  let (sourceProtocolText, targetProtocolText) ←
    orRefuse (both (jsonString value "source_protocol") (jsonString value "target_protocol"))
      (malformed "compatibility decision must name source and target protocol versions")
  let (sourceProtocol, targetProtocol) ←
    orRefuse (both (ProtocolVersion.parse sourceProtocolText) (ProtocolVersion.parse targetProtocolText))
      (malformed "compatibility decision protocol versions are invalid")
  let _ ← orRefuse (both (jsonU64 value "source_schema") (jsonU64 value "target_schema"))
    (malformed "compatibility decision must name source and target schema versions")
  let (sourceSchema, targetSchema) ←
    orRefuse (both (jsonSchema value "source_schema") (jsonSchema value "target_schema"))
      (malformed "compatibility decision schema versions are out of range")
  let verdictText ← orRefuse (jsonString value "verdict") (malformed "compatibility decision is missing verdict")
  let verdict ← orRefuse (CompatibilityVerdict.fromName verdictText)
    (malformed ("compatibility decision verdict is invalid: " ++ verdictText))
  let maxMixedVersionOperations ← requireU64 value "max_mixed_version_operations"
  let maxMixedVersionMs ← requireU64 value "max_mixed_version_ms"
  let certifiedFeatures ← certifiedFeaturesFromJson value
  let constraints ← readMember value "constraints" "compatibility decision constraints must be an array"
    compatibilityConstraintFromJson
  let decision : CompatibilityDecision := {
    decisionId, subject, source, target, sourceProtocol, targetProtocol, sourceSchema, targetSchema, verdict,
    maxMixedVersionOperations, maxMixedVersionMs, certifiedFeatures, constraints
    registry := jsonStringOr value "registry" "fabric-compatibility-registry"
    rollbackPermitted := jsonBoolOr value "rollback_permitted" false
    decidedAt := jsonU64Or value "decided_at" 1 }
  match jsonString value "evidence_digest" with
  | none => return decision.sealed digestOf
  | some digestText =>
    let evidenceDigest ← orRefuse (Digest.fromHex digestText)
      (malformed "compatibility decision evidence_digest is not a sha256 hex digest")
    let decision := { decision with evidenceDigest := evidenceDigest }
    decision.verifyDigest digestOf
    return decision

/-! ## Evidence -/

/-- The content of a registry, in the order of its decisions. -/
abbrev CompatibilityRegistry := List CompatibilityDecision

namespace CompatibilityRegistry

/-- The first decision that covers the component and the pair of versions. -/
def decide (registry : CompatibilityRegistry) (subject : ComponentId) (source target : SoftwareVersion) :
    Result CompatibilityDecision :=
  orRefuse (registry.find? fun decision => decision.subject = subject && decision.source = source && decision.target = target)
    ⟨.compatibilityInsufficient, "no compatibility decision covers this component and version pair",
      .ofPairs [("subject", .string subject.str), ("source", .string source.toString), ("target", .string target.toString)]⟩

end CompatibilityRegistry

/-- How strictly embedded evidence must match the decision of the registry. -/
inductive EvidencePolicy where
  | requireExactMatch
  /-- A refreshed decision is accepted when the verdict is the same. -/
  | allowRefreshIfVerdictUnchanged
deriving DecidableEq

def Digest.toShortHex (digest : Digest) : String := String.ofList (digest.toHex.toList.take 16)

structure EvidenceCheck where
  satisfied : Bool := false
  refreshed : Bool := false
  effective : CompatibilityDecision
  rationale : String
  differences : List String := []

def verifyEvidence (declared : CompatibilityDecision) (registry : CompatibilityRegistry) (policy : EvidencePolicy) :
    EvidenceCheck :=
  match registry.decide declared.subject declared.source declared.target with
  | .error refusal =>
    { effective := declared
      rationale := "compatibility registry has no decision for this pair: " ++ refusal.message }
  | .ok fresh =>
    if fresh.evidenceDigest = declared.evidenceDigest then
      { satisfied := true, effective := fresh, rationale := "registry evidence matches the manifest digest exactly" }
    else
      let verdicts := if fresh.verdict = declared.verdict then []
        else ["verdict " ++ declared.verdict.name ++ " -> " ++ fresh.verdict.name]
      let differences := verdicts ++
        ["evidence digest " ++ declared.evidenceDigest.toShortHex ++ " -> " ++ fresh.evidenceDigest.toShortHex]
      if policy = .requireExactMatch then
        { effective := declared, differences := differences
          rationale := "registry evidence has moved on and the policy requires an exact match" }
      else if fresh.verdict = declared.verdict then
        { satisfied := true, refreshed := true, effective := fresh, differences := differences
          rationale := "registry evidence was refreshed but the verdict is unchanged" }
      else
        { effective := declared, differences := differences
          rationale := "registry evidence was refreshed and the verdict changed" }

end FabricEvolution
