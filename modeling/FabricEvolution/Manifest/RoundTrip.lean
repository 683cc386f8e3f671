import FabricEvolution.Manifest.Codec
import FabricEvolution.Wire.Reading
import FabricEvolution.Wire.VersionText

/-!
# Manifests are read back from their wire form

* `Readable` : what every record that was read satisfies, and what it takes to be read back; for each record a pair
  `readable_of_…FromJson`, `…FromJson_toJson`.
-/

namespace FabricEvolution
open Lib

section
variable {α β : Type}

@[simp] theorem both_some (a : α) (b : β) : both (some a) (some b) = some (a, b) := rfl

theorem both_eq_some {first : Option α} {second : Option β} {pair : α × β} :
    both first second = some pair ↔ first = some pair.1 ∧ second = some pair.2 := by
  obtain ⟨a, b⟩ := pair
  cases first <;> cases second <;> simp [both]

end

/-! ## Decisions -/

structure CompatibilityDecision.Readable (decision : CompatibilityDecision) : Prop where
  decisionId : decision.decisionId ≠ ""
  subject : decision.subject.isValid = true
  source : decision.source.Readable
  target : decision.target.Readable
  sourceProtocol : decision.sourceProtocol.Readable
  targetProtocol : decision.targetProtocol.Readable
  sourceSchema : decision.sourceSchema ≠ 0 ∧ decision.sourceSchema ≤ maxU32
  targetSchema : decision.targetSchema ≠ 0 ∧ decision.targetSchema ≤ maxU32
  certifiedFeatures : decision.certifiedFeatures.Known

theorem jsonSchema_eq {value : Json} {key : String} {schema : Nat} (h : jsonU64 value key = some schema)
    (hschema : schema ≠ 0 ∧ schema ≤ maxU32) : jsonSchema value key = some schema := by
  rw [jsonSchema, h, Option.filter_some, if_pos (by simpa using hschema)]

theorem jsonSchema_range {value : Json} {key : String} {schema : Nat} (h : jsonSchema value key = some schema) :
    schema ≠ 0 ∧ schema ≤ maxU32 := by
  rw [jsonSchema, Option.filter_eq_some_iff] at h
  simpa using h.2

theorem compatibilityConstraintFromJson_toJson (entry : CompatibilityConstraint) :
    compatibilityConstraintFromJson entry.toJson = .ok entry := by
  simp [compatibilityConstraintFromJson, CompatibilityConstraint.toJson, Json.ofPairs, Json.tryString]
  rfl

namespace CompatibilityDecision
variable {digestOf : Json → Digest} {decision : CompatibilityDecision}

theorem known_of_certifiedFeaturesFromJson {value : Json} {features : FeatureSet}
    (h : certifiedFeaturesFromJson value = .ok features) : features.Known := by
  unfold certifiedFeaturesFromJson at h
  split at h
  · cases h
    exact FeatureSet.known_none
  · exact known_of_featuresOfArray h
  · cases h

theorem verifyDigest_eq_ok : decision.verifyDigest digestOf = .ok () ↔ decision.evidenceDigest = decision.computeDigest digestOf := by
  rw [verifyDigest, refuseUnless_eq_ok, decide_eq_true_eq, eq_comm]

theorem verified_bind (h : decision.evidenceDigest = decision.computeDigest digestOf) :
    (decision.verifyDigest digestOf >>= fun _ => (pure decision : Result CompatibilityDecision)) = .ok decision := by
  rw [verifyDigest_eq_ok.mpr h]
  rfl

/-- A readable decision under its digest is read back. -/
theorem fromJson_toJson (h : decision.Readable) (hdigest : decision.evidenceDigest = decision.computeDigest digestOf) :
    compatibilityDecisionFromJson digestOf decision.toJson = .ok decision := by
  have hobject : decision.toJson.isObject = true := by simp [toJson]
  have hid : jsonString decision.toJson "decision_id" = some decision.decisionId := by simp [toJson, Json.tryString]
  have hsubject : jsonString decision.toJson "subject" = some decision.subject.str := by simp [toJson, Json.tryString]
  have hsource : jsonString decision.toJson "source" = some decision.source.toString := by simp [toJson, Json.tryString]
  have htarget : jsonString decision.toJson "target" = some decision.target.toString := by simp [toJson, Json.tryString]
  have hsourceProtocol : jsonString decision.toJson "source_protocol" = some decision.sourceProtocol.toString := by
    simp [toJson, Json.tryString]
  have htargetProtocol : jsonString decision.toJson "target_protocol" = some decision.targetProtocol.toString := by
    simp [toJson, Json.tryString]
  have hsourceSchema : jsonU64 decision.toJson "source_schema" = some decision.sourceSchema := by simp [toJson, Json.tryU64]
  have htargetSchema : jsonU64 decision.toJson "target_schema" = some decision.targetSchema := by simp [toJson, Json.tryU64]
  have hverdict : jsonString decision.toJson "verdict" = some decision.verdict.name := by simp [toJson, Json.tryString]
  have hoperations : jsonU64 decision.toJson "max_mixed_version_operations" = some decision.maxMixedVersionOperations := by
    simp [toJson, Json.tryU64]
  have hms : jsonU64 decision.toJson "max_mixed_version_ms" = some decision.maxMixedVersionMs := by simp [toJson, Json.tryU64]
  have hfeatures : certifiedFeaturesFromJson decision.toJson = .ok decision.certifiedFeatures := by
    have hmember : decision.toJson.find "certified_features" = some decision.certifiedFeatures.toJson := by simp [toJson]
    rw [certifiedFeaturesFromJson, hmember]
    exact featuresOfArray_toJson h.certifiedFeatures _
  have hconstraints : readMember decision.toJson "constraints" "compatibility decision constraints must be an array"
      compatibilityConstraintFromJson = .ok decision.constraints := by
    have hmember : decision.toJson.find "constraints" =
        some (.array (decision.constraints.map CompatibilityConstraint.toJson)) := by simp [toJson]
    rw [readMember, hmember]
    exact mapM_read fun entry _ => compatibilityConstraintFromJson_toJson entry
  have hregistry : jsonStringOr decision.toJson "registry" "fabric-compatibility-registry" = decision.registry := by
    simp [jsonStringOr, toJson, Json.tryString]
  have hrollback : jsonBoolOr decision.toJson "rollback_permitted" false = decision.rollbackPermitted := by
    simp [jsonBoolOr, toJson, Json.tryBool]
  have hdecided : jsonU64Or decision.toJson "decided_at" 1 = decision.decidedAt := by simp [jsonU64Or, toJson, Json.tryU64]
  have hevidence : jsonString decision.toJson "evidence_digest" = some decision.evidenceDigest.toHex := by
    simp [toJson, Json.tryString]
  have hnonempty : (some decision.decisionId).filter (· ≠ "") = some decision.decisionId := by simp [h.decisionId]
  unfold compatibilityDecisionFromJson
  simp only [hobject, refuseUnless_true, Result.ok_bind, hid, hnonempty, orRefuse_some, hsubject, TaggedName.parse_str h.subject,
    hsource, htarget, both_some, SoftwareVersion.parse_toString h.source, SoftwareVersion.parse_toString h.target,
    hsourceProtocol, htargetProtocol, ProtocolVersion.parse_toString h.sourceProtocol,
    ProtocolVersion.parse_toString h.targetProtocol, hsourceSchema, htargetSchema, jsonSchema_eq hsourceSchema h.sourceSchema,
    jsonSchema_eq htargetSchema h.targetSchema, hverdict, CompatibilityVerdict.fromName_name, requireU64, hoperations, hms,
    hfeatures, hconstraints, hregistry, hrollback, hdecided, hevidence, Digest.fromHex_toHex]
  exact verified_bind hdigest

/-- A decision that was read is readable, under its digest. -/
theorem readable_of_fromJson {value : Json} (h : compatibilityDecisionFromJson digestOf value = .ok decision) :
    decision.Readable ∧ decision.evidenceDigest = decision.computeDigest digestOf := by
  unfold compatibilityDecisionFromJson at h
  simp only [Result.bind_eq_ok, orRefuse_eq_ok, both_eq_some, Prod.exists, Option.filter_eq_some_iff] at h
  obtain ⟨_, -, id, ⟨-, hid⟩, _, -, subject, hsubject, _, _, -, source, target, ⟨hsource, htarget⟩, _, _, -, sourceProtocol,
    targetProtocol, ⟨hsourceProtocol, htargetProtocol⟩, _, _, -, sourceSchema, targetSchema, ⟨hsourceSchema, htargetSchema⟩,
    _, -, verdict, -, operations, -, ms, -, features, hfeatures, constraints, -, h⟩ := h
  have hid : id ≠ "" := by simpa using hid
  have hreadable : ∀ digest, ({
      decisionId := id, subject, source, target, sourceProtocol, targetProtocol, sourceSchema, targetSchema, verdict,
      maxMixedVersionOperations := operations, maxMixedVersionMs := ms, certifiedFeatures := features, constraints
      registry := jsonStringOr value "registry" "fabric-compatibility-registry"
      rollbackPermitted := jsonBoolOr value "rollback_permitted" false
      decidedAt := jsonU64Or value "decided_at" 1, evidenceDigest := digest } : CompatibilityDecision).Readable := fun _ =>
    ⟨hid, TaggedName.isValid_of_parse hsubject, SoftwareVersion.readable_of_parse hsource,
      SoftwareVersion.readable_of_parse htarget, ProtocolVersion.readable_of_parse hsourceProtocol,
      ProtocolVersion.readable_of_parse htargetProtocol, jsonSchema_range hsourceSchema, jsonSchema_range htargetSchema,
      known_of_certifiedFeaturesFromJson hfeatures⟩
  cases hdigest : jsonString value "evidence_digest" with
  | none =>
    simp only [hdigest] at h
    cases h
    exact ⟨hreadable _, rfl⟩
  | some text =>
    simp only [hdigest, Result.bind_eq_ok, orRefuse_eq_ok] at h
    obtain ⟨digest, -, _, hverify, h⟩ := h
    cases h
    exact ⟨hreadable _, verifyDigest_eq_ok.mp hverify⟩

end CompatibilityDecision

/-! ## Components and steps -/

structure ComponentDocument.Readable (spec : ComponentDocument) : Prop where
  id : spec.id.isValid = true
  software : spec.software.Readable
  protocol : spec.protocol.Readable
  schema : spec.schema ≠ 0 ∧ spec.schema ≤ maxU32
  features : spec.features.Known
  host : spec.host ≠ ""
  port : spec.port ≠ 0 ∧ spec.port ≤ 65535

structure MigrationStepSpec.Readable (step : MigrationStepSpec) : Prop where
  id : step.id.isValid = true
  source : step.source ≠ 0 ∧ step.source ≤ maxU32
  target : step.target ≠ 0 ∧ step.target ≤ maxU32
  function : step.function ≠ ""
  parameters : step.parameters.isObject = true

theorem digestMember_toHex {value : Json} {key : String} {digest : Digest} (h : jsonString value key = some digest.toHex)
    (refusal : Status) : digestMember value key refusal = .ok digest := by
  rw [digestMember, h]
  simp only [Digest.fromHex_toHex, orRefuse_some]

theorem ComponentDocument.fromJson_toJson {spec : ComponentDocument} (h : spec.Readable) :
    componentSpecFromJson spec.toJson = .ok spec := by
  have hobject : spec.toJson.isObject = true := by simp [toJson]
  have hid : jsonString spec.toJson "id" = some spec.id.str := by simp [toJson, Json.tryString]
  have hsoftware : jsonString spec.toJson "software" = some spec.software.toString := by simp [toJson, Json.tryString]
  have hprotocol : jsonString spec.toJson "protocol" = some spec.protocol.toString := by simp [toJson, Json.tryString]
  have hschema : jsonU64 spec.toJson "schema" = some spec.schema := by simp [toJson, Json.tryU64]
  have hfeatures : spec.toJson.find "features" = some spec.features.toJson := by simp [toJson]
  have hartifact : jsonString spec.toJson "artifact_digest" = some spec.artifactDigest.toHex := by simp [toJson, Json.tryString]
  have hhost : (jsonString spec.toJson "host").filter (· ≠ "") = some spec.host := by simp [toJson, Json.tryString, h.host]
  have hport : (jsonU64 spec.toJson "port").filter (fun port => port ≠ 0 && port ≤ 65535) = some spec.port := by
    simp [toJson, Json.tryU64, h.port]
  unfold componentSpecFromJson
  simp only [hobject, refuseUnless_true, Result.ok_bind, hid, orRefuse_some, TaggedName.parse_str h.id, hsoftware,
    SoftwareVersion.parse_toString h.software, hprotocol, ProtocolVersion.parse_toString h.protocol,
    jsonSchema_eq hschema h.schema, featuresMember_eq h.features hfeatures, digestMember_toHex hartifact, hhost, hport]
  rfl

theorem ComponentDocument.readable_of_fromJson {value : Json} {spec : ComponentDocument}
    (h : componentSpecFromJson value = .ok spec) : spec.Readable := by
  unfold componentSpecFromJson at h
  simp only [Result.bind_eq_ok, orRefuse_eq_ok, Option.filter_eq_some_iff] at h
  obtain ⟨_, -, _, -, id, hid, _, -, software, hsoftware, _, -, protocol, hprotocol, schema, hschema, features, hfeatures,
    artifact, -, host, ⟨-, hhost⟩, port, ⟨-, hport⟩, h⟩ := h
  cases h
  exact ⟨TaggedName.isValid_of_parse hid, SoftwareVersion.readable_of_parse hsoftware,
    ProtocolVersion.readable_of_parse hprotocol, jsonSchema_range hschema, known_of_featuresMember hfeatures,
    by simpa using hhost, by simpa using hport⟩

theorem MigrationStepSpec.fromJson_toJson {step : MigrationStepSpec} (h : step.Readable) :
    migrationStepFromJson step.toJson = .ok step := by
  have hobject : step.toJson.isObject = true := by simp [toJson]
  have hid : jsonString step.toJson "id" = some step.id.str := by simp [toJson, Json.tryString]
  have hsource : jsonU64 step.toJson "from" = some step.source := by simp [toJson, Json.tryU64]
  have htarget : jsonU64 step.toJson "to" = some step.target := by simp [toJson, Json.tryU64]
  have hfunction : (jsonString step.toJson "function").filter (· ≠ "") = some step.function := by
    simp [toJson, Json.tryString, h.function]
  have hparameters : parametersFromJson step.toJson = .ok step.parameters := by
    have hmember : step.toJson.find "parameters" = some step.parameters := by simp [toJson]
    rw [parametersFromJson, hmember]
    exact if_pos h.parameters
  have hevidence : jsonString step.toJson "evidence_digest" = some step.evidenceDigest.toHex := by simp [toJson, Json.tryString]
  have hdeterministic : jsonBoolOr step.toJson "deterministic" true = step.deterministic := by
    simp [jsonBoolOr, toJson, Json.tryBool]
  have hreversible : jsonBoolOr step.toJson "reversible" true = step.reversible := by simp [jsonBoolOr, toJson, Json.tryBool]
  have hboundary : jsonBoolOr step.toJson "irreversible_boundary" false = step.irreversibleBoundary := by
    simp [jsonBoolOr, toJson, Json.tryBool]
  have hdescription : jsonStringOr step.toJson "description" "" = step.description := by
    simp [jsonStringOr, toJson, Json.tryString]
  unfold migrationStepFromJson
  simp only [hobject, refuseUnless_true, Result.ok_bind, hid, orRefuse_some, TaggedName.parse_str h.id,
    jsonSchema_eq hsource h.source, jsonSchema_eq htarget h.target, both_some, hfunction, hparameters,
    digestMember_toHex hevidence, hdeterministic, hreversible, hboundary, hdescription]
  rfl

theorem isObject_of_parametersFromJson {value parameters : Json} (h : parametersFromJson value = .ok parameters) :
    parameters.isObject = true := by
  unfold parametersFromJson at h
  split at h
  · cases h
    rfl
  · split_ifs at h with hobject
    cases h
    exact hobject

theorem MigrationStepSpec.readable_of_fromJson {value : Json} {step : MigrationStepSpec}
    (h : migrationStepFromJson value = .ok step) : step.Readable := by
  unfold migrationStepFromJson at h
  simp only [Result.bind_eq_ok, orRefuse_eq_ok, both_eq_some, Prod.exists, Option.filter_eq_some_iff] at h
  obtain ⟨_, -, _, -, id, hid, source, target, ⟨hsource, htarget⟩, function, ⟨-, hfunction⟩, parameters, hparameters,
    evidence, -, h⟩ := h
  cases h
  exact ⟨TaggedName.isValid_of_parse hid, jsonSchema_range hsource, jsonSchema_range htarget, by simpa using hfunction,
    isObject_of_parametersFromJson hparameters⟩

/-! ## Manifests -/

structure ManifestDocument.Readable (manifest : ManifestDocument) : Prop where
  id : manifest.id.isValid = true
  campaign : manifest.campaign.isValid = true
  shard : manifest.shard.isValid = true
  source : manifest.source.Readable
  target : manifest.target.Readable
  compatibility : manifest.compatibility.Readable
  minParticipants : manifest.window.minParticipants ≠ 0 ∧ manifest.window.minParticipants ≤ maxU32
  migrations : ∀ step ∈ manifest.migrations, step.Readable
  accepted : manifest.protocol.accepted ≠ []
  versions : ∀ version ∈ manifest.protocol.accepted, version.Readable
  requiredFeatures : manifest.protocol.requiredFeatures.Known
  allowedFeatures : manifest.protocol.allowedFeatures.Known
  boundaries : ∀ boundary ∈ manifest.rollback.declaredIrreversibleBoundaries, boundary.isValid = true

section Parts
variable {value : Json}

theorem windowFromJson_toJson {window : WindowDocument} (hfind : value.find "window" = some window.toJson)
    (h : window.minParticipants ≠ 0 ∧ window.minParticipants ≤ maxU32) : windowFromJson value = .ok window := by
  have hobject : (value.find "window").filter Json.isObject = some window.toJson := by simp [hfind, WindowDocument.toJson]
  have hparticipants : (jsonU64 window.toJson "min_participants").filter
      (fun participants => participants ≠ 0 && participants ≤ maxU32) = some window.minParticipants := by
    simp [WindowDocument.toJson, Json.tryU64, h]
  have hduration : jsonU64Or window.toJson "max_duration_ms" 0 = window.maxDurationMs := by
    simp [jsonU64Or, WindowDocument.toJson, Json.tryU64]
  have hoperations : jsonU64Or window.toJson "max_operations" 0 = window.maxOperations := by
    simp [jsonU64Or, WindowDocument.toJson, Json.tryU64]
  have hshared : jsonBoolOr window.toJson "require_read_only_shared_phase" true = window.requireReadOnlySharedPhase := by
    simp [jsonBoolOr, WindowDocument.toJson, Json.tryBool]
  unfold windowFromJson
  simp only [hobject, orRefuse_some, Result.ok_bind, hparticipants, hduration, hoperations, hshared]
  rfl

theorem minParticipants_of_windowFromJson {window : WindowDocument} (h : windowFromJson value = .ok window) :
    window.minParticipants ≠ 0 ∧ window.minParticipants ≤ maxU32 := by
  unfold windowFromJson at h
  simp only [Result.bind_eq_ok, orRefuse_eq_ok, Option.filter_eq_some_iff] at h
  obtain ⟨_, -, participants, ⟨-, hparticipants⟩, h⟩ := h
  cases h
  simpa using hparticipants

theorem acceptedVersionFromJson_toString {version : ProtocolVersion} (h : version.Readable) :
    acceptedVersionFromJson (.string version.toString) = .ok version := by
  rw [acceptedVersionFromJson, Json.tryString, orRefuse_some, Result.ok_bind, ProtocolVersion.parse_toString h]
  rfl

theorem readable_of_acceptedVersionFromJson {version : ProtocolVersion} (h : acceptedVersionFromJson value = .ok version) :
    version.Readable := by
  obtain ⟨_, -, h⟩ := Result.bind_eq_ok.mp h
  exact ProtocolVersion.readable_of_parse (orRefuse_eq_ok.mp h)

theorem protocolPathFromJson_toJson {path : ProtocolPath} (hfind : value.find "protocol" = some path.toJson)
    (haccepted : path.accepted ≠ []) (hversions : ∀ version ∈ path.accepted, version.Readable)
    (hrequired : path.requiredFeatures.Known) (hallowed : path.allowedFeatures.Known) :
    protocolPathFromJson value = .ok path := by
  have hobject : (value.find "protocol").filter Json.isObject = some path.toJson := by simp [hfind, ProtocolPath.toJson]
  have harray : ((path.toJson.find "accepted").bind Json.tryArray).filter (· ≠ []) =
      some (path.accepted.map fun version => .string version.toString) := by
    simp [ProtocolPath.toJson, Json.tryArray, haccepted]
  have hread : (path.accepted.map fun version => Json.string version.toString).mapM acceptedVersionFromJson =
      .ok path.accepted := mapM_read fun version hversion => acceptedVersionFromJson_toString (hversions version hversion)
  have hrequiredMember : path.toJson.find "required_features" = some path.requiredFeatures.toJson := by
    simp [ProtocolPath.toJson]
  have hallowedMember : path.toJson.find "allowed_features" = some path.allowedFeatures.toJson := by
    simp [ProtocolPath.toJson]
  unfold protocolPathFromJson
  simp only [hobject, orRefuse_some, Result.ok_bind, harray, hread, featuresMember_eq hrequired hrequiredMember,
    featuresMember_eq hallowed hallowedMember]
  rfl

theorem readable_of_protocolPathFromJson {path : ProtocolPath} (h : protocolPathFromJson value = .ok path) :
    path.accepted ≠ [] ∧ (∀ version ∈ path.accepted, version.Readable) ∧ path.requiredFeatures.Known ∧
      path.allowedFeatures.Known := by
  unfold protocolPathFromJson at h
  simp only [Result.bind_eq_ok, orRefuse_eq_ok, Option.filter_eq_some_iff] at h
  obtain ⟨_, -, values, ⟨-, hvalues⟩, accepted, haccepted, required, hrequired, allowed, hallowed, h⟩ := h
  cases h
  refine ⟨?_, forall_of_mapM haccepted fun _ _ _ => readable_of_acceptedVersionFromJson, known_of_featuresMember hrequired,
    known_of_featuresMember hallowed⟩
  rintro rfl
  cases values with
  | nil => simp at hvalues
  | cons first rest =>
    rw [List.mapM_cons] at haccepted
    obtain ⟨_, -, haccepted⟩ := Result.bind_eq_ok.mp haccepted
    obtain ⟨_, -, haccepted⟩ := Result.bind_eq_ok.mp haccepted
    cases haccepted

theorem boundaryFromJson_str {boundary : MigrationStepId} (h : boundary.isValid = true) :
    boundaryFromJson (.string boundary.str) = .ok boundary := by
  rw [boundaryFromJson, Json.tryString, orRefuse_some, Result.ok_bind, TaggedName.parse_str h]
  rfl

theorem isValid_of_boundaryFromJson {boundary : MigrationStepId} (h : boundaryFromJson value = .ok boundary) :
    boundary.isValid = true := by
  obtain ⟨_, -, h⟩ := Result.bind_eq_ok.mp h
  exact TaggedName.isValid_of_parse (orRefuse_eq_ok.mp h)

theorem rollbackFromJson_toJson {rollback : RollbackStrategy} (hfind : value.find "rollback" = some rollback.toJson)
    (h : ∀ boundary ∈ rollback.declaredIrreversibleBoundaries, boundary.isValid = true) :
    rollbackFromJson value = .ok rollback := by
  have hobject : (value.find "rollback").filter Json.isObject = some rollback.toJson := by
    simp [hfind, RollbackStrategy.toJson]
  have hkind : jsonString rollback.toJson "kind" = some rollback.kind.name := by simp [RollbackStrategy.toJson, Json.tryString]
  have hplan : jsonStringOr rollback.toJson "recovery_plan" "" = rollback.recoveryPlan := by
    simp [jsonStringOr, RollbackStrategy.toJson, Json.tryString]
  have hboundaries : readMember rollback.toJson "declared_irreversible_boundaries"
      "rollback declared_irreversible_boundaries must be an array" boundaryFromJson =
        .ok rollback.declaredIrreversibleBoundaries := by
    have hmember : rollback.toJson.find "declared_irreversible_boundaries" =
        some (.array (rollback.declaredIrreversibleBoundaries.map fun boundary => .string boundary.str)) := by
      simp [RollbackStrategy.toJson]
    rw [readMember, hmember]
    exact mapM_read fun boundary hboundary => boundaryFromJson_str (h boundary hboundary)
  unfold rollbackFromJson
  simp only [hobject, orRefuse_some, Result.ok_bind, hkind, RollbackKind.fromName_name, hboundaries, hplan]
  rfl

theorem readMember_forall {α : Type} {P : α → Prop} {key notArray : String} {read : Json → Result α} {values : List α}
    (h : readMember value key notArray read = .ok values) (hread : ∀ element a, read element = .ok a → P a) :
    ∀ a ∈ values, P a := by
  unfold readMember at h
  split at h
  · cases h
    exact fun _ ha => absurd ha List.not_mem_nil
  · exact forall_of_mapM h fun element _ a => hread element a
  · cases h

theorem boundaries_of_rollbackFromJson {rollback : RollbackStrategy} (h : rollbackFromJson value = .ok rollback) :
    ∀ boundary ∈ rollback.declaredIrreversibleBoundaries, boundary.isValid = true := by
  unfold rollbackFromJson at h
  simp only [Result.bind_eq_ok, orRefuse_eq_ok] at h
  obtain ⟨_, -, _, -, kind, -, boundaries, hboundaries, h⟩ := h
  cases h
  exact readMember_forall hboundaries fun _ _ => isValid_of_boundaryFromJson

theorem manifestName_str {key what : String} {name : TaggedName} (hkey : jsonString value key = some name.str)
    (h : name.isValid = true) : manifestName value key what = .ok name := by
  rw [manifestName, hkey, orRefuse_some, Result.ok_bind, TaggedName.parse_str h]
  rfl

theorem isValid_of_manifestName {key what : String} {name : TaggedName} (h : manifestName value key what = .ok name) :
    name.isValid = true := by
  obtain ⟨_, -, h⟩ := Result.bind_eq_ok.mp h
  exact TaggedName.isValid_of_parse (orRefuse_eq_ok.mp h)

end Parts

namespace ManifestDocument
variable {digestOf : Json → Digest} {manifest : ManifestDocument}

theorem verifyDigest_eq_ok : manifest.verifyDigest digestOf = .ok () ↔ manifest.digest = manifest.computeDigest digestOf := by
  rw [verifyDigest, refuseUnless_eq_ok, decide_eq_true_eq, eq_comm]

/-- Both digests are those of the content. -/
structure Bound (digestOf : Json → Digest) (manifest : ManifestDocument) : Prop where
  evidence : manifest.compatibility.evidenceDigest = manifest.compatibility.computeDigest digestOf
  digest : manifest.digest = manifest.computeDigest digestOf

theorem verified_bind (h : manifest.digest = manifest.computeDigest digestOf) :
    (manifest.verifyDigest digestOf >>= fun _ => (pure manifest : Result ManifestDocument)) = .ok manifest := by
  rw [verifyDigest_eq_ok.mpr h]
  rfl

/-- A readable manifest under its digests is read back. -/
theorem fromJson_toJson (h : manifest.Readable) (hbound : manifest.Bound digestOf) :
    manifestFromJson digestOf manifest.toJson = .ok manifest := by
  have hobject : manifest.toJson.isObject = true := by simp [toJson]
  have hid : jsonString manifest.toJson "id" = some manifest.id.str := by simp [toJson, Json.tryString]
  have hcampaign : jsonString manifest.toJson "campaign" = some manifest.campaign.str := by simp [toJson, Json.tryString]
  have hshard : jsonString manifest.toJson "shard" = some manifest.shard.str := by simp [toJson, Json.tryString]
  have hrevision : jsonU64Or manifest.toJson "revision" 1 = manifest.revision := by simp [jsonU64Or, toJson, Json.tryU64]
  have hsource : manifest.toJson.find "source" = some manifest.source.toJson := by simp [toJson]
  have htarget : manifest.toJson.find "target" = some manifest.target.toJson := by simp [toJson]
  have hcompatibility : manifest.toJson.find "compatibility" = some manifest.compatibility.toJson := by simp [toJson]
  have hwindow : manifest.toJson.find "window" = some manifest.window.toJson := by simp [toJson]
  have hmigrations : (manifest.toJson.find "migrations").bind Json.tryArray =
      some (manifest.migrations.map MigrationStepSpec.toJson) := by simp [toJson, Json.tryArray]
  have hsteps : (manifest.migrations.map MigrationStepSpec.toJson).mapM migrationStepFromJson = .ok manifest.migrations :=
    mapM_read fun step hstep => MigrationStepSpec.fromJson_toJson (h.migrations step hstep)
  have hprotocol : manifest.toJson.find "protocol" = some manifest.protocol.toJson := by simp [toJson]
  have hrollback : manifest.toJson.find "rollback" = some manifest.rollback.toJson := by simp [toJson]
  have hdigest : jsonString manifest.toJson "digest" = some manifest.digest.toHex := by simp [toJson, Json.tryString]
  unfold manifestFromJson
  simp only [hobject, refuseUnless_true, Result.ok_bind, manifestName_str hid h.id, manifestName_str hcampaign h.campaign,
    manifestName_str hshard h.shard, hrevision, hsource, htarget, both_some, orRefuse_some,
    ComponentDocument.fromJson_toJson h.source, ComponentDocument.fromJson_toJson h.target, hcompatibility,
    CompatibilityDecision.fromJson_toJson h.compatibility hbound.evidence, windowFromJson_toJson hwindow h.minParticipants,
    hmigrations, hsteps, protocolPathFromJson_toJson hprotocol h.accepted h.versions h.requiredFeatures h.allowedFeatures,
    rollbackFromJson_toJson hrollback h.boundaries, hdigest, Digest.fromHex_toHex]
  exact verified_bind hbound.digest

/-- A manifest that was read is readable, under its digests. -/
theorem readable_of_fromJson {value : Json} (h : manifestFromJson digestOf value = .ok manifest) :
    manifest.Readable ∧ manifest.Bound digestOf := by
  unfold manifestFromJson at h
  simp only [Result.bind_eq_ok, orRefuse_eq_ok, both_eq_some, Prod.exists] at h
  obtain ⟨_, -, id, hid, campaign, hcampaign, shard, hshard, _, _, -, source, hsource, target, htarget, _, -, compatibility,
    hcompatibility, window, hwindow, steps, -, migrations, hmigrations, protocol, hprotocol, rollback, hrollback, h⟩ := h
  obtain ⟨hdecision, hevidence⟩ := CompatibilityDecision.readable_of_fromJson hcompatibility
  obtain ⟨haccepted, hversions, hrequired, hallowed⟩ := readable_of_protocolPathFromJson hprotocol
  have hreadable : ∀ digest, ({
      id, campaign, shard, source, target, compatibility, window, migrations, protocol, rollback, digest
      revision := jsonU64Or value "revision" 1 } : ManifestDocument).Readable := fun _ =>
    ⟨isValid_of_manifestName hid, isValid_of_manifestName hcampaign, isValid_of_manifestName hshard,
      ComponentDocument.readable_of_fromJson hsource, ComponentDocument.readable_of_fromJson htarget, hdecision,
      minParticipants_of_windowFromJson hwindow,
      forall_of_mapM hmigrations fun _ _ _ => MigrationStepSpec.readable_of_fromJson, haccepted, hversions, hrequired, hallowed,
      boundaries_of_rollbackFromJson hrollback⟩
  cases hdigest : jsonString value "digest" with
  | none =>
    simp only [hdigest, sealed, Result.bind_eq_ok] at h
    obtain ⟨_, -, h⟩ := h
    cases h
    exact ⟨hreadable _, hevidence, rfl⟩
  | some text =>
    simp only [hdigest, Result.bind_eq_ok, orRefuse_eq_ok] at h
    obtain ⟨digest, -, _, hverify, h⟩ := h
    cases h
    exact ⟨hreadable _, hevidence, verifyDigest_eq_ok.mp hverify⟩

end ManifestDocument

end FabricEvolution
