import FabricEvolution.Manifest.RoundTrip

/-!
# What the digests of manifests and decisions bind

* `textDigest` : the digest of a value as a hash of its text;
* `ManifestDocument.canonical`, `ManifestDocument.Same` : a manifest as the parser returns it, and equality of manifests, which
  compares the parameters of the steps as JSON values;
* `ManifestCodec`, `manifest_codec`.
-/

namespace FabricEvolution
open Lib

/-- The digest of a value under a hash of texts. -/
def textDigest (floats : FloatText) (hash : Bytes → Digest) (value : Json) : Digest := hash (value.dump floats)

/-! ## The digest member -/

theorem assocErase_absent {key : String} {members : List (String × Json)} (h : assocFind key members = none) :
    assocErase key members = members := by
  induction members with
  | nil => rfl
  | cons entry members ih =>
    rw [assocFind_cons] at h
    split_ifs at h with hentry
    rw [assocErase, List.filter_cons_of_pos (by simpa using hentry)]
    exact congrArg _ (ih h)

theorem assocErase_insert {key : String} {member : Json} {members : List (String × Json)} (h : assocFind key members = none) :
    assocErase key (assocInsert key member members) = members := by
  induction members with
  | nil => simp [assocInsert, assocErase]
  | cons entry members ih =>
    have hrest := h
    rw [assocFind_cons] at hrest
    split_ifs at hrest with hentry
    rw [assocInsert]
    split_ifs with hlt heq
    · rw [assocErase, List.filter_cons_of_neg (by simp)]
      exact assocErase_absent h
    · exact absurd heq.symm hentry
    · rw [assocErase, List.filter_cons_of_pos (by simpa using hentry)]
      exact congrArg _ (ih hrest)

/-- A member that was absent is set and erased again. -/
theorem Json.erase_set {value : Json} {key : String} (member : Json) (hobject : value.isObject = true)
    (h : value.find key = none) : (value.set key member).erase key = value := by
  cases value with
  | object members => exact congrArg Json.object (assocErase_insert h)
  | _ => cases hobject

theorem ManifestDocument.toJson_erase (manifest : ManifestDocument) : manifest.toJson.erase "digest" = manifest.content :=
  Json.erase_set _ (by simp) (by simp)

theorem CompatibilityDecision.toJson_erase (decision : CompatibilityDecision) :
    decision.toJson.erase "evidence_digest" = decision.content :=
  Json.erase_set _ (by simp) (by simp)

/-! ## Manifests as the parser returns them -/

def MigrationStepSpec.canonical (step : MigrationStepSpec) : MigrationStepSpec :=
  { step with parameters := step.parameters.canonical }

def ManifestDocument.canonical (manifest : ManifestDocument) : ManifestDocument :=
  { manifest with migrations := manifest.migrations.map MigrationStepSpec.canonical }

@[simp] theorem FeatureSet.toJson_canonical (set : FeatureSet) : set.toJson.canonical = set.toJson := by
  simp [toJson]

@[simp] theorem CompatibilityConstraint.toJson_canonical (entry : CompatibilityConstraint) :
    entry.toJson.canonical = entry.toJson := by
  simp [toJson, Json.ofPairs]

theorem CompatibilityDecision.content_canonical (decision : CompatibilityDecision) :
    decision.content.canonical = decision.content := by
  have hconstraints : decision.constraints.map (Json.canonical ∘ CompatibilityConstraint.toJson) =
      decision.constraints.map CompatibilityConstraint.toJson :=
    List.map_congr_left fun entry _ => entry.toJson_canonical
  simp [content, hconstraints]

@[simp] theorem CompatibilityDecision.toJson_canonical (decision : CompatibilityDecision) :
    decision.toJson.canonical = decision.toJson := by
  have hobject : decision.content.isObject = true := by simp [content]
  have hset : decision.toJson = decision.content.set "evidence_digest" (.string decision.evidenceDigest.toHex) := rfl
  rw [hset, Json.canonical_set hobject, content_canonical]
  rfl

@[simp] theorem ComponentDocument.toJson_canonical (spec : ComponentDocument) : spec.toJson.canonical = spec.toJson := by
  simp [toJson]

@[simp] theorem MigrationStepSpec.toJson_canonical (step : MigrationStepSpec) :
    step.toJson.canonical = step.canonical.toJson := by
  simp [toJson, canonical]

namespace ManifestDocument

theorem content_canonical (manifest : ManifestDocument) : manifest.content.canonical = manifest.canonical.content := by
  have hsteps : manifest.migrations.map (Json.canonical ∘ MigrationStepSpec.toJson) =
      manifest.canonical.migrations.map MigrationStepSpec.toJson := by
    rw [canonical, List.map_map]
    exact List.map_congr_left fun step _ => step.toJson_canonical
  simp [content, hsteps, WindowDocument.toJson, ProtocolPath.toJson, RollbackStrategy.toJson]
  rfl

theorem toJson_canonical (manifest : ManifestDocument) : manifest.toJson.canonical = manifest.canonical.toJson := by
  have hobject : manifest.content.isObject = true := by simp [content]
  have hset : manifest.toJson = manifest.content.set "digest" (.string manifest.digest.toHex) := rfl
  rw [hset, Json.canonical_set hobject, content_canonical]
  rfl

end ManifestDocument

/-! ## Equality of manifests -/

/-- Equal in every field; the parameters compare as JSON values. -/
structure MigrationStepSpec.Same (step step' : MigrationStepSpec) : Prop where
  fields : step' = { step with parameters := step'.parameters }
  parameters : Json.same step.parameters step'.parameters = true

structure ManifestDocument.Same (manifest other : ManifestDocument) : Prop where
  fields : other = { manifest with migrations := other.migrations }
  migrations : List.Forall₂ MigrationStepSpec.Same manifest.migrations other.migrations

/-- The parameters of the steps are JSON values as the wire carries them, and within the limits of a parser. -/
structure ManifestDocument.PlainParameters (limits : JsonParseLimits) (manifest : ManifestDocument) : Prop where
  wellFormed : ∀ step ∈ manifest.migrations, step.parameters.WellFormed
  fits : ∀ step ∈ manifest.migrations, Json.Fits limits 3 step.parameters.canonical

theorem Json.Fits.find {limits : JsonParseLimits} {depth : Nat} {value member : Json} {key : String}
    (h : Json.Fits limits depth value) (hfind : value.find key = some member) : Json.Fits limits (depth + 1) member := by
  cases h with
  | object hdepth hlength hascend hkeys hvalues => exact hvalues _ (mem_of_assocFind hfind)
  | _ => cases hfind

theorem wellFormed_of_migrationStepFromJson {value : Json} {step : MigrationStepSpec} (hvalue : value.WellFormed)
    (h : migrationStepFromJson value = .ok step) : step.parameters.WellFormed := by
  unfold migrationStepFromJson at h
  simp only [Result.bind_eq_ok, orRefuse_eq_ok, both_eq_some, Prod.exists] at h
  obtain ⟨_, -, _, -, _, -, _, _, -, _, -, parameters, hparameters, _, -, h⟩ := h
  cases h
  unfold parametersFromJson at hparameters
  split at hparameters
  · cases hparameters
    exact .object List.Pairwise.nil fun _ hentry => absurd hentry List.not_mem_nil
  · rename_i member hmember
    split_ifs at hparameters
    cases hparameters
    exact hvalue.find hmember

theorem ManifestDocument.plainParameters {digestOf : Json → Digest} {limits : JsonParseLimits} {value : Json}
    {manifest : ManifestDocument} (hvalue : value.WellFormed) (h : manifestFromJson digestOf value = .ok manifest)
    (hfits : Json.Fits limits 0 manifest.toJson.canonical) : manifest.PlainParameters limits := by
  constructor
  · unfold manifestFromJson at h
    simp only [Result.bind_eq_ok, orRefuse_eq_ok, both_eq_some, Prod.exists, Option.bind_eq_some_iff] at h
    obtain ⟨_, -, _, -, _, -, _, -, _, _, -, _, -, _, -, _, -, _, -, _, -, steps, ⟨member, hmember, hsteps⟩, migrations,
      hmigrations, _, -, _, -, h⟩ := h
    have hsame : manifest.migrations = migrations := by
      split at h
      · obtain ⟨_, -, h⟩ := Result.bind_eq_ok.mp h
        cases h
        rfl
      · simp only [Result.bind_eq_ok, orRefuse_eq_ok] at h
        obtain ⟨_, -, _, -, h⟩ := h
        cases h
        rfl
    rw [hsame]
    refine forall_of_mapM hmigrations fun element helement step => wellFormed_of_migrationStepFromJson ?_
    have harray := hvalue.find hmember
    cases harray with
    | array hvalues =>
      cases hsteps
      exact hvalues element helement
    | _ => cases hsteps
  · intro step hstep
    rw [toJson_canonical] at hfits
    have harray : Json.Fits limits 1 (.array (manifest.canonical.migrations.map MigrationStepSpec.toJson)) :=
      hfits.find (show manifest.canonical.toJson.find "migrations" = _ by simp [toJson])
    have hobject : Json.Fits limits 2 step.canonical.toJson := by
      cases harray with
      | array hdepth hlength hvalues =>
        refine hvalues _ (List.mem_map_of_mem ?_)
        exact List.mem_map_of_mem hstep
    refine hobject.find (show step.canonical.toJson.find "parameters" = _ from ?_)
    simp [MigrationStepSpec.toJson, MigrationStepSpec.canonical]

theorem forall₂_of_map_eq {α β : Type} {f : α → β} {R : α → α → Prop} {values values' : List α}
    (h : values.map f = values'.map f) (hR : ∀ a ∈ values, ∀ a' ∈ values', f a = f a' → R a a') :
    List.Forall₂ R values values' := by
  induction values generalizing values' with
  | nil =>
    rw [List.map_nil] at h
    rw [List.map_eq_nil_iff.mp h.symm]
    exact .nil
  | cons value values ih =>
    obtain ⟨value', values', rfl, hvalue, hrest⟩ := List.map_eq_cons_iff.mp h.symm
    refine .cons (hR value List.mem_cons_self value' List.mem_cons_self hvalue.symm) (ih hrest.symm ?_)
    exact fun a ha a' ha' => hR a (List.mem_cons_of_mem _ ha) a' (List.mem_cons_of_mem _ ha')

theorem MigrationStepSpec.same_of_canonical {limits : JsonParseLimits} {step step' : MigrationStepSpec}
    (h : step.canonical = step'.canonical) (hstep : step.parameters.WellFormed) (hstep' : step'.parameters.WellFormed)
    (hfits : Json.Fits limits 3 step.parameters.canonical) : step.Same step' := by
  constructor
  · cases step
    cases step'
    simp only [canonical, mk.injEq] at h ⊢
    tauto
  · exact Json.same_of_canonical hstep hstep' hfits (congrArg MigrationStepSpec.parameters h)

/-- Manifests with one canonical form are equal. -/
theorem ManifestDocument.same_of_canonical {limits : JsonParseLimits} {manifest other : ManifestDocument}
    (h : manifest.canonical = other.canonical) (hmanifest : manifest.PlainParameters limits)
    (hother : ∀ step ∈ other.migrations, step.parameters.WellFormed) : manifest.Same other := by
  constructor
  · cases manifest
    cases other
    simp only [canonical, mk.injEq] at h ⊢
    tauto
  · refine forall₂_of_map_eq (congrArg ManifestDocument.migrations h) fun step hstep step' hstep' hsame => ?_
    exact MigrationStepSpec.same_of_canonical hsame (hmanifest.wellFormed step hstep) (hother step' hstep')
      (hmanifest.fits step hstep)

/-- A manifest is equal to its canonical form. -/
theorem ManifestDocument.same_canonical {limits : JsonParseLimits} {manifest : ManifestDocument}
    (h : manifest.PlainParameters limits) : manifest.Same manifest.canonical := by
  refine same_of_canonical ?_ h ?_
  · simp only [canonical, List.map_map]
    congr 1
    refine List.map_congr_left fun step _ => ?_
    simp only [Function.comp_apply, MigrationStepSpec.canonical, Json.canonical_canonical]
  · intro step hstep
    obtain ⟨step', hstep', rfl⟩ := List.mem_map.mp hstep
    exact (h.fits step' hstep').wellFormed

/-! ## What is kept -/

theorem Json.Fits.erase {limits : JsonParseLimits} {depth : Nat} {value : Json} (key : String) (h : Json.Fits limits depth value) :
    Json.Fits limits depth (value.erase key) := by
  cases h with
  | object hdepth hlength hascend hkeys hvalues =>
    refine .object hdepth ((List.length_filter_le _ _).trans hlength) (hascend.erase key) ?_ ?_
    · exact fun member hmember => hkeys member (List.mem_of_mem_filter hmember)
    · exact fun member hmember => hvalues member (List.mem_of_mem_filter hmember)
  | null hdepth => exact .null hdepth
  | bool value hdepth => exact .bool value hdepth
  | int hdepth hneg hmin => exact .int hdepth hneg hmin
  | uint hdepth hmax => exact .uint hdepth hmax
  | string hdepth htext => exact .string hdepth htext
  | array hdepth hlength hvalues => exact .array hdepth hlength hvalues

theorem ManifestDocument.Readable.canonical {manifest : ManifestDocument} (h : manifest.Readable) :
    manifest.canonical.Readable := by
  refine { h with migrations := fun step hstep => ?_ }
  obtain ⟨step', hstep', rfl⟩ := List.mem_map.mp hstep
  have hread := h.migrations step' hstep'
  exact { hread with parameters := (Json.isObject_canonical _).trans hread.parameters }

section Digests
variable {floats : FloatText} {hash : Bytes → Digest} {limits : JsonParseLimits}

theorem textDigest_canonical (value : Json) : textDigest floats hash value.canonical = textDigest floats hash value :=
  congrArg hash (Json.dump_canonical floats value)

/-- The digests of a manifest do not tell it from its canonical form. -/
theorem ManifestDocument.Bound.canonical {manifest : ManifestDocument} (h : manifest.Bound (textDigest floats hash)) :
    manifest.canonical.Bound (textDigest floats hash) := by
  refine ⟨h.evidence, ?_⟩
  calc manifest.digest = textDigest floats hash manifest.content := h.digest
    _ = textDigest floats hash manifest.content.canonical := (textDigest_canonical _).symm
    _ = textDigest floats hash manifest.canonical.content := by rw [content_canonical]

/-- Contents whose texts hash to one digest have one canonical form, unless their texts collide. -/
theorem canonical_of_textDigest {a b : Json} (ha : Json.Fits limits 0 a.canonical) (hb : Json.Fits limits 0 b.canonical)
    (hcollide : hash (a.dump floats) = hash (b.dump floats) → a.dump floats = b.dump floats)
    (h : textDigest floats hash a = textDigest floats hash b) : a.canonical = b.canonical :=
  Json.canonical_of_dump ha hb (hcollide h)

theorem ManifestDocument.fits_content {manifest : ManifestDocument} (h : Json.Fits limits 0 manifest.toJson.canonical) :
    Json.Fits limits 0 manifest.content.canonical := by
  rw [content_canonical, ← toJson_erase, ← toJson_canonical]
  exact h.erase "digest"

theorem CompatibilityDecision.fits_content {decision : CompatibilityDecision} (h : Json.Fits limits 0 decision.toJson) :
    Json.Fits limits 0 decision.content.canonical := by
  rw [content_canonical, ← toJson_erase]
  exact h.erase "evidence_digest"

end Digests

/-- Both codecs, for the texts that a parser with the given limits takes. -/
structure ManifestCodec (floats : FloatText) (hash : Bytes → Digest) (limits : JsonParseLimits) : Prop where
  /-- The text of a manifest that was read, without floating point numbers, is read again as an equal manifest. -/
  manifest : ∀ {value : Json} {manifest : ManifestDocument}, value.WellFormed →
    manifestFromJson (textDigest floats hash) value = .ok manifest → Json.Fits limits 0 manifest.toJson.canonical →
    (manifest.toJson.dump floats).length ≤ limits.maxBytes →
    ∃ parsed read, parseJson floats limits (manifest.toJson.dump floats) = .ok parsed ∧
      manifestFromJson (textDigest floats hash) parsed = .ok read ∧ manifest.Same read ∧ read.digest = manifest.digest
  decision : ∀ {value : Json} {decision : CompatibilityDecision},
    compatibilityDecisionFromJson (textDigest floats hash) value = .ok decision → Json.Fits limits 0 decision.toJson →
    (decision.toJson.dump floats).length ≤ limits.maxBytes →
    ∃ parsed, parseJson floats limits (decision.toJson.dump floats) = .ok parsed ∧
      compatibilityDecisionFromJson (textDigest floats hash) parsed = .ok decision
  /-- The digest hashes the text of the encoding without its digest member. -/
  digest : ∀ manifest : ManifestDocument,
    manifest.computeDigest (textDigest floats hash) = hash ((manifest.toJson.erase "digest").dump floats)
  evidenceDigest : ∀ decision : CompatibilityDecision,
    decision.computeDigest (textDigest floats hash) = hash ((decision.toJson.erase "evidence_digest").dump floats)
  /-- Manifests that were read under one digest are equal, unless the hash collides on their two texts. -/
  manifestBound : ∀ {value value' : Json} {manifest other : ManifestDocument}, value.WellFormed → value'.WellFormed →
    manifestFromJson (textDigest floats hash) value = .ok manifest →
    manifestFromJson (textDigest floats hash) value' = .ok other → Json.Fits limits 0 manifest.toJson.canonical →
    Json.Fits limits 0 other.toJson.canonical →
    (hash (manifest.content.dump floats) = hash (other.content.dump floats) →
      manifest.content.dump floats = other.content.dump floats) →
    manifest.digest = other.digest → manifest.Same other
  decisionBound : ∀ {value value' : Json} {decision other : CompatibilityDecision},
    compatibilityDecisionFromJson (textDigest floats hash) value = .ok decision →
    compatibilityDecisionFromJson (textDigest floats hash) value' = .ok other → Json.Fits limits 0 decision.toJson →
    Json.Fits limits 0 other.toJson →
    (hash (decision.content.dump floats) = hash (other.content.dump floats) →
      decision.content.dump floats = other.content.dump floats) →
    decision.evidenceDigest = other.evidenceDigest → decision = other

section Codec
variable {floats : FloatText} {hash : Bytes → Digest} {limits : JsonParseLimits}

theorem ManifestDocument.read_again {value : Json} {manifest : ManifestDocument} (hvalue : value.WellFormed)
    (h : manifestFromJson (textDigest floats hash) value = .ok manifest) (hfits : Json.Fits limits 0 manifest.toJson.canonical)
    (hbytes : (manifest.toJson.dump floats).length ≤ limits.maxBytes) :
    ∃ parsed read, parseJson floats limits (manifest.toJson.dump floats) = .ok parsed ∧
      manifestFromJson (textDigest floats hash) parsed = .ok read ∧ manifest.Same read ∧ read.digest = manifest.digest := by
  obtain ⟨hreadable, hbound⟩ := readable_of_fromJson h
  refine ⟨_, manifest.canonical, Json.parseJson_dump_canonical hfits hbytes, ?_,
    same_canonical (plainParameters hvalue h hfits), rfl⟩
  rw [toJson_canonical]
  exact fromJson_toJson hreadable.canonical hbound.canonical

/-- Equal canonical forms: the content is the same, and so is the encoding, which determines what is read. -/
theorem ManifestDocument.canonical_of_digest {value value' : Json} {manifest other : ManifestDocument}
    (h : manifestFromJson (textDigest floats hash) value = .ok manifest)
    (h' : manifestFromJson (textDigest floats hash) value' = .ok other) (hfits : Json.Fits limits 0 manifest.toJson.canonical)
    (hfits' : Json.Fits limits 0 other.toJson.canonical)
    (hcollide : hash (manifest.content.dump floats) = hash (other.content.dump floats) →
      manifest.content.dump floats = other.content.dump floats)
    (hdigest : manifest.digest = other.digest) : manifest.canonical = other.canonical := by
  obtain ⟨hreadable, hbound⟩ := readable_of_fromJson h
  obtain ⟨hreadable', hbound'⟩ := readable_of_fromJson h'
  have hcontent : manifest.canonical.content = other.canonical.content := by
    rw [← content_canonical, ← content_canonical]
    refine canonical_of_textDigest (fits_content hfits) (fits_content hfits') hcollide ?_
    exact (hbound.digest.symm.trans hdigest).trans hbound'.digest
  have hjson : manifest.canonical.toJson = other.canonical.toJson := by
    have hset : ∀ m : ManifestDocument, m.toJson = m.content.set "digest" (.string m.digest.toHex) := fun _ => rfl
    rw [hset, hset, hcontent, show manifest.canonical.digest = other.canonical.digest from hdigest]
  have hread := fromJson_toJson hreadable.canonical hbound.canonical
  rw [hjson, fromJson_toJson hreadable'.canonical hbound'.canonical] at hread
  exact (Except.ok.inj hread).symm

theorem CompatibilityDecision.eq_of_digest {value value' : Json} {decision other : CompatibilityDecision}
    (h : compatibilityDecisionFromJson (textDigest floats hash) value = .ok decision)
    (h' : compatibilityDecisionFromJson (textDigest floats hash) value' = .ok other)
    (hfits : Json.Fits limits 0 decision.toJson) (hfits' : Json.Fits limits 0 other.toJson)
    (hcollide : hash (decision.content.dump floats) = hash (other.content.dump floats) →
      decision.content.dump floats = other.content.dump floats)
    (hdigest : decision.evidenceDigest = other.evidenceDigest) : decision = other := by
  obtain ⟨hreadable, hbound⟩ := readable_of_fromJson h
  obtain ⟨hreadable', hbound'⟩ := readable_of_fromJson h'
  have hcontent : decision.content = other.content := by
    have hsame := canonical_of_textDigest (fits_content hfits) (fits_content hfits') hcollide
      ((hbound.symm.trans hdigest).trans hbound')
    rwa [content_canonical, content_canonical] at hsame
  have hjson : decision.toJson = other.toJson := by
    have hset : ∀ d : CompatibilityDecision, d.toJson = d.content.set "evidence_digest" (.string d.evidenceDigest.toHex) :=
      fun _ => rfl
    rw [hset, hset, hcontent, hdigest]
  have hread := fromJson_toJson hreadable hbound
  rw [hjson, fromJson_toJson hreadable' hbound'] at hread
  exact (Except.ok.inj hread).symm

end Codec

/-- Manifests and decisions survive their texts, and their digests bind all their fields. -/
theorem manifest_codec (floats : FloatText) (hash : Bytes → Digest) (limits : JsonParseLimits) :
    ManifestCodec floats hash limits where
  manifest := ManifestDocument.read_again
  decision := by
    intro value decision h hfits hbytes
    obtain ⟨hreadable, hbound⟩ := CompatibilityDecision.readable_of_fromJson h
    exact ⟨decision.toJson, parseJson_dump hfits hbytes, CompatibilityDecision.fromJson_toJson hreadable hbound⟩
  digest := by
    intro manifest
    rw [ManifestDocument.toJson_erase]
    rfl
  evidenceDigest := by
    intro decision
    rw [CompatibilityDecision.toJson_erase]
    rfl
  manifestBound := by
    intro value value' manifest other hvalue hvalue' h h' hfits hfits' hcollide hdigest
    have hsame := ManifestDocument.canonical_of_digest h h' hfits hfits' hcollide hdigest
    exact ManifestDocument.same_of_canonical hsame (ManifestDocument.plainParameters hvalue h hfits)
      (ManifestDocument.plainParameters hvalue' h' hfits').wellFormed
  decisionBound := CompatibilityDecision.eq_of_digest

end FabricEvolution
