import FabricEvolution.Manifest.Chain
import FabricEvolution.Manifest.Codec

/-!
# From the registry to the enabled features

* `negotiateGroup` : what a group of participants agrees on; `usable_cases` : what a usable result enables;
* `admitManifest` : the admission of a plan, against the decision of the registry;
* `ManifestDocument.Gated` : the decision bounds what is enabled and how long versions mix; `gated_iff`.
-/

namespace FabricEvolution
open Lib

/-! ## Negotiation -/

inductive NegotiationMode where
  /-- The participants may not interoperate at all. -/
  | refused
  /-- At a reduced protocol version or feature set. -/
  | restricted
  | compatible
deriving DecidableEq

def NegotiationMode.name : NegotiationMode → String
  | refused => "refused"
  | restricted => "restricted"
  | compatible => "compatible"

structure NegotiatedProtocol where
  mode : NegotiationMode := .refused
  effective : ProtocolVersion := ⟨0, 0⟩
  enabled : FeatureSet := .none
  disabled : FeatureSet := .none
  missingRequired : FeatureSet := .none
  refusals : List String := []
  rationale : String

namespace NegotiatedProtocol

def usable (negotiated : NegotiatedProtocol) : Bool := negotiated.mode ≠ .refused

def toJson (negotiated : NegotiatedProtocol) : Json :=
  (Json.object []).set "mode" (.string negotiated.mode.name)
    |>.set "effective" (.string negotiated.effective.toString)
    |>.set "enabled_features" negotiated.enabled.toJson
    |>.set "disabled_features" negotiated.disabled.toJson
    |>.set "refusals" (.array (negotiated.refusals.map Json.string))
    |>.set "rationale" (.string negotiated.rationale)

end NegotiatedProtocol

def ProtocolHello.isValid (hello : ProtocolHello) : Bool :=
  hello.component.isValid && hello.incarnation.isValid && hello.software.isValid && hello.protocol.isValid && hello.schema ≠ 0

/-- The features a participant offers. -/
def ProtocolHello.offers (hello : ProtocolHello) : FeatureSet := .ofBits hello.features

structure GroupNegotiationRequest where
  participants : List ProtocolHello
  requiredParticipants : List ComponentId
  path : ProtocolPath
  allowedSchemas : List Nat

/-- What the participants so far agree on. -/
structure Tally where
  effective : ProtocolVersion
  common : FeatureSet
  refusals : List String := []

namespace GroupNegotiationRequest
variable (request : GroupNegotiationRequest)

def absent : List ComponentId :=
  request.requiredParticipants.filter fun required => !request.participants.any (·.component = required)

/-- One more participant; an incomplete hello or another major version ends the negotiation. -/
def tallyHello (tally : Tally) (hello : ProtocolHello) : Except NegotiatedProtocol Tally :=
  if !hello.isValid then
    .error {
      refusals := tally.refusals ++ ["participant hello is incomplete: " ++ hello.component.str]
      rationale := "refused: a participant did not present a complete hello" }
  else if !tally.effective.compatibleWith hello.protocol then
    .error {
      refusals := tally.refusals ++
        ["protocol major mismatch: " ++ tally.effective.toString ++ " vs " ++ hello.protocol.toString]
      rationale := "refused: protocol major versions differ across participants" }
  else
    .ok {
      effective := tally.effective.negotiate hello.protocol
      common := tally.common.intersect hello.offers
      refusals :=
        if hello.schema ∈ request.allowedSchemas then tally.refusals
        else tally.refusals ++
          [hello.component.str ++ " reports schema " ++ Nat.repr hello.schema ++ " which the manifest does not list"] }

/-- The result for the tally of all participants. -/
def conclude (tally : Tally) : NegotiatedProtocol :=
  let enabled := tally.common.intersect request.path.allowedFeatures
  let missing := request.path.requiredFeatures.without enabled
  if tally.refusals ≠ [] then
    { refusals := tally.refusals
      rationale := "refused: a participant reports a schema outside the declared migration envelope" }
  else if !request.path.accepts tally.effective then
    { refusals := ["effective protocol version " ++ tally.effective.toString ++ " is not on the manifest negotiation path"]
      rationale := "refused: negotiated protocol version is not declared" }
  else if !missing.isEmpty then
    { missingRequired := missing
      refusals := missing.names.map fun name => "required feature not supported by every participant: " ++ name
      rationale := "refused: the manifest requires features the participants do not jointly support" }
  else if request.participants.all (·.protocol = tally.effective) then
    { mode := .compatible, effective := tally.effective, enabled, disabled := request.path.allowedFeatures.without enabled
      rationale := "compatible: all participants agree on protocol and features" }
  else
    { mode := .restricted, effective := tally.effective, enabled, disabled := request.path.allowedFeatures.without enabled
      rationale := "restricted: operating at the lower common protocol version " ++ tally.effective.toString }

end GroupNegotiationRequest

def negotiateGroup (request : GroupNegotiationRequest) : NegotiatedProtocol :=
  match request.participants with
  | [] => { refusals := ["no participants presented a hello"], rationale := "refused: no participants" }
  | first :: _ =>
    if request.absent ≠ [] then
      { refusals := request.absent.map fun required => "required participant did not present a hello: " ++ required.str
        rationale := "refused: a required participant is absent" }
    else
      match request.participants.foldlM request.tallyHello ⟨first.protocol, first.offers, []⟩ with
      | .error refused => refused
      | .ok tally => request.conclude tally

/-! ## What a usable result enables -/

section
variable {request : GroupNegotiationRequest} {tally final : Tally} {hello : ProtocolHello}

theorem tallyHello_cases (h : request.tallyHello tally hello = .ok final) : final.common = tally.common.intersect hello.offers := by
  unfold GroupNegotiationRequest.tallyHello at h
  split_ifs at h
  all_goals cases h; rfl

theorem tallyHello_refused {refused : NegotiatedProtocol} (h : request.tallyHello tally hello = .error refused) :
    refused.usable = false := by
  unfold GroupNegotiationRequest.tallyHello at h
  split_ifs at h
  all_goals cases h; rfl

/-- What is common in the end is offered by all. -/
theorem foldlM_common {hellos : List ProtocolHello} (h : hellos.foldlM request.tallyHello tally = .ok final) :
    tally.common.containsAll final.common = true ∧ ∀ hello ∈ hellos, hello.offers.containsAll final.common = true := by
  induction hellos generalizing tally with
  | nil =>
    cases h
    exact ⟨FeatureSet.containsAll_refl, fun _ hh => absurd hh List.not_mem_nil⟩
  | cons first rest ih =>
    rw [List.foldlM_cons] at h
    cases hfirst : request.tallyHello tally first with
    | error refused => simp [hfirst, bind, Except.bind] at h
    | ok next =>
      simp only [hfirst, bind, Except.bind] at h
      obtain ⟨hnext, hrest⟩ := ih h
      rw [tallyHello_cases hfirst] at hnext
      refine ⟨FeatureSet.containsAll_trans FeatureSet.containsAll_intersect_left hnext, fun hello hhello => ?_⟩
      rcases List.mem_cons.mp hhello with rfl | hhello
      · exact FeatureSet.containsAll_trans FeatureSet.containsAll_intersect_right hnext
      · exact hrest hello hhello

theorem foldlM_refused {hellos : List ProtocolHello} {refused : NegotiatedProtocol}
    (h : hellos.foldlM request.tallyHello tally = .error refused) : refused.usable = false := by
  induction hellos generalizing tally with
  | nil => cases h
  | cons first rest ih =>
    rw [List.foldlM_cons] at h
    cases hfirst : request.tallyHello tally first with
    | error refused' =>
      simp only [hfirst, bind, Except.bind, Except.error.injEq] at h
      exact h ▸ tallyHello_refused hfirst
    | ok next =>
      simp only [hfirst, bind, Except.bind] at h
      exact ih h

theorem conclude_cases (h : (request.conclude tally).usable = true) :
    (request.conclude tally).enabled = tally.common.intersect request.path.allowedFeatures ∧
      (request.conclude tally).enabled.containsAll request.path.requiredFeatures = true := by
  unfold GroupNegotiationRequest.conclude at h ⊢
  dsimp only at h ⊢
  split_ifs at h ⊢ with _ _ hmissing
  · cases h
  · cases h
  · cases h
  all_goals exact ⟨rfl, FeatureSet.isEmpty_without.mp (by simpa using hmissing)⟩

/-- A usable result enables what every participant offers and the path allows, and all that is required. -/
theorem usable_cases (h : (negotiateGroup request).usable = true) :
    (∀ hello ∈ request.participants, hello.offers.containsAll (negotiateGroup request).enabled = true) ∧
      request.path.allowedFeatures.containsAll (negotiateGroup request).enabled = true ∧
      (negotiateGroup request).enabled.containsAll request.path.requiredFeatures = true := by
  unfold negotiateGroup at h ⊢
  split at h
  · cases h
  · split_ifs at h ⊢
    · cases h
    · split at h
      · rename_i hfold
        rw [foldlM_refused hfold] at h
        cases h
      · rename_i tally hfold
        obtain ⟨henabled, hrequired⟩ := conclude_cases h
        refine ⟨fun hello hhello => ?_, ?_, hrequired⟩
        · rw [henabled]
          exact FeatureSet.containsAll_trans ((foldlM_common hfold).2 hello hhello) FeatureSet.containsAll_intersect_left
        · rw [henabled]
          exact FeatureSet.containsAll_intersect_right

end

theorem FeatureSet.intersect_self (set : FeatureSet) : set.intersect set = set := by simp [intersect]

/-! ## Admission -/

/-- A manifest without a digest is sealed, any other only validated. -/
def ManifestDocument.sealOrValidate (digestOf : Json → Digest) (manifest : ManifestDocument) : Result ManifestDocument :=
  if manifest.digest.isZero then manifest.sealed digestOf
  else do
    manifest.validate digestOf
    return manifest

/-- What a plan admits: a manifest that is valid and intact, with evidence that satisfies the policy. -/
def admitManifest (digestOf : Json → Digest) (registry : CompatibilityRegistry) (policy : EvidencePolicy)
    (manifest : ManifestDocument) : Result ManifestDocument := do
  let admitted ← manifest.sealOrValidate digestOf
  let intact := if admitted.digest.isZero then .ok () else admitted.verifyDigest digestOf
  intact
  let evidence := verifyEvidence admitted.compatibility registry policy
  refuseUnless evidence.satisfied ⟨.compatibilityInsufficient, "compatibility evidence does not satisfy the configured policy",
    .ofPairs [("rationale", .string evidence.rationale)]⟩
  return admitted

namespace ManifestDocument

/-- The negotiation of a preflight, for the hellos of the two nodes. -/
def negotiation (manifest : ManifestDocument) (source target : ProtocolHello) : GroupNegotiationRequest :=
  { participants := [source, target]
    requiredParticipants := [manifest.source.id, manifest.target.id]
    path := manifest.protocol
    allowedSchemas := [manifest.source.schema, manifest.target.schema] }

/-- What a decision demands of the negotiations and the window of a campaign; a bound of 0 is none. -/
structure Gated (manifest : ManifestDocument) (decision : CompatibilityDecision) : Prop where
  enabled : ∀ source target, (negotiateGroup (manifest.negotiation source target)).usable = true →
    let enabled := (negotiateGroup (manifest.negotiation source target)).enabled
    source.offers.containsAll enabled = true ∧ target.offers.containsAll enabled = true ∧
      manifest.protocol.allowedFeatures.containsAll enabled = true ∧ decision.certifiedFeatures.containsAll enabled = true ∧
      enabled.containsAll manifest.protocol.requiredFeatures = true
  duration : decision.maxMixedVersionMs ≠ 0 → manifest.admitted.effectiveWindow.maxDurationMs ≤ decision.maxMixedVersionMs
  operations : decision.maxMixedVersionOperations ≠ 0 →
    manifest.admitted.effectiveWindow.maxOperations ≤ decision.maxMixedVersionOperations

/-- A bound holds of the declared value, or of the bound that was declared with it. -/
def BoundHolds (bound value declared : Nat) : Prop := bound ≠ 0 → value ≤ bound ∨ declared ≠ 0 ∧ declared ≤ bound

/-- What the manifest declares is within the decision. -/
structure DeclaresWithin (manifest : ManifestDocument) (decision : CompatibilityDecision) : Prop where
  features : decision.certifiedFeatures.containsAll manifest.protocol.allowedFeatures = true
  duration : BoundHolds decision.maxMixedVersionMs manifest.window.maxDurationMs manifest.compatibility.maxMixedVersionMs
  operations : BoundHolds decision.maxMixedVersionOperations manifest.window.maxOperations
    manifest.compatibility.maxMixedVersionOperations

/-! ## What is admitted -/

section
variable {digestOf : Json → Digest} {manifest : ManifestDocument}

/-- What validation says of the evidence and the two components. -/
structure Admissible (manifest : ManifestDocument) : Prop where
  source : manifest.source.isValid = true
  target : manifest.target.isValid = true
  subject : manifest.compatibility.subject = manifest.source.id
  sourceVersion : manifest.compatibility.source = manifest.source.software
  targetVersion : manifest.compatibility.target = manifest.target.software
  accepts : manifest.protocol.accepts manifest.source.protocol = true
  allowed : manifest.protocol.allowedFeatures.containsAll manifest.protocol.requiredFeatures = true

theorem admissible_of_validate (h : manifest.validate digestOf = .ok ()) : manifest.Admissible := by
  simp only [validate, validateIdentity, validateEvidence, validateProtocol, Result.bind_eq_ok, refuseUnless_eq_ok,
    Bool.and_eq_true, decide_eq_true_eq] at h
  obtain ⟨_, ⟨_, -, _, -, _, -, _, hsource, _, htarget, -⟩, _, ⟨_, -, _, -, _, hsubject, _, ⟨hsourceVersion, htargetVersion⟩, -⟩,
    _, -, _, -, _, -, _, ⟨_, -, _, haccepts, _, -, _, -, _, -, _, hallowed, -⟩, -⟩ := h
  exact ⟨hsource, htarget, hsubject, hsourceVersion, htargetVersion, haccepts, hallowed⟩

/-- An admitted manifest is admissible, and the registry has a decision for its pair. -/
theorem admitManifest_cases {registry : CompatibilityRegistry} {policy : EvidencePolicy} {admitted : ManifestDocument}
    (h : admitManifest digestOf registry policy manifest = .ok admitted) : admitted.Admissible ∧
      ∃ decision, registry.decide admitted.source.id admitted.source.software admitted.target.software = .ok decision := by
  obtain ⟨sealed, hsealed, h⟩ := Result.bind_eq_ok.mp h
  obtain ⟨_, -, h⟩ := Result.bind_eq_ok.mp h
  obtain ⟨_, hsatisfied, h⟩ := Result.bind_eq_ok.mp h
  cases h
  have hadmissible : admitted.Admissible := by
    unfold sealOrValidate at hsealed
    split_ifs at hsealed
    · obtain ⟨_, hvalid, hsealed⟩ := Result.bind_eq_ok.mp hsealed
      cases hsealed
      exact { admissible_of_validate hvalid with }
    · obtain ⟨_, hvalid, hsealed⟩ := Result.bind_eq_ok.mp hsealed
      cases hsealed
      exact admissible_of_validate hvalid
  refine ⟨hadmissible, ?_⟩
  rw [refuseUnless_eq_ok, verifyEvidence, hadmissible.subject, hadmissible.sourceVersion, hadmissible.targetVersion] at hsatisfied
  split at hsatisfied
  · cases hsatisfied
  · rename_i decision hdecision
    exact ⟨decision, hdecision⟩

/-- A node of the given name at the version of the source, with the features that are allowed. -/
def helloAs (manifest : ManifestDocument) (component : ComponentId) : ProtocolHello :=
  { component
    incarnation := ⟨component, ⟨1 :: List.replicate 15 0, by decide⟩, 1⟩
    software := manifest.source.software
    protocol := manifest.source.protocol
    schema := manifest.source.schema
    features := manifest.protocol.allowedFeatures.bits.toNat
    epoch := 0
    generation := 0
    holdsAuthority := false }

theorem offers_helloAs (component : ComponentId) : (manifest.helloAs component).offers = manifest.protocol.allowedFeatures := by
  simp [helloAs, ProtocolHello.offers, FeatureSet.ofBits]

theorem isValid_helloAs (h : manifest.Admissible) {component : ComponentId} (hcomponent : component.isValid = true) :
    (manifest.helloAs component).isValid = true := by
  have hsource := h.source
  simp only [ComponentDocument.isValid, Bool.and_eq_true] at hsource
  obtain ⟨⟨⟨⟨⟨-, hsoftware⟩, hprotocol⟩, hschema⟩, -⟩, -⟩ := hsource
  have huuid : (⟨1 :: List.replicate 15 0, by decide⟩ : Uuid128).isValid = true := by decide
  simp only [ProtocolHello.isValid, IncarnationId.isValid, helloAs, hcomponent, hsoftware, hprotocol, huuid,
    Bool.and_true]
  exact hschema

theorem isValid_id {spec : ComponentDocument} (h : spec.isValid = true) : spec.id.isValid = true := by
  simp only [ComponentDocument.isValid, Bool.and_eq_true] at h
  exact h.1.1.1.1.1

theorem negotiate_self (version : ProtocolVersion) : version.negotiate version = version := by
  simp [ProtocolVersion.negotiate]

/-- One such node leaves the tally as it is. -/
theorem tallyHello_helloAs (h : manifest.Admissible) {component : ComponentId} (hcomponent : component.isValid = true)
    (source target : ProtocolHello) :
    (manifest.negotiation source target).tallyHello ⟨manifest.source.protocol, manifest.protocol.allowedFeatures, []⟩
        (manifest.helloAs component) = .ok ⟨manifest.source.protocol, manifest.protocol.allowedFeatures, []⟩ := by
  have hvalid := isValid_helloAs h hcomponent
  have hoffers : (manifest.helloAs component).offers = manifest.protocol.allowedFeatures := offers_helloAs component
  have hprotocol : (manifest.helloAs component).protocol = manifest.source.protocol := rfl
  have hschema : (manifest.helloAs component).schema ∈ (manifest.negotiation source target).allowedSchemas := List.mem_cons_self
  have hmajor : manifest.source.protocol.compatibleWith manifest.source.protocol = true := decide_eq_true rfl
  simp only [GroupNegotiationRequest.tallyHello, hvalid, hprotocol, hmajor, hoffers, negotiate_self, if_pos hschema,
    Bool.not_true, Bool.false_eq_true, if_false, FeatureSet.intersect_self]

theorem foldlM_pair {request : GroupNegotiationRequest} {tally : Tally} {first second : ProtocolHello}
    (hfirst : request.tallyHello tally first = .ok tally) (hsecond : request.tallyHello tally second = .ok tally) :
    [first, second].foldlM request.tallyHello tally = .ok tally := by
  simp only [List.foldlM_cons, List.foldlM_nil, hfirst, hsecond, bind, Except.bind, pure, Except.pure]

/-- The tally under which all that is allowed is common. -/
theorem conclude_agreed {request : GroupNegotiationRequest} {version : ProtocolVersion} (haccepts : request.path.accepts version = true)
    (hallowed : request.path.allowedFeatures.containsAll request.path.requiredFeatures = true) :
    (request.conclude ⟨version, request.path.allowedFeatures, []⟩).usable = true ∧
      (request.conclude ⟨version, request.path.allowedFeatures, []⟩).enabled = request.path.allowedFeatures := by
  have hmissing : (request.path.requiredFeatures.without request.path.allowedFeatures).isEmpty = true :=
    FeatureSet.isEmpty_without.mpr hallowed
  simp only [GroupNegotiationRequest.conclude, FeatureSet.intersect_self, haccepts, hmissing, ne_eq, not_true_eq_false,
    Bool.not_true, Bool.false_eq_true, if_false]
  split_ifs <;> exact ⟨rfl, rfl⟩

/-- The result where every participant is counted. -/
theorem negotiateGroup_of_fold {request : GroupNegotiationRequest} {first : ProtocolHello} {rest : List ProtocolHello} {tally : Tally}
    (hparticipants : request.participants = first :: rest) (habsent : request.absent = [])
    (hfold : (first :: rest).foldlM request.tallyHello ⟨first.protocol, first.offers, []⟩ = .ok tally) :
    negotiateGroup request = request.conclude tally := by
  unfold negotiateGroup
  rw [hparticipants]
  simp only [habsent, ne_eq, not_true_eq_false, if_false, hfold]

/-- Two such nodes agree on everything that is allowed. -/
theorem negotiateGroup_helloAs (h : manifest.Admissible) :
    let agreed := negotiateGroup (manifest.negotiation (manifest.helloAs manifest.source.id) (manifest.helloAs manifest.target.id))
    agreed.usable = true ∧ agreed.enabled = manifest.protocol.allowedFeatures := by
  have habsent : (manifest.negotiation (manifest.helloAs manifest.source.id) (manifest.helloAs manifest.target.id)).absent = [] := by
    simp [GroupNegotiationRequest.absent, negotiation, helloAs]
  have hfold := foldlM_pair
    (tallyHello_helloAs h (isValid_id h.source) (manifest.helloAs manifest.source.id) (manifest.helloAs manifest.target.id))
    (tallyHello_helloAs h (isValid_id h.target) _ _)
  rw [← show (manifest.helloAs manifest.source.id).offers = manifest.protocol.allowedFeatures from
    offers_helloAs manifest.source.id] at hfold
  rw [negotiateGroup_of_fold rfl habsent hfold, offers_helloAs]
  exact conclude_agreed h.accepts h.allowed

/-- A smaller of two values keeps a bound when one of them does. -/
theorem boundHolds_iff {bound value declared : Nat} :
    (bound ≠ 0 → (if declared ≠ 0 then min value declared else value) ≤ bound) ↔ BoundHolds bound value declared := by
  unfold BoundHolds
  split_ifs <;> omega

/-- The decision bounds negotiations and window of a manifest exactly when what the manifest declares is within it. -/
theorem gated_iff_of_admissible (h : manifest.Admissible) (decision : CompatibilityDecision) :
    manifest.Gated decision ↔ manifest.DeclaresWithin decision := by
  constructor
  · intro hgated
    obtain ⟨husable, henabled⟩ := negotiateGroup_helloAs h
    obtain ⟨-, -, -, hcertified, -⟩ := hgated.enabled _ _ husable
    exact ⟨henabled ▸ hcertified, boundHolds_iff.mp hgated.duration, boundHolds_iff.mp hgated.operations⟩
  · intro hwithin
    refine ⟨fun source target husable => ?_, boundHolds_iff.mpr hwithin.duration, boundHolds_iff.mpr hwithin.operations⟩
    obtain ⟨hoffered, hallowed, hrequired⟩ := usable_cases husable
    exact ⟨hoffered source List.mem_cons_self, hoffered target (List.mem_cons_of_mem _ List.mem_cons_self), hallowed,
      FeatureSet.containsAll_trans hwithin.features hallowed, hrequired⟩

end

end ManifestDocument

/-- For a manifest that a plan admits, the decision that the registry has for its pair bounds every negotiation of a preflight and
the window of the campaign exactly when the features that the manifest allows are certified by it and the declared bounds
are within its own. -/
theorem gated_iff {digestOf : Json → Digest} {registry : CompatibilityRegistry} {policy : EvidencePolicy}
    {manifest admitted : ManifestDocument} (h : admitManifest digestOf registry policy manifest = .ok admitted) :
    ∃ decision, registry.decide admitted.source.id admitted.source.software admitted.target.software = .ok decision ∧
      (admitted.Gated decision ↔ admitted.DeclaresWithin decision) := by
  obtain ⟨hadmissible, decision, hdecision⟩ := ManifestDocument.admitManifest_cases h
  exact ⟨decision, hdecision, ManifestDocument.gated_iff_of_admissible hadmissible decision⟩

/-- A plan admits a valid manifest that was not sealed, once its evidence is satisfied. -/
theorem admitManifest_unsealed {digestOf : Json → Digest} {registry : CompatibilityRegistry} {policy : EvidencePolicy}
    {manifest : ManifestDocument} (hzero : manifest.digest.isZero = true) (hvalid : manifest.validate digestOf = .ok ())
    (hsatisfied : (verifyEvidence manifest.compatibility registry policy).satisfied = true) :
    admitManifest digestOf registry policy manifest = .ok { manifest with digest := manifest.computeDigest digestOf } := by
  have hintact : ({ manifest with digest := manifest.computeDigest digestOf } : ManifestDocument).verifyDigest digestOf = .ok () :=
    refuseUnless_eq_ok.mpr (decide_eq_true rfl)
  have hsealed : manifest.sealOrValidate digestOf = .ok { manifest with digest := manifest.computeDigest digestOf } := by
    rw [ManifestDocument.sealOrValidate, if_pos hzero, ManifestDocument.sealed, hvalid]
    rfl
  unfold admitManifest
  rw [hsealed]
  refine Result.bind_eq_ok.mpr ⟨_, rfl, ?_⟩
  refine Result.bind_eq_ok.mpr ⟨(), ?_, Result.bind_eq_ok.mpr ⟨(), refuseUnless_eq_ok.mpr hsatisfied, rfl⟩⟩
  split_ifs
  · rfl
  · exact hintact

namespace Sample

def transferOnly : FeatureSet := FeatureSet.none.add .snapshotTransfer

/-- Tells decisions that certify nothing from all else. -/
def digestByFeatures (value : Json) : Digest :=
  if (value.find "certified_features").any (·.size = 0) then ⟨List.replicate 32 1, List.length_replicate⟩ else .zero

/-- A decision of the sample pair that certifies some features. -/
def certifying (features : FeatureSet) : CompatibilityDecision :=
  (({ decisionOf 1 with certifiedFeatures := features } : CompatibilityDecision).sealed digestByFeatures)

/-- A manifest that allows the transfer of snapshots, on the evidence that it is certified. -/
def allowing : ManifestDocument :=
  { manifestOf 1 [] with
    compatibility := certifying transferOnly
    protocol := { accepted := [⟨1, 0⟩], allowedFeatures := transferOnly } }

theorem allowing_valid : allowing.validate digestByFeatures = .ok () := eq_ok_of_isOk (by decide +kernel)

end Sample

open Sample in
/-- The registry still has the decision of the manifest. -/
theorem gated_iff_sample :
    ∃ admitted, admitManifest digestByFeatures [certifying transferOnly] .requireExactMatch allowing = .ok admitted ∧
      admitted.Gated (certifying transferOnly) := by
  have hadmitted : admitManifest digestByFeatures [certifying transferOnly] .requireExactMatch allowing = _ :=
    admitManifest_unsealed (by decide +kernel) allowing_valid (by decide +kernel)
  obtain ⟨decision, hdecision, hgated⟩ := gated_iff hadmitted
  have hsame : decision = certifying transferOnly := by
    have hfound : CompatibilityRegistry.decide [certifying transferOnly] evolution ⟨1, 0, 0, ""⟩ ⟨1, 0, 0, ""⟩ =
        .ok (certifying transferOnly) := rfl
    exact Except.ok.inj (hdecision.symm.trans hfound)
  subst hsame
  exact ⟨_, hadmitted, hgated.mpr ⟨by decide, fun h => absurd rfl h, fun h => absurd rfl h⟩⟩

open Sample in
/-- The registry has withdrawn the certification and kept the verdict: the plan is admitted on a refresh, and two nodes that have
the feature enable it. -/
theorem refreshed_ungated : ¬ ∀ (digestOf : Json → Digest) (registry : CompatibilityRegistry) (policy : EvidencePolicy)
    (manifest admitted : ManifestDocument) (decision : CompatibilityDecision),
    admitManifest digestOf registry policy manifest = .ok admitted →
    registry.decide admitted.source.id admitted.source.software admitted.target.software = .ok decision →
    admitted.Gated decision := by
  intro hall
  have hadmitted : admitManifest digestByFeatures [certifying .none] .allowRefreshIfVerdictUnchanged allowing = _ :=
    admitManifest_unsealed (by decide +kernel) allowing_valid (by decide +kernel)
  have hgated := hall _ _ _ _ _ (certifying .none) hadmitted rfl
  obtain ⟨husable, henabled⟩ := ManifestDocument.negotiateGroup_helloAs (ManifestDocument.admitManifest_cases hadmitted).1
  obtain ⟨-, -, -, hcertified, -⟩ := hgated.enabled _ _ husable
  rw [henabled] at hcertified
  exact absurd hcertified (by decide)

end FabricEvolution
