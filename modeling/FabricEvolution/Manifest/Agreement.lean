import FabricEvolution.Manifest.Negotiation

/-!
# What participants agree on

* `negotiate` : the negotiation of two participants;
* `Agreement` : the values of a result, without its wording; `Agreement.settle` : what all may agree on;
* `Lowest`, `OfferedByAll`, `Concerted` : the lowest version, the common features and the demands on all participants;
* `foldlM_counted`, `foldlM_uncounted` : the tally of a group; `agreement_concerted`, `agreement_not_concerted` : its result;
* `negotiation_agrees` : both negotiations agree, in any order of the participants.
-/

namespace FabricEvolution
open Lib

/-! ## Two participants -/

/-- The refusal of a schema that the manifest does not list. -/
def schemaRefusal (allowedSchemas : List Nat) (hello : ProtocolHello) : List String :=
  if hello.schema ∈ allowedSchemas then []
  else [hello.component.str ++ " reports schema " ++ Nat.repr hello.schema ++ " which the manifest does not list"]

def negotiate (localHello peer : ProtocolHello) (path : ProtocolPath) (allowedSchemas : List Nat) : NegotiatedProtocol :=
  let effective := localHello.protocol.negotiate peer.protocol
  let schemas := schemaRefusal allowedSchemas localHello ++ schemaRefusal allowedSchemas peer
  let common := (localHello.offers.intersect peer.offers).intersect path.allowedFeatures
  let missing := path.requiredFeatures.without common
  if !localHello.isValid || !peer.isValid then
    { refusals := ["participant hello is incomplete"]
      rationale := "refused: a participant did not present a complete hello" }
  else if !localHello.protocol.compatibleWith peer.protocol then
    { refusals := ["protocol major mismatch: " ++ localHello.protocol.toString ++ " vs " ++ peer.protocol.toString]
      rationale := "refused: protocol major versions differ" }
  else if !path.accepts effective then
    { refusals := ["effective protocol version " ++ effective.toString ++ " is not on the manifest negotiation path"]
      rationale := "refused: negotiated protocol version is not declared" }
  else if schemas ≠ [] then
    { refusals := schemas
      rationale := "refused: a participant reports a schema outside the declared migration envelope" }
  else if !missing.isEmpty then
    { missingRequired := missing
      refusals := missing.names.map fun name => "required feature not supported by every participant: " ++ name
      rationale := "refused: the manifest requires features the participants do not jointly support" }
  else if effective = localHello.protocol ∧ effective = peer.protocol then
    { mode := .compatible, effective, enabled := common, disabled := path.allowedFeatures.without common
      rationale := "compatible: participants agree on protocol and features" }
  else
    { mode := .restricted, effective, enabled := common, disabled := path.allowedFeatures.without common
      rationale := "restricted: operating at the lower common protocol version " ++ effective.toString }

/-! ## Agreements -/

/-- The values of a result, without its wording. -/
structure Agreement where
  mode : NegotiationMode
  effective : ProtocolVersion
  enabled : FeatureSet
  disabled : FeatureSet
  missingRequired : FeatureSet
deriving DecidableEq

namespace Agreement

/-- That of a refusal. -/
def blank : Agreement := ⟨.refused, ⟨0, 0⟩, .none, .none, .none⟩

/-- What is agreed on at a version, with features that all offer; `level` if all are at that version. -/
def settle (path : ProtocolPath) (effective : ProtocolVersion) (offered : FeatureSet) (level : Bool) : Agreement :=
  let enabled := offered.intersect path.allowedFeatures
  let missing := path.requiredFeatures.without enabled
  if !path.accepts effective then blank
  else if !missing.isEmpty then { blank with missingRequired := missing }
  else ⟨if level then .compatible else .restricted, effective, enabled, path.allowedFeatures.without enabled, .none⟩

end Agreement

def NegotiatedProtocol.agreement (negotiated : NegotiatedProtocol) : Agreement :=
  ⟨negotiated.mode, negotiated.effective, negotiated.enabled, negotiated.disabled, negotiated.missingRequired⟩

/-- The version of a participant whose minor is the lowest of all. -/
def Lowest (participants : List ProtocolHello) (version : ProtocolVersion) : Prop :=
  (∃ hello ∈ participants, hello.protocol = version) ∧ ∀ hello ∈ participants, version.minor ≤ hello.protocol.minor

/-- The features that all participants offer. -/
def OfferedByAll (participants : List ProtocolHello) (features : FeatureSet) : Prop :=
  ∀ i, features.bits.getLsbD i = participants.all fun hello => hello.offers.bits.getLsbD i

/-- The demands on the participants. -/
structure Concerted (request : GroupNegotiationRequest) : Prop where
  present : ∀ required ∈ request.requiredParticipants, ∃ hello ∈ request.participants, hello.component = required
  valid : ∀ hello ∈ request.participants, hello.isValid = true
  majors : ∀ hello ∈ request.participants, ∀ other ∈ request.participants, hello.protocol.major = other.protocol.major
  schemas : ∀ hello ∈ request.participants, hello.schema ∈ request.allowedSchemas

section
variable {request : GroupNegotiationRequest} {tally : Tally} {hellos : List ProtocolHello}

theorem agreement_conclude {effective : ProtocolVersion} {offered : FeatureSet} :
    (request.conclude ⟨effective, offered, []⟩).agreement =
      .settle request.path effective offered (request.participants.all (·.protocol = effective)) := by
  unfold GroupNegotiationRequest.conclude Agreement.settle
  simp only [ne_eq, not_true_eq_false, if_false]
  split_ifs <;> rfl

/-- A hello that meets the demands is counted. -/
theorem tallyHello_counted {hello : ProtocolHello} (hvalid : hello.isValid = true)
    (hmajor : hello.protocol.major = tally.effective.major) (hschema : hello.schema ∈ request.allowedSchemas) :
    request.tallyHello tally hello =
      .ok ⟨tally.effective.negotiate hello.protocol, tally.common.intersect hello.offers, tally.refusals⟩ := by
  have hcompatible : tally.effective.compatibleWith hello.protocol = true := decide_eq_true hmajor.symm
  rw [GroupNegotiationRequest.tallyHello, hvalid, hcompatible, if_pos hschema]
  rfl

/-- The tally of participants that meet the demands. -/
structure Counted (hellos : List ProtocolHello) (before after : Tally) : Prop where
  major : after.effective.major = before.effective.major
  below : after.effective.minor ≤ before.effective.minor
  lowest : ∀ hello ∈ hellos, after.effective.minor ≤ hello.protocol.minor
  reached : after.effective = before.effective ∨ ∃ hello ∈ hellos, hello.protocol = after.effective
  common : ∀ i, after.common.bits.getLsbD i =
    (before.common.bits.getLsbD i && hellos.all fun hello => hello.offers.bits.getLsbD i)
  refusals : after.refusals = before.refusals

theorem foldlM_counted (hvalid : ∀ hello ∈ hellos, hello.isValid = true)
    (hmajors : ∀ hello ∈ hellos, hello.protocol.major = tally.effective.major)
    (hschemas : ∀ hello ∈ hellos, hello.schema ∈ request.allowedSchemas) :
    ∃ final, hellos.foldlM request.tallyHello tally = .ok final ∧ Counted hellos tally final := by
  induction hellos generalizing tally with
  | nil =>
    refine ⟨tally, rfl, rfl, le_refl _, fun _ h => absurd h List.not_mem_nil, .inl rfl, fun i => ?_, rfl⟩
    rw [List.all_nil, Bool.and_true]
  | cons hello rest ih =>
    obtain ⟨hvalid₁, hvalid⟩ := List.forall_mem_cons.mp hvalid
    obtain ⟨hmajor₁, hmajors⟩ := List.forall_mem_cons.mp hmajors
    obtain ⟨hschema₁, hschemas⟩ := List.forall_mem_cons.mp hschemas
    have hmajor : (tally.effective.negotiate hello.protocol).major = tally.effective.major := rfl
    have hminor : (tally.effective.negotiate hello.protocol).minor = min tally.effective.minor hello.protocol.minor := rfl
    obtain ⟨final, hfinal, hcounted⟩ := @ih
      ⟨tally.effective.negotiate hello.protocol, tally.common.intersect hello.offers, tally.refusals⟩ hvalid hmajors hschemas
    have hbelow := hcounted.below
    rw [hminor] at hbelow
    refine ⟨final, ?_, hcounted.major, by omega, ?_, ?_, fun i => ?_, hcounted.refusals⟩
    · rw [List.foldlM_cons, tallyHello_counted hvalid₁ hmajor₁ hschema₁]
      exact hfinal
    · exact List.forall_mem_cons.mpr ⟨by omega, hcounted.lowest⟩
    · rcases hcounted.reached with h | ⟨other, hother, h⟩
      · rw [h]
        rcases Nat.le_total tally.effective.minor hello.protocol.minor with hle | hle
        · left
          rw [ProtocolVersion.negotiate, Nat.min_eq_left hle]
        · right
          refine ⟨hello, List.mem_cons_self, ?_⟩
          rw [ProtocolVersion.negotiate, Nat.min_eq_right hle, ← hmajor₁]
      · exact .inr ⟨other, List.mem_cons_of_mem _ hother, h⟩
    · rw [hcounted.common, FeatureSet.getLsbD_intersect, List.all_cons, Bool.and_assoc]

/-- A refusal leaves no values. -/
theorem tallyHello_blank {hello : ProtocolHello} {refused : NegotiatedProtocol}
    (h : request.tallyHello tally hello = .error refused) : refused.agreement = .blank := by
  unfold GroupNegotiationRequest.tallyHello at h
  split_ifs at h
  all_goals cases h; rfl

theorem foldlM_blank {refused : NegotiatedProtocol} (h : hellos.foldlM request.tallyHello tally = .error refused) :
    refused.agreement = .blank := by
  induction hellos generalizing tally with
  | nil => cases h
  | cons hello rest ih =>
    rw [List.foldlM_cons] at h
    cases hstep : request.tallyHello tally hello with
    | error refused' =>
      rw [hstep] at h
      cases h
      exact tallyHello_blank hstep
    | ok next =>
      rw [hstep] at h
      exact ih h

/-- A hello that is counted meets the demands, or adds a refusal. -/
theorem tallyHello_demands {hello : ProtocolHello} {next : Tally} (h : request.tallyHello tally hello = .ok next) :
    hello.isValid = true ∧ hello.protocol.major = tally.effective.major ∧ next.effective.major = tally.effective.major ∧
      (next.refusals = [] → tally.refusals = [] ∧ hello.schema ∈ request.allowedSchemas) := by
  unfold GroupNegotiationRequest.tallyHello at h
  split_ifs at h with hvalid hcompatible hschema
  · cases h
    refine ⟨by simpa using hvalid, ?_, rfl, fun hrefusals => ⟨hrefusals, hschema⟩⟩
    have hmajor : tally.effective.compatibleWith hello.protocol = true := by simpa using hcompatible
    exact (of_decide_eq_true hmajor).symm
  · cases h
    refine ⟨by simpa using hvalid, ?_, rfl, fun hrefusals => absurd hrefusals (List.concat_ne_nil _ _)⟩
    have hmajor : tally.effective.compatibleWith hello.protocol = true := by simpa using hcompatible
    exact (of_decide_eq_true hmajor).symm

theorem foldlM_demands {final : Tally} (h : hellos.foldlM request.tallyHello tally = .ok final) (hrefusals : final.refusals = []) :
    tally.refusals = [] ∧ ∀ hello ∈ hellos, hello.isValid = true ∧ hello.protocol.major = tally.effective.major ∧
      hello.schema ∈ request.allowedSchemas := by
  induction hellos generalizing tally with
  | nil =>
    cases h
    exact ⟨hrefusals, fun _ hh => absurd hh List.not_mem_nil⟩
  | cons hello rest ih =>
    rw [List.foldlM_cons] at h
    cases hstep : request.tallyHello tally hello with
    | error refused =>
      rw [hstep] at h
      cases h
    | ok next =>
      rw [hstep] at h
      obtain ⟨hvalid, hmajor, hnext, hrest⟩ := tallyHello_demands hstep
      obtain ⟨hnone, hall⟩ := ih h
      obtain ⟨hnone, hschema⟩ := hrest hnone
      rw [hnext] at hall
      exact ⟨hnone, List.forall_mem_cons.mpr ⟨⟨hvalid, hmajor, hschema⟩, hall⟩⟩

/-! ## The result of a group -/

theorem absent_eq_nil : request.absent = [] ↔
    ∀ required ∈ request.requiredParticipants, ∃ hello ∈ request.participants, hello.component = required := by
  simp [GroupNegotiationRequest.absent]

theorem Lowest.unique {version version' : ProtocolVersion}
    (hmajors : ∀ hello ∈ hellos, ∀ other ∈ hellos, hello.protocol.major = other.protocol.major)
    (h : Lowest hellos version) (h' : Lowest hellos version') : version = version' := by
  obtain ⟨⟨hello, hhello, rfl⟩, hlow⟩ := h
  obtain ⟨⟨other, hother, rfl⟩, hlow'⟩ := h'
  have hmajor := hmajors hello hhello other hother
  have hminor : hello.protocol.minor = other.protocol.minor := Nat.le_antisymm (hlow other hother) (hlow' hello hhello)
  revert hmajor hminor
  cases hello.protocol
  cases other.protocol
  rintro rfl rfl
  rfl

theorem OfferedByAll.unique {features features' : FeatureSet} (h : OfferedByAll hellos features) (h' : OfferedByAll hellos features') :
    features = features' :=
  FeatureSet.ext_bits fun i _ => (h i).trans (h' i).symm

/-- Participants that meet the demands settle on their lowest version and common features. -/
theorem agreement_concerted (h : Concerted request) (hnone : request.participants ≠ []) :
    ∃ effective offered, Lowest request.participants effective ∧ OfferedByAll request.participants offered ∧
      (negotiateGroup request).agreement =
        .settle request.path effective offered (request.participants.all (·.protocol = effective)) := by
  obtain ⟨first, rest, hparticipants⟩ := List.exists_cons_of_ne_nil hnone
  have hfirst : first ∈ request.participants := by
    rw [hparticipants]
    exact List.mem_cons_self
  have hfold : ∃ final, request.participants.foldlM request.tallyHello ⟨first.protocol, first.offers, []⟩ = .ok final ∧
      Counted request.participants ⟨first.protocol, first.offers, []⟩ final :=
    foldlM_counted h.valid (fun hello hhello => h.majors hello hhello first hfirst) h.schemas
  obtain ⟨⟨effective, offered, refusals⟩, hfinal, hcounted⟩ := hfold
  obtain rfl : refusals = [] := hcounted.refusals
  refine ⟨effective, offered, ⟨?_, hcounted.lowest⟩, fun i => ?_, ?_⟩
  · rcases hcounted.reached with heq | hreached
    · exact ⟨first, hfirst, heq.symm⟩
    · exact hreached
  · rw [hcounted.common i, Bool.and_eq_right_iff_imp]
    intro hall
    exact List.all_eq_true.mp hall first hfirst
  · rw [hparticipants] at hfinal
    rw [ManifestDocument.negotiateGroup_of_fold hparticipants (absent_eq_nil.mpr h.present) hfinal, agreement_conclude]

/-- Participants that do not meet the demands agree on nothing. -/
theorem agreement_not_concerted (h : ¬ (Concerted request ∧ request.participants ≠ [])) :
    (negotiateGroup request).agreement = .blank := by
  unfold negotiateGroup
  split
  · rfl
  · rename_i first rest hparticipants
    split_ifs with habsent
    · rfl
    · split
      · rename_i hfold
        exact foldlM_blank hfold
      · rename_i tally hfold
        by_cases hrefusals : tally.refusals = []
        · obtain ⟨-, hall⟩ := foldlM_demands hfold hrefusals
          refine absurd ⟨⟨absent_eq_nil.mp (not_not.mp habsent), fun hello hhello => (hall hello hhello).1, ?_,
            fun hello hhello => (hall hello hhello).2.2⟩, ?_⟩ h
          · intro hello hhello other hother
            rw [(hall hello hhello).2.1, (hall other hother).2.1]
          · rw [hparticipants]
            exact List.cons_ne_nil _ _
        · rw [GroupNegotiationRequest.conclude]
          simp only [if_pos hrefusals]
          rfl

/-- The result is that of the demands, the lowest version and the common features. -/
theorem agreement_eq_settle (h : Concerted request) {effective : ProtocolVersion} {offered : FeatureSet}
    (hlowest : Lowest request.participants effective) (hoffered : OfferedByAll request.participants offered) :
    (negotiateGroup request).agreement =
      .settle request.path effective offered (request.participants.all (·.protocol = effective)) := by
  obtain ⟨hello, hhello, -⟩ := hlowest.1
  obtain ⟨effective', offered', hlowest', hoffered', hagreement⟩ := agreement_concerted h (List.ne_nil_of_mem hhello)
  rw [hlowest.unique h.majors hlowest', hoffered.unique hoffered', hagreement]

/-- The order of the participants does not matter. -/
theorem agreement_perm {participants : List ProtocolHello} (hperm : request.participants.Perm participants) :
    (negotiateGroup { request with participants }).agreement = (negotiateGroup request).agreement := by
  have hconcerted : Concerted request ↔ Concerted { request with participants } := by
    constructor
    · intro h
      refine ⟨fun required hrequired => ?_, fun hello hhello => h.valid hello (hperm.mem_iff.mpr hhello),
        fun hello hhello other hother => h.majors hello (hperm.mem_iff.mpr hhello) other (hperm.mem_iff.mpr hother),
        fun hello hhello => h.schemas hello (hperm.mem_iff.mpr hhello)⟩
      obtain ⟨hello, hhello, hcomponent⟩ := h.present required hrequired
      exact ⟨hello, hperm.mem_iff.mp hhello, hcomponent⟩
    · intro h
      refine ⟨fun required hrequired => ?_, fun hello hhello => h.valid hello (hperm.mem_iff.mp hhello),
        fun hello hhello other hother => h.majors hello (hperm.mem_iff.mp hhello) other (hperm.mem_iff.mp hother),
        fun hello hhello => h.schemas hello (hperm.mem_iff.mp hhello)⟩
      obtain ⟨hello, hhello, hcomponent⟩ := h.present required hrequired
      exact ⟨hello, hperm.mem_iff.mpr hhello, hcomponent⟩
  by_cases h : Concerted request ∧ request.participants ≠ []
  · obtain ⟨effective, offered, hlowest, hoffered, hagreement⟩ := agreement_concerted h.1 h.2
    obtain ⟨⟨hello, hhello, heffective⟩, hlow⟩ := hlowest
    have hlowest' : Lowest participants effective :=
      ⟨⟨hello, hperm.mem_iff.mp hhello, heffective⟩, fun other hother => hlow other (hperm.mem_iff.mpr hother)⟩
    have hoffered' : OfferedByAll participants offered := fun i => (hoffered i).trans hperm.all_eq
    rw [hagreement, agreement_eq_settle (hconcerted.mp h.1) hlowest' hoffered', hperm.all_eq]
  · rw [agreement_not_concerted h, agreement_not_concerted]
    rintro ⟨h', hnone⟩
    refine h ⟨hconcerted.mpr h', fun hnil => hnone ?_⟩
    rw [hnil] at hperm
    exact List.nil_perm.mp hperm

/-! ## Two participants and a group of two -/

theorem schemaRefusal_eq_nil {allowedSchemas : List Nat} {hello : ProtocolHello} :
    schemaRefusal allowedSchemas hello = [] ↔ hello.schema ∈ allowedSchemas := by
  unfold schemaRefusal
  split_ifs with h <;> simp [h]

variable {localHello peer : ProtocolHello} {path : ProtocolPath} {allowedSchemas : List Nat} {required : List ComponentId}

theorem concerted_pair (hrequired : ∀ component ∈ required, component = localHello.component ∨ component = peer.component) :
    Concerted ⟨[localHello, peer], required, path, allowedSchemas⟩ ↔ (localHello.isValid = true ∧ peer.isValid = true) ∧
      localHello.protocol.major = peer.protocol.major ∧ localHello.schema ∈ allowedSchemas ∧ peer.schema ∈ allowedSchemas := by
  constructor
  · intro h
    have hlocal : localHello ∈ [localHello, peer] := List.mem_cons_self
    have hpeer : peer ∈ [localHello, peer] := List.mem_cons_of_mem _ List.mem_cons_self
    exact ⟨⟨h.valid _ hlocal, h.valid _ hpeer⟩, h.majors _ hlocal _ hpeer, h.schemas _ hlocal, h.schemas _ hpeer⟩
  · rintro ⟨⟨hlocal, hpeer⟩, hmajor, hschema, hschema'⟩
    refine ⟨fun component hcomponent => ?_, by simp [hlocal, hpeer], by simp [hmajor], by simp [hschema, hschema']⟩
    rcases hrequired component hcomponent with rfl | rfl
    · exact ⟨localHello, List.mem_cons_self, rfl⟩
    · exact ⟨peer, List.mem_cons_of_mem _ List.mem_cons_self, rfl⟩

theorem lowest_pair (hmajor : localHello.protocol.major = peer.protocol.major) :
    Lowest [localHello, peer] (localHello.protocol.negotiate peer.protocol) := by
  have hminor : (localHello.protocol.negotiate peer.protocol).minor = min localHello.protocol.minor peer.protocol.minor := rfl
  refine ⟨?_, ?_⟩
  · rcases Nat.le_total localHello.protocol.minor peer.protocol.minor with hle | hle
    · refine ⟨localHello, List.mem_cons_self, ?_⟩
      rw [ProtocolVersion.negotiate, Nat.min_eq_left hle]
    · refine ⟨peer, List.mem_cons_of_mem _ List.mem_cons_self, ?_⟩
      rw [ProtocolVersion.negotiate, Nat.min_eq_right hle, hmajor]
  · simp only [List.forall_mem_cons, hminor]
    refine ⟨by omega, by omega, fun _ h => absurd h List.not_mem_nil⟩

theorem offeredByAll_pair : OfferedByAll [localHello, peer] (localHello.offers.intersect peer.offers) := by
  intro i
  rw [FeatureSet.getLsbD_intersect, List.all_cons, List.all_cons, List.all_nil, Bool.and_true]

/-- Two participants agree on what a group of both agrees on. -/
theorem agreement_negotiate (hrequired : ∀ component ∈ required, component = localHello.component ∨ component = peer.component) :
    (negotiate localHello peer path allowedSchemas).agreement =
      (negotiateGroup ⟨[localHello, peer], required, path, allowedSchemas⟩).agreement := by
  by_cases h : Concerted ⟨[localHello, peer], required, path, allowedSchemas⟩
  · obtain ⟨⟨hlocal, hpeer⟩, hmajor, hschema, hschema'⟩ := (concerted_pair hrequired).mp h
    rw [agreement_eq_settle h (lowest_pair hmajor) offeredByAll_pair]
    have hcompatible : localHello.protocol.compatibleWith peer.protocol = true := decide_eq_true hmajor
    simp only [negotiate, Agreement.settle, hlocal, hpeer, hcompatible, schemaRefusal_eq_nil.mpr hschema,
      schemaRefusal_eq_nil.mpr hschema', Bool.not_true, Bool.or_self, Bool.false_eq_true, if_false, List.append_nil, ne_eq,
      not_true_eq_false, List.all_cons, List.all_nil, Bool.and_true, Bool.and_eq_true, decide_eq_true_eq]
    have hlevel : (localHello.protocol = localHello.protocol.negotiate peer.protocol ∧
        peer.protocol = localHello.protocol.negotiate peer.protocol) ↔
        (localHello.protocol.negotiate peer.protocol = localHello.protocol ∧
          localHello.protocol.negotiate peer.protocol = peer.protocol) := and_congr eq_comm eq_comm
    simp only [hlevel]
    split_ifs <;> rfl
  · rw [agreement_not_concerted fun h' => h h'.1]
    rw [concerted_pair hrequired] at h
    unfold negotiate
    dsimp only
    by_cases hvalid : localHello.isValid = true ∧ peer.isValid = true
    · have hcomplete : (!localHello.isValid || !peer.isValid) = false := by rw [hvalid.1, hvalid.2]; rfl
      rw [hcomplete, if_neg Bool.false_ne_true]
      by_cases hmajor : localHello.protocol.major = peer.protocol.major
      · have hschemas : schemaRefusal allowedSchemas localHello ++ schemaRefusal allowedSchemas peer ≠ [] := by
          intro hnone
          obtain ⟨hschema, hschema'⟩ := List.append_eq_nil_iff.mp hnone
          exact h ⟨hvalid, hmajor, schemaRefusal_eq_nil.mp hschema, schemaRefusal_eq_nil.mp hschema'⟩
        rw [if_pos hschemas]
        split_ifs <;> rfl
      · have hcompatible : localHello.protocol.compatibleWith peer.protocol = false := decide_eq_false hmajor
        rw [hcompatible]
        rfl
    · have hincomplete : (!localHello.isValid || !peer.isValid) = true := by
        rw [Bool.or_eq_true, Bool.not_eq_true', Bool.not_eq_true']
        by_contra hneither
        rw [not_or, Bool.not_eq_false, Bool.not_eq_false] at hneither
        exact hvalid hneither
      rw [hincomplete]
      rfl

/-! ## Usable results -/

theorem usable_settle {effective : ProtocolVersion} {offered : FeatureSet} {level : Bool} :
    (Agreement.settle path effective offered level).mode ≠ .refused ↔
      path.accepts effective = true ∧ (offered.intersect path.allowedFeatures).containsAll path.requiredFeatures = true := by
  rw [← FeatureSet.isEmpty_without]
  unfold Agreement.settle
  cases haccepts : path.accepts effective with
  | false => simp [Agreement.blank]
  | true =>
    cases hmissing : (path.requiredFeatures.without (offered.intersect path.allowedFeatures)).isEmpty with
    | false => simp [Agreement.blank, hmissing]
    | true => cases level <;> simp [hmissing]

end

/-- A group that meets all demands, on a version of the path and with the required features. -/
structure GroupUsable (request : GroupNegotiationRequest) : Prop where
  concerted : Concerted request
  accepted : ∃ version, Lowest request.participants version ∧ request.path.accepts version = true
  required : ∀ i, request.path.requiredFeatures.bits.getLsbD i = true →
    (∀ hello ∈ request.participants, hello.offers.bits.getLsbD i = true) ∧ request.path.allowedFeatures.bits.getLsbD i = true

theorem usable_iff {request : GroupNegotiationRequest} : (negotiateGroup request).usable = true ↔ GroupUsable request := by
  have hmode : (negotiateGroup request).usable = true ↔ (negotiateGroup request).agreement.mode ≠ .refused := decide_eq_true_iff
  rw [hmode]
  constructor
  · intro h
    by_cases hall : Concerted request ∧ request.participants ≠ []
    · obtain ⟨effective, offered, hlowest, hoffered, hagreement⟩ := agreement_concerted hall.1 hall.2
      rw [hagreement, usable_settle, FeatureSet.containsAll_iff] at h
      refine ⟨hall.1, ⟨effective, hlowest, h.1⟩, fun i hi => ?_⟩
      have hbit := h.2 i hi
      rw [FeatureSet.getLsbD_intersect, Bool.and_eq_true, hoffered i, List.all_eq_true] at hbit
      exact hbit
    · rw [agreement_not_concerted hall] at h
      exact absurd rfl h
  · intro h
    obtain ⟨version, hlowest, haccepted⟩ := h.accepted
    obtain ⟨hello, hhello, -⟩ := hlowest.1
    obtain ⟨effective, offered, hlowest', hoffered, hagreement⟩ := agreement_concerted h.concerted (List.ne_nil_of_mem hhello)
    rw [hagreement, usable_settle, hlowest'.unique h.concerted.majors hlowest, FeatureSet.containsAll_iff]
    refine ⟨haccepted, fun i hi => ?_⟩
    rw [FeatureSet.getLsbD_intersect, Bool.and_eq_true, hoffered i, List.all_eq_true]
    exact h.required i hi

/-- Two participants agree on the same whichever negotiates, and on what a group of both agrees on; a group agrees on the same in
any order of its participants; and it agrees on a version exactly when every demand is met. -/
theorem negotiation_agrees :
    (∀ localHello peer path allowedSchemas required,
      (∀ component ∈ required, component = localHello.component ∨ component = peer.component) →
      (negotiate localHello peer path allowedSchemas).agreement =
          (negotiateGroup ⟨[localHello, peer], required, path, allowedSchemas⟩).agreement ∧
        (negotiate peer localHello path allowedSchemas).agreement =
          (negotiateGroup ⟨[localHello, peer], required, path, allowedSchemas⟩).agreement) ∧
    (∀ (request : GroupNegotiationRequest) (participants : List ProtocolHello), request.participants.Perm participants →
      (negotiateGroup { request with participants }).agreement = (negotiateGroup request).agreement) ∧
    ∀ request, (negotiateGroup request).usable = true ↔ GroupUsable request := by
  refine ⟨fun localHello peer path allowedSchemas required hrequired => ⟨agreement_negotiate hrequired, ?_⟩,
    fun request participants => agreement_perm, fun request => usable_iff⟩
  have hswapped : ∀ component ∈ required, component = peer.component ∨ component = localHello.component :=
    fun component hcomponent => (hrequired component hcomponent).symm
  rw [agreement_negotiate hswapped]
  have hperm : [localHello, peer].Perm [peer, localHello] := List.Perm.swap peer localHello []
  exact @agreement_perm ⟨[localHello, peer], required, path, allowedSchemas⟩ _ hperm

namespace Sample

/-- A node of a name at a protocol version, with the features of a word. -/
def helloAt (component : ComponentId) (minor features : Nat) : ProtocolHello :=
  { component, incarnation := ⟨component, ⟨2 :: List.replicate 15 0, by decide⟩, 1⟩, software := ⟨1, 0, 0, ""⟩
    protocol := ⟨1, minor⟩, schema := 1, features, epoch := 0, generation := 0, holdsAuthority := false }

def older : ProtocolHello := helloAt ⟨"older", .inr (by decide)⟩ 2 3

def newer : ProtocolHello := helloAt ⟨"newer", .inr (by decide)⟩ 4 7

def lowPath : ProtocolPath := { accepted := [⟨1, 2⟩], requiredFeatures := .ofBits 1, allowedFeatures := .ofBits 7 }

end Sample

open Sample in
/-- Two nodes settle on the lower version and on what both offer. -/
theorem negotiation_agrees_sample :
    (negotiate newer older lowPath [1]).agreement = ⟨.restricted, ⟨1, 2⟩, .ofBits 3, .ofBits 4, .none⟩ ∧
      (negotiate older newer lowPath [1]).agreement = (negotiate newer older lowPath [1]).agreement ∧
      (negotiateGroup ⟨[newer, older], [newer.component], lowPath, [1]⟩).usable = true ∧
      (negotiateGroup ⟨[older, newer], [newer.component], lowPath, [1]⟩).agreement =
        (negotiateGroup ⟨[newer, older], [newer.component], lowPath, [1]⟩).agreement := by
  obtain ⟨hpair, hperm, -⟩ := negotiation_agrees
  obtain ⟨hgroup, hswapped⟩ := hpair newer older lowPath [1] [newer.component] (by simp)
  exact ⟨by decide, hswapped.trans hgroup.symm, by decide, hperm ⟨[newer, older], [newer.component], lowPath, [1]⟩ _ (List.Perm.swap older newer [])⟩

end FabricEvolution
