import FabricEvolution.System.Calm

/-!
# Walking through the operations

What an operation keeps, from what its parts keep.

* `recordPhase_triple`, `restartHandoff_triple`, `applyAction_triple` : the three ways a record moves, each
  from a rule on the core alone;
* `ensureHolderAuthority_keeps`, `acknowledgeFences_keeps`, `catchUpLoop_keeps`, ... : the loops and the
  authority of a holder, from the effects they perform;
* `advancePrepared_keeps`, ..., `advanceRetire_keeps` : the step of each phase.
-/

namespace FabricEvolution
open Lib

namespace Control
variable {W : Type} {E : SystemEffects W} {P Q : Assertion W}

/-! ## Records that are read -/

section
variable {A : Controller → W → Prop} {α β : Type}

theorem orThrow_triple {value : Option α} {refusal : Status} {R : Except Status α → Controller → W → Prop}
    (hsome : ∀ a, value = some a → ∀ c w, A c w → R (.ok a) c w) (hnone : ∀ c w, A c w → R (.error refusal) c w) :
    Triple E A (orThrow value refusal) R := by
  cases value with
  | none => exact Triple.lift hnone
  | some a => exact Triple.lift (hsome a rfl)

/-- Reading the handoff names it. -/
theorem theHandoff_seq {f : HandoffRecord → Control β} {R : Except Status β → Controller → W → Prop}
    (h : ∀ handoff, Triple E (fun c w => c.handoff = some handoff ∧ A c w) (f handoff) R)
    (hnone : ∀ refusal c w, A c w → R (.error refusal) c w) : Triple E A (theHandoff >>= f) R := by
  refine Triple.seq (S := fun handoff c w => c.handoff = some handoff ∧ A c w) ?_ h
  refine Triple.get fun c₀ => orThrow_triple (fun handoff hsome c w hp => ?_) fun c w hp => hnone _ c w hp.2
  exact ⟨hp.1 ▸ hsome, hp.2⟩

theorem theManifest_seq {f : EvolutionManifest → Control β} {R : Except Status β → Controller → W → Prop}
    (h : ∀ manifest, Triple E (fun c w => c.manifest = some manifest ∧ A c w) (f manifest) R)
    (hnone : ∀ refusal c w, A c w → R (.error refusal) c w) : Triple E A (theManifest >>= f) R := by
  refine Triple.seq (S := fun manifest c w => c.manifest = some manifest ∧ A c w) ?_ h
  refine Triple.get fun c₀ => orThrow_triple (fun manifest hsome c w hp => ?_) fun c w hp => hnone _ c w hp.2
  exact ⟨hp.1 ▸ hsome, hp.2⟩

end

/-- Reading the clock does not move the memory. -/
theorem now_triple (hP : Calm E P) (hQ : ∀ core w, P core w → Q core w) (core : ControllerCore) :
    Triple E (fun c w => c.core = core ∧ P.at c w) now
      (Triple.between (fun _ c w => c.core = core ∧ P.at c w) fun (_ : Except Status Unit) => Q.at) := by
  have hsince := now_calm (hP.andCore fun core' => core' = core)
  refine hsince.conseq (fun c w hp => ⟨hp.2, hp.1⟩) fun r c w hp => ?_
  cases r with
  | error refusal => exact hQ _ w hp.1
  | ok nowMs => exact ⟨hp.2, hp.1⟩

/-! ## Responses that are read -/

/-- What a call returns for a response. -/
def response (c : Controller) (role : NodeRole) : Result (Result NodeAnswer) → Result NodeAnswer
  | .error failure => .error (callFailed (c.endpoint role) failure)
  | .ok answer => answer

theorem call_triple {role : NodeRole} {request : NodeRequest} {A : Controller → W → Prop}
    {R : Except Status (Result NodeAnswer) → Controller → W → Prop}
    (h : ∀ c w, A c w → ∀ w₀, E.env w w₀ → E.mid (.call role request) c w₀ ∧
      ∀ x w₁, E.exec (.call role request) c w₀ x w₁ → R (.ok (response c role x)) c w₁) :
    Triple E A (call role request) R := by
  unfold call
  refine Triple.seq (S := fun x c w => R (.ok (response c role x)) c w) (Triple.perform h) fun x => Triple.get fun c₀ => ?_
  split <;> exact Triple.pure fun c w hp => hp.1 ▸ hp.2

/-- A call does not fail, answered or not. -/
theorem call_between {role : NodeRole} {request : NodeRequest} (h : Moves E P Q (.call role request)) {β : Type}
    {R : Except Status β → Controller → W → Prop} :
    Triple E P.at (call role request) (Triple.between (fun _ => Q.at) R) :=
  call_triple fun c w hp w₀ henv => h c w hp w₀ henv

theorem callOk_triple {role : NodeRole} {request : NodeRequest} {A : Controller → W → Prop}
    {R : Except Status NodeAnswer → Controller → W → Prop}
    (h : ∀ c w, A c w → ∀ w₀, E.env w w₀ → E.mid (.call role request) c w₀ ∧
      ∀ x w₁, E.exec (.call role request) c w₀ x w₁ → R (response c role x) c w₁) :
    Triple E A (callOk role request) R := by
  unfold callOk
  exact Triple.seq (S := fun answer c w => R answer c w) (call_triple h) fun answer => Triple.lift fun _ _ hr => hr

theorem reportOf_triple {role : NodeRole} {A : Controller → W → Prop} {R : Except Status NodeReport → Controller → W → Prop}
    (h : ∀ c w, A c w → ∀ w₀, E.env w w₀ → E.mid (.call role .status) c w₀ ∧
      ∀ x w₁, E.exec (.call role .status) c w₀ x w₁ → R ((response c role x).bind (·.report?)) c w₁) :
    Triple E A (reportOf role) R := by
  unfold reportOf
  refine Triple.seq (S := fun answer => R answer.report?) (callOk_triple fun c w hp w₀ henv => ?_) fun answer =>
    Triple.lift fun _ _ hr => hr
  obtain ⟨hmid, hexec⟩ := h c w hp w₀ henv
  refine ⟨hmid, fun x w₁ hx => ?_⟩
  have hr := hexec x w₁ hx
  cases hresponse : response c role x with
  | error refusal =>
    rw [hresponse] at hr
    exact hr
  | ok answer =>
    rw [hresponse] at hr
    exact hr

/-- A quiet call leaves the memory as it is. -/
theorem callOk_frame (hP : Calm E P) {role : NodeRole} {request : NodeRequest} (hquiet : request.isQuiet = true)
    (A : Controller → Prop) :
    Triple E (fun c w => A c ∧ P.at c w) (callOk role request)
      (Triple.between (fun _ c w => A c ∧ P.at c w) fun (_ : Except Status Unit) => P.at) := by
  refine callOk_triple fun c w hp w₀ henv => ?_
  obtain ⟨hmid, hexec⟩ := hP (.call role request) hquiet c w hp.2 w₀ henv
  refine ⟨hmid, fun x w₁ hx => ?_⟩
  have hkept : P.at c w₁ := hexec x w₁ hx
  cases response c role x with
  | error refusal => exact hkept
  | ok answer => exact ⟨hp.1, hkept⟩

/-! ## The source claim -/

/-- The requests that carry a claim under a handoff. -/
inductive Binds (manifest : EvolutionManifest) (handoff : HandoffRecord) (claim : AuthorityClaim) : NodeRequest → Prop
  | prepare : Binds manifest handoff claim (.prepare (prepareSuccessorBody manifest handoff claim))
  | apply (entries : List ReplicationRecord) :
    Binds manifest handoff claim (.applyRecords (applyBody manifest handoff claim entries))

/-- What reading and sending the source claim takes of an assertion: `B claim` holds once `claim` is read. -/
structure BindingRules (E : SystemEffects W) (P : Assertion W) (B : AuthorityClaim → Assertion W) : Prop where
  calm : ∀ claim, Calm E (B claim)
  weaken : ∀ claim core w, B claim core w → P core w
  read : ∀ missing, Triple E P.at (sourceClaim missing)
    (Triple.between (fun claim => (B claim).at) fun (_ : Except Status Unit) => P.at)
  send : ∀ manifest handoff claim request, Binds manifest handoff claim request → ∀ (c : Controller) w,
    c.handoff = some handoff → c.manifest = some manifest → (B claim).at c w → ∀ w₀, E.env w w₀ →
    E.mid (.call .target request) c w₀ ∧ ∀ x w₁, E.exec (.call .target request) c w₀ x w₁ → (B claim).at c w₁

namespace BindingRules
variable {B : AuthorityClaim → Assertion W} (h : BindingRules E P B)
include h

/-- The claim and the records it is sent under. -/
theorem seq {β : Type} {missing : String} {f : AuthorityClaim → EvolutionManifest → HandoffRecord → Control β}
    {Q : Assertion W} (hsame : ∀ core w, P core w → Q core w)
    (hf : ∀ claim manifest handoff, Triple E
      (fun c w => (c.handoff = some handoff ∧ c.manifest = some manifest) ∧ (B claim).at c w) (f claim manifest handoff)
      fun _ => Q.at) :
    Triple E P.at (sourceClaim missing >>= fun claim => theManifest >>= fun manifest => theHandoff >>= fun handoff =>
      f claim manifest handoff) fun _ => Q.at := by
  refine Triple.seq (S := fun claim => (B claim).at) ((h.read missing).post fun r c w hr => ?_) fun claim => ?_
  · cases r with
    | error refusal => exact hsame _ w hr
    | ok claim => exact hr
  · have hback : ∀ (refusal : Status) (c : Controller) w, (B claim).at c w → Q.at c w :=
      fun _ c w hb => hsame _ w (h.weaken claim c.core w hb)
    refine theManifest_seq (fun manifest => ?_) hback
    refine theHandoff_seq (fun handoff => ?_) fun refusal c w hb => hback refusal c w hb.2
    exact (hf claim manifest handoff).pre fun c w hb => ⟨⟨hb.1, hb.2.1⟩, hb.2.2⟩

theorem callOk {manifest : EvolutionManifest} {handoff : HandoffRecord} {claim : AuthorityClaim} {request : NodeRequest}
    (hbinds : Binds manifest handoff claim request) :
    Triple E (fun c w => (c.handoff = some handoff ∧ c.manifest = some manifest) ∧ (B claim).at c w)
      (Control.callOk .target request) fun _ => P.at := by
  refine callOk_triple fun c w hb w₀ henv => ?_
  obtain ⟨hmid, hexec⟩ := h.send manifest handoff claim request hbinds c w hb.1.1 hb.1.2 hb.2 w₀ henv
  exact ⟨hmid, fun x w₁ hx => h.weaken claim c.core w₁ (hexec x w₁ hx)⟩

end BindingRules

/-! ## Records that move -/

theorem core_modifyHandoff_moved (c : Controller) (target : HandoffPhase) (atMs : Nat) (note : String) :
    { c with handoff := c.handoff.map (HandoffRecord.moved · target atMs note) }.core = c.core.inPhase target := by
  cases h : c.handoff <;> simp [Controller.core, ControllerCore.inPhase, h, HandoffRecord.core, HandoffRecord.moved]

theorem core_modifyHandoff_rewound (c : Controller) (predecessor successor : IncarnationId) (target : HandoffPhase)
    (atMs : Nat) (note : String) :
    { c with handoff := c.handoff.map (HandoffRecord.rewound · predecessor successor target atMs note) }.core =
      c.core.rewound predecessor successor target := by
  cases h : c.handoff with
  | none => simp [Controller.core, ControllerCore.rewound, h]
  | some handoff =>
    simp only [Controller.core, ControllerCore.rewound, h, Option.map_some, HandoffRecord.core, HandoffRecord.rewound]
    split_ifs <;> rfl

theorem core_modifyCampaign_state (c : Controller) (target : CampaignState) :
    { c with campaign := c.campaign.map fun campaign : CampaignRecord => { campaign with state := target } }.core =
      c.core.inState target := by
  cases h : c.campaign <;> simp [Controller.core, ControllerCore.inState, h, CampaignRecord.core]

theorem core_modifyHandoff_successor (c : Controller) (successor : IncarnationId) :
    { c with handoff := c.handoff.map fun handoff : HandoffRecord => { handoff with successor := successor } }.core =
      c.core.rebound successor := by
  cases h : c.handoff <;> simp [Controller.core, ControllerCore.rebound, h, HandoffRecord.core]

/-- Entering a phase takes `P` to `Q`. -/
def PhaseRule (P Q : Assertion W) (target : HandoffPhase) : Prop :=
  ∀ core w handoff, P core w → core.handoff = some handoff → validateHandoffTransition handoff.phase target = .ok () →
    handoff.phase ≠ target → Q (core.inPhase target) w

theorem recordPhase_triple (hP : Calm E P) (hQ : Calm E Q) (hsame : ∀ core w, P core w → Q core w)
    {target : HandoffPhase} (hrule : PhaseRule P Q target) (note : String) :
    Triple E P.at (recordPhase target note) fun _ => Q.at := by
  unfold recordPhase
  refine Triple.get fun c₀ => ?_
  split
  · rename_i handoff _ _ hhandoff _ _
    split
    · exact Triple.throw fun c w hp => hsame _ w hp.2
    · rename_i hvalid
      split_ifs with heq
      · exact Triple.pure fun c w hp => hsame _ w hp.2
      · -- The clock is read with the memory `c₀`; then the phase is entered.
        refine Triple.pre (P := fun c w => c.core = c₀.core ∧ P.at c w) ?_ fun c w hp => ⟨hp.1 ▸ rfl, hp.2⟩
        refine Triple.seq (now_triple hP hsame c₀.core) fun atMs => ?_
        refine Triple.seq (S := fun _ => Q.at) (Triple.modify fun c w hp => ?_) fun _ => ?_
        · show Q _ w
          rw [core_modifyHandoff_moved]
          refine hrule _ w handoff.core hp.2 ?_ hvalid heq
          rw [hp.1]
          simp [Controller.core, hhandoff]
        · refine Keeps.bind (now_calm hQ) fun updatedAtMs => Keeps.bind (modifyHandoff_calm fun _ => rfl) fun _ => ?_
          refine Keeps.bind (modify_calm core_syncTerms) fun _ => Keeps.bind (now_calm hQ) fun eventAtMs => ?_
          exact Keeps.bind theHandoff_keeps fun moved => Keeps.bind (append_calm hQ _) fun _ => save_calm hQ
  · exact Triple.throw fun c w hp => hsame _ w hp.2

/-- Entering a phase keeps the assertion. -/
def Records (E : SystemEffects W) (P : Assertion W) (target : HandoffPhase) : Prop :=
  ∀ note, Keeps E P.at (recordPhase target note)

theorem PhaseRule.records (h : PhaseRule P P target) (hP : Calm E P) : Records E P target :=
  fun note => recordPhase_triple hP hP (fun _ _ hp => hp) h note

/-- Rewinding the handoff takes `P` to `Q`. -/
def RewindRule (P Q : Assertion W) (predecessor successor : IncarnationId) (target : HandoffPhase) : Prop :=
  ∀ core w handoff, P core w → core.handoff = some handoff → handoff.attempt < maxHandoffRestarts →
    Q (core.rewound predecessor successor target) w

/-- A rewind begins with a reading of the clock, which takes `P` to `N`. -/
theorem restartHandoff_triple {N : Assertion W} (hQ : Calm E Q) (hsame : ∀ core w, P core w → Q core w)
    (hnow : Moves E P N .now) {predecessor successor : IncarnationId} {target : HandoffPhase}
    (hrule : RewindRule N Q predecessor successor target) (note : String) :
    Triple E P.at (restartHandoff predecessor successor target note) fun _ => Q.at := by
  unfold restartHandoff
  refine theHandoff_seq (fun handoff => ?_) fun _ c w hp => hsame _ w hp
  split
  · exact Triple.throw fun c w hp => hsame _ w hp.2
  split
  · exact Triple.throw fun c w hp => hsame _ w hp.2
  · rename_i hattempt
    refine Triple.seq (S := fun _ c w => c.core.handoff = some handoff.core ∧ N.at c w)
      (Triple.perform fun c w hp w₀ henv => ?_) fun atMs => ?_
    · obtain ⟨hmid, hexec⟩ := hnow c w hp.2 w₀ henv
      exact ⟨hmid, fun x w₁ hx => ⟨by simp [Controller.core, hp.1], hexec x w₁ hx⟩⟩
    · refine Triple.seq (S := fun _ c w => c.core.handoff = some handoff.core ∧ N.at c w)
        (Triple.modify fun c w hp => hp) fun _ => ?_
      refine Triple.seq (S := fun _ => Q.at) (Triple.modify fun c w hp => ?_) fun _ => ?_
      · show Q _ w
        rw [core_modifyHandoff_rewound]
        exact hrule _ w handoff.core hp.2 hp.1 (Nat.lt_of_not_le hattempt)
      · refine Keeps.bind (now_calm hQ) fun updatedAtMs => Keeps.bind (modifyHandoff_calm fun _ => rfl) fun _ => ?_
        refine Keeps.bind (now_calm hQ) fun eventAtMs => Keeps.bind theHandoff_keeps fun moved => ?_
        exact Keeps.bind (append_calm hQ _) fun _ => save_calm hQ

/-- An accepted action takes `P` to `Q`. -/
def ActionRule (P Q : Assertion W) (action : CampaignAction) : Prop :=
  ∀ (c : Controller) w campaign manifest target rule reason, P c.core w → c.campaign = some campaign →
    c.manifest = some manifest → decision c campaign manifest action = .accepted target rule reason →
    Q (c.core.inState target) w

/-- An action; what its acceptance leads to holds once it succeeds. -/
theorem applyAction_between {R : Assertion W} (hP : Calm E P) (hR : Calm E R) (hsame : ∀ core w, P core w → Q core w)
    (hback : ∀ core w, R core w → Q core w) {action : CampaignAction} (hrule : ActionRule P R action) :
    Triple E P.at (applyAction action) (Triple.between (fun _ => R.at) fun (_ : Except Status Unit) => Q.at) := by
  unfold applyAction
  refine Triple.get fun c₀ => ?_
  split
  · rename_i campaign manifest hcampaign hmanifest
    split
    · exact Triple.throw fun c w hp => hsame _ w hp.2
    · refine (deferAction_triple hP (R := R.at) _ _).conseq (fun c w hp => hp.2) fun r c w hr => ?_
      cases r with
      | error refusal => exact hsame _ w hr
      | ok u => exact hr
    · rename_i target rule reason hdecision
      unfold acceptAction
      refine Triple.seq (S := fun _ => R.at) (Triple.modify fun c w hp => ?_) fun _ => ?_
      · show R _ w
        rw [core_modifyCampaign_state]
        obtain ⟨rfl, hp⟩ := hp
        exact hrule c w campaign manifest target rule reason hp hcampaign hmanifest hdecision
      · refine Triple.post (Q := fun _ => R.at) ?_ fun r c w hr => ?_
        · refine Keeps.bind (now_calm hR) fun updatedAtMs => Keeps.bind (modifyCampaign_calm fun _ => rfl) fun _ => ?_
          refine Keeps.bind (now_calm hR) fun atMs => Keeps.bind (modifyCampaign_calm fun _ => rfl) fun _ => ?_
          refine Keeps.bind (now_calm hR) fun eventAtMs => Keeps.bind theCampaign_keeps fun campaign => ?_
          exact Keeps.bind (append_calm hR _) fun _ => save_calm hR
        · cases r with
          | error refusal => exact hback _ w hr
          | ok u => exact hr
  · exact Triple.throw fun c w hp => hsame _ w hp.2

theorem applyAction_triple (hP : Calm E P) (hQ : Calm E Q) (hsame : ∀ core w, P core w → Q core w)
    {action : CampaignAction} (hrule : ActionRule P Q action) :
    Triple E P.at (applyAction action) fun _ => Q.at := by
  refine (applyAction_between hP hQ hsame (fun _ _ hq => hq) hrule).post fun r c w hr => ?_
  cases r <;> exact hr

/-! ## Reports, handoff, window -/

/-- The assertion does not look at the reports. -/
def ReportsFree (P : Assertion W) : Prop := ∀ core w source target, P core w → P (core.withReports source target) w

theorem setReports_keeps (h : ReportsFree P) (source target : NodeReport) : Keeps E P.at (setReports source target) :=
  Keeps.modify fun c w hp => h c.core w source target hp

theorem bindNodes_keeps (hP : Calm E P) (h : ReportsFree P) : Keeps E P.at bindNodes := by
  unfold bindNodes
  refine get_keeps fun c => ?_
  split
  · exact Keeps.throw _
  · refine Keeps.bind (reportFor_calm hP _ _) fun source => Keeps.bind (reportFor_calm hP _ _) fun target => ?_
    exact setReports_keeps h source target

/-- What a view says is what the registry says at some reading. -/
def Viewed (T : Nat → W → Prop) (shard : ShardId) (r : Result AuthorityView) (c : Controller) (w : W) : Prop :=
  ∃ nowMs, c.core.authority.view shard nowMs = r ∧ T nowMs w

theorem view_triple (hP : Still E P) {T : Nat → W → Prop}
    (hT : ∀ c w, P c.core w → ∀ w₀, E.env w w₀ → ∀ x w₁, E.exec .now c w₀ x w₁ → T x w₁) (shard : ShardId) :
    Triple E P.at (view shard) fun r c w => P.at c w ∧ Viewed T shard r c w := by
  unfold view now
  refine Triple.seq (S := fun nowMs c w => P.at c w ∧ T nowMs w) (Triple.perform fun c w hp w₀ henv => ?_) fun nowMs => ?_
  · obtain ⟨hmid, hexec⟩ := hP .now rfl c w hp w₀ henv
    exact ⟨hmid, fun x w₁ hx => ⟨hexec x w₁ hx, hT c w hp w₀ henv x w₁ hx⟩⟩
  · refine Triple.get fun c₀ => Triple.lift fun c w hp => ?_
    obtain ⟨rfl, hp, ht⟩ := hp
    exact ⟨hp, nowMs, rfl, ht⟩

theorem attempt_view_triple (hP : Still E P) {T : Nat → W → Prop}
    (hT : ∀ c w, P c.core w → ∀ w₀, E.env w w₀ → ∀ x w₁, E.exec .now c w₀ x w₁ → T x w₁) (shard : ShardId)
    {β : Type} {R : Except Status β → Controller → W → Prop} :
    Triple E P.at (Eff.attempt (view shard))
      (Triple.between (fun r c w => P.at c w ∧ Viewed T shard r c w) R) :=
  Triple.attempt (view_triple hP hT shard)

/-- There is a handoff record. -/
def WithHandoff (P : Assertion W) : Assertion W := fun core w => P core w ∧ core.handoff ≠ none

theorem withHandoff_calm (hP : Calm E P) : Calm E (WithHandoff P) := hP.andCore fun core => core.handoff ≠ none

theorem withHandoff_still (hP : Still E P) : Still E (WithHandoff P) := hP.andCore fun core => core.handoff ≠ none

/-- Recording the claim of the predecessor, when there is none. -/
theorem recordPredecessorClaim_triple (hP : Still E P) (manifest : EvolutionManifest) {T : Nat → W → Prop}
    (hT : ∀ c w, P c.core w → ∀ w₀, E.env w w₀ → ∀ x w₁, E.exec .now c w₀ x w₁ → T x w₁)
    (h : ∀ core w handoff lease nowMs view, P core w → core.handoff = some handoff →
      core.fencedPredecessorClaim = none → lease.holder = handoff.predecessor →
      core.authority.view manifest.shard nowMs = .ok view → view.mutating = some lease → T nowMs w →
      P { core with fencedPredecessorClaim := some lease.claim } w) :
    Triple E P.at (recordPredecessorClaim manifest)
      (Triple.between (fun _ => (WithHandoff P).at) fun (_ : Except Status Unit) => P.at) := by
  unfold recordPredecessorClaim
  refine Triple.seq (attempt_view_triple hP hT _) fun r => ?_
  refine theHandoff_seq (fun handoff => ?_) fun _ c w hp => hp.1
  split
  · exact Triple.pure fun c w hp => ⟨hp.2.1, by simp [Controller.core, hp.1]⟩
  · rename_i lease hlease
    refine Triple.modify fun c w hp => ?_
    obtain ⟨hhandoff, hp, nowMs, hview, ht⟩ := hp
    split_ifs with hset
    · cases r with
      | error refusal => cases hlease
      | ok view =>
        refine ⟨h c.core w handoff.core lease nowMs view hp ?_ ?_ hset.1 hview hlease ht, by simp [Controller.core, hhandoff]⟩
        · simp [Controller.core, hhandoff]
        · simpa [Controller.core] using hset.2
    · exact ⟨hp, by simp [Controller.core, hhandoff]⟩

theorem openWindow_keeps (hP : Still E P) (manifest : EvolutionManifest)
    (h : ∀ core w lsn, P core w → P { core with windowStartLsn := lsn } w) : Keeps E P.at (openWindow manifest) := by
  unfold openWindow
  refine Keeps.bind theCampaign_keeps fun campaign => ?_
  split
  · exact Keeps.pure _
  · refine Keeps.bind (now_still hP) fun startedAtMs => Keeps.bind (modifyCampaign_calm fun _ => rfl) fun _ => ?_
    refine Keeps.bind (Keeps.modify fun c w hp => h c.core w _ hp) fun _ => Keeps.bind (now_still hP) fun atMs => ?_
    exact get_keeps fun c => Keeps.bind theHandoff_keeps fun handoff => append_still hP _

/-! ## The authority of a holder -/

/-- No fence of the incarnation is outstanding on the shard. -/
def Unfenced (shard : ShardId) (holder : IncarnationId) (core : ControllerCore) : Prop :=
  ∀ a, core.authority.find shard = some a → ∀ fence ∈ a.fences, fence.target = holder → fence.acknowledged = true

/-- What keeping the authority of a holder takes of an assertion: its grants, while no fence of the holder is
outstanding, and their delivery or revocation. -/
structure HolderRules (E : SystemEffects W) (P : Assertion W) (role : NodeRole) (holder : IncarnationId) : Prop where
  grant : ∀ request : GrantRequest, request.holder = holder → request.mode = .mutating →
    Moves E (fun core w => P core w ∧ Unfenced request.shard holder core) P (.authority (.grant request))
  deliver : ∀ body, Admits E P (.call role (.grantAuthority body))
  reattest : ∀ token, Admits E P (.call role (.reattest token))
  revoke : ∀ shard id reason, Admits E P (.authority (.revoke shard id reason))
  reattested : ∀ shard token, Admits E P (.authority (.reattest shard holder token))

/-- A fact that no change of the registry endangers may be added. -/
theorem HolderRules.andCore {role : NodeRole} {holder : IncarnationId} (h : HolderRules E P role holder)
    {F : ControllerCore → Prop} (hF : ∀ (core : ControllerCore) registry, F core → F { core with authority := registry }) :
    HolderRules E (fun core w => P core w ∧ F core) role holder where
  grant request hholder hmode := fun c w hp =>
    ((h.grant request hholder hmode).andStable fun _ core hf => hF core _ hf) c w ⟨⟨hp.1.1, hp.2⟩, hp.1.2⟩
  deliver body := (h.deliver body).andStable fun _ _ hf => hf
  reattest token := (h.reattest token).andStable fun _ _ hf => hf
  revoke _ _ _ := (h.revoke _ _ _).andStable fun _ core hf => hF core _ hf
  reattested _ _ := (h.reattested _ _).andStable fun _ core hf => hF core _ hf

/-- A grant does not fail, refused or not. -/
theorem grant_between {request : GrantRequest} (h : Moves E P Q (.authority (.grant request))) {β : Type}
    {R : Except Status β → Controller → W → Prop} :
    Triple E P.at (grant request) (Triple.between (fun _ => Q.at) R) := by
  unfold grant
  exact Triple.seq (S := fun _ => Q.at) (authorityOp_between h) fun _ => Triple.pure fun _ _ hq => hq

theorem grant_triple {request : GrantRequest} (h : Moves E P Q (.authority (.grant request))) :
    Triple E P.at (grant request) fun _ => Q.at := by
  refine (grant_between h (R := fun (_ : Except Status Unit) => Q.at)).post fun r c w hq => ?_
  cases r <;> exact hq

theorem grantHolder_triple (setup : ControllerSetup) {role : NodeRole} {holder : IncarnationId}
    (h : HolderRules E P role holder) (manifest : EvolutionManifest) (reason : String) :
    Triple E (Assertion.at fun core w => P core w ∧ Unfenced manifest.shard holder core)
      (grant (grantRequest setup manifest holder reason))
      (Triple.between (fun _ => P.at) fun (_ : Except Status Unit) => P.at) := by
  refine (grant_triple (h.grant (grantRequest setup manifest holder reason) rfl rfl)).post fun r c w hp => ?_
  cases r <;> exact hp

theorem issueAuthority_triple {setup : ControllerSetup} (hP : Still E P) {role : NodeRole} {report : NodeReport}
    (h : HolderRules E P role report.incarnation) (manifest : EvolutionManifest) :
    Triple E (Assertion.at fun core w => P core w ∧ Unfenced manifest.shard report.incarnation core)
      (issueAuthority setup role report manifest) fun _ => P.at := by
  unfold issueAuthority
  refine Triple.seq (grantHolder_triple setup h manifest _) fun granted => ?_
  refine Keeps.bind (Keeps.lift _) fun lease => Keeps.bind (deliver_keeps h.deliver) fun delivered => ?_
  split
  · exact Keeps.bind (authorityOp_keeps (h.revoke _ _ _)) fun _ => Keeps.throw _
  · refine Keeps.bind (now_still hP) fun atMs => Keeps.bind (Keeps.attempt (append_still hP _)) fun _ => ?_
    exact save_still hP

theorem renewAuthority_triple {setup : ControllerSetup} (hP : Still E P) {role : NodeRole} {current : AuthorityLease}
    (h : HolderRules E P role current.holder) (manifest : EvolutionManifest) :
    Triple E (Assertion.at fun core w => P core w ∧ Unfenced manifest.shard current.holder core)
      (renewAuthority setup role current manifest) fun _ => P.at := by
  unfold renewAuthority
  refine Triple.seq (grantHolder_triple setup h manifest _) fun granted => ?_
  refine Keeps.bind (Keeps.lift _) fun lease => Keeps.bind (deliver_keeps h.deliver) fun delivered => ?_
  exact Keeps.bind (Keeps.lift _) fun _ => save_still hP

theorem reattestAuthority_triple (hP : Still E P) {role : NodeRole} {current : AuthorityLease}
    (h : HolderRules E P role current.holder) (manifest : EvolutionManifest) :
    Triple E (Assertion.at fun core w => P core w ∧ Unfenced manifest.shard current.holder core)
      (reattestAuthority role current manifest)
      (Triple.between (fun done c w => P.at c w ∧ (done = false → Unfenced manifest.shard current.holder c.core))
        fun (_ : Except Status Unit) => P.at) := by
  unfold reattestAuthority
  have hcall : Keeps E (Assertion.at fun core w => P core w ∧ Unfenced manifest.shard current.holder core)
      (call role (.reattest (some (some current.token)))) := call_keeps fun c w hp w₀ henv =>
      ⟨(h.reattest _ c w hp.1 w₀ henv).1, fun x w₁ hx => ⟨(h.reattest _ c w hp.1 w₀ henv).2 x w₁ hx, hp.2⟩⟩
  refine Triple.seq (S := fun _ => Assertion.at fun core w => P core w ∧ Unfenced manifest.shard current.holder core)
    (hcall.post fun r c w hp => ?_) fun reattested => ?_
  · cases r with
    | error refusal => exact hp.1
    | ok answer => exact hp
  · split
    · exact Triple.pure fun c w hp => ⟨hp.1, fun _ => hp.2⟩
    · refine Triple.pre (P := P.at) ?_ fun c w hp => hp.1
      refine Triple.seq (S := fun _ => P.at) ((authorityOp_keeps (h.reattested _ _)).post fun r c w hp => ?_) fun outcome => ?_
      · cases r <;> exact hp
      · refine Triple.seq (S := fun _ => P.at) ((Keeps.lift _).post fun r c w hp => ?_) fun _ => ?_
        · cases r <;> exact hp
        · refine Triple.seq (S := fun _ => P.at) ((save_still hP).post fun r c w hp => ?_) fun _ => ?_
          · cases r <;> exact hp
          · exact Triple.pure fun c w hp => ⟨hp, fun h => by cases h⟩

theorem ensureHolderAuthority_keeps {setup : ControllerSetup} (hP : Still E P) {role : NodeRole} {report : NodeReport}
    (h : HolderRules E P role report.incarnation) : Keeps E P.at (ensureHolderAuthority setup role report) := by
  unfold ensureHolderAuthority
  refine Keeps.bind theManifest_keeps fun manifest => ?_
  refine Triple.seq (S := fun view c w => P.at c w ∧ Viewed (fun _ _ => True) manifest.shard (.ok view) c w)
    ((view_triple hP (T := fun _ _ => True) (fun _ _ _ _ _ _ _ _ => trivial) _).post fun r c w hp => ?_) fun view => ?_
  · cases r with
    | error refusal => exact hp.1
    | ok view => exact hp
  · split
    · exact Triple.pure fun c w hp => hp.1
    · rename_i hfences
      -- What the view says of fences is what the registry says.
      refine Triple.pre (P := Assertion.at fun core w => P core w ∧ Unfenced manifest.shard report.incarnation core) ?_
        fun c w hp => ⟨hp.1, ?_⟩
      · have hback := fun c w (hp : (Assertion.at fun core w => P core w ∧
          Unfenced manifest.shard report.incarnation core) c w) => (hp.1 : P.at c w)
        split
        · exact issueAuthority_triple hP h manifest
        · rename_i current _
          split
          · rename_i hown
            obtain ⟨hholder, -⟩ := hown
            split
            · refine Triple.seq (S := fun _ => Assertion.at fun core w => P core w ∧
                Unfenced manifest.shard report.incarnation core)
                ((now_still (hP.andCore _)).post fun r c w hp => ?_) fun nowMs => ?_
              · cases r with
                | error refusal => exact hp.1
                | ok nowMs => exact hp
              · split
                · exact Triple.pure hback
                · rw [← hholder] at h ⊢
                  exact renewAuthority_triple hP h manifest
            · rw [← hholder] at h ⊢
              refine Triple.seq (reattestAuthority_triple hP h manifest) fun done => ?_
              cases done with
              | true => exact Triple.pure fun c w hp => hp.1
              | false =>
                rw [hholder] at h ⊢
                exact (issueAuthority_triple hP h manifest).pre fun c w hp => ⟨hp.1, hp.2 rfl⟩
          · exact issueAuthority_triple hP h manifest
      · obtain ⟨-, nowMs, hview, -⟩ := hp
        intro a hfind fence hfence htarget
        have hview' : view = a.view manifest.shard nowMs := by
          simpa [AuthorityRegistry.view, hfind, eq_comm] using hview
        have hno : ¬ (!fence.acknowledged && fence.target = report.incarnation) = true := by
          intro hout
          refine hfences (List.any_eq_true.mpr ⟨fence, ?_, hout⟩)
          rw [hview']
          exact hfence
        simpa [htarget] using hno

theorem ensurePredecessorAuthority_triple {setup : ControllerSetup} {A B : Controller → W → Prop}
    (hsame : ∀ c w, A c w → B c w)
    (h : ∀ report, Triple E (fun c w => c.lastSourceReport = some report ∧ A c w)
      (ensureHolderAuthority setup .source report) fun _ => B) :
    Triple E A (ensurePredecessorAuthority setup) fun _ => B := by
  unfold ensurePredecessorAuthority
  refine Triple.get fun c₀ => ?_
  split
  · rename_i report _ hreport _
    exact (h report).pre fun c w hp => ⟨hp.1 ▸ hreport, hp.2⟩
  · exact Triple.throw fun c w hp => hsame c w hp.2

theorem ensureSuccessorAuthority_triple {setup : ControllerSetup} {A B : Controller → W → Prop}
    (hsame : ∀ c w, A c w → B c w)
    (h : ∀ report, Triple E (fun c w => c.lastTargetReport = some report ∧ A c w)
      (ensureHolderAuthority setup .target report) fun _ => B) :
    Triple E A (ensureSuccessorAuthority setup) fun _ => B := by
  unfold ensureSuccessorAuthority
  refine Triple.get fun c₀ => ?_
  split
  · rename_i report _ hreport _
    exact (h report).pre fun c w hp => ⟨hp.1 ▸ hreport, hp.2⟩
  · exact Triple.throw fun c w hp => hsame c w hp.2

theorem ensurePredecessorAuthority_keeps {setup : ControllerSetup} (hP : Still E P)
    (h : ∀ holder, HolderRules E P .source holder) : Keeps E P.at (ensurePredecessorAuthority setup) :=
  ensurePredecessorAuthority_triple (fun _ _ hp => hp) fun _ =>
    (ensureHolderAuthority_keeps hP (h _)).pre fun _ _ hp => hp.2

theorem ensureSuccessorAuthority_keeps {setup : ControllerSetup} (hP : Still E P)
    (h : ∀ holder, HolderRules E P .target holder) : Keeps E P.at (ensureSuccessorAuthority setup) :=
  ensureSuccessorAuthority_triple (fun _ _ hp => hp) fun _ =>
    (ensureHolderAuthority_keeps hP (h _)).pre fun _ _ hp => hp.2

/-! ## Replaced participants -/

theorem acknowledgeFences_keeps {shard : ShardId} {target : IncarnationId} {after : FenceRecord → Control Unit}
    (hack : ∀ id, Admits E P (.authority (.acknowledgeFence shard target id)))
    (hafter : ∀ fence, Keeps E P.at (after fence)) (fences : List FenceRecord) :
    Keeps E P.at (acknowledgeFences shard target after fences) := by
  induction fences with
  | nil => exact Keeps.pure _
  | cons fence rest ih =>
    unfold acknowledgeFences
    split
    · refine Keeps.bind (authorityOp_keeps (hack fence.id)) fun outcome => Keeps.bind (Keeps.lift _) fun _ => ?_
      exact Keeps.bind (hafter fence) fun _ => ih
    · exact ih

theorem revokeReplaced_keeps (hP : Calm E P)
    (hack : ∀ shard target id, Admits E P (.authority (.acknowledgeFence shard target id)))
    (hrevoke : ∀ shard id reason, Admits E P (.authority (.revoke shard id reason))) (manifest : EvolutionManifest)
    (view : AuthorityView) : Keeps E P.at (revokeReplaced manifest view) := by
  unfold revokeReplaced
  refine get_keeps fun c => ?_
  split
  · exact Keeps.pure _
  · split
    · exact Keeps.pure _
    · refine Keeps.bind (acknowledgeFences_keeps (hack _ _) (fun _ => Keeps.pure _) _) fun _ => ?_
      refine Keeps.bind (authorityOp_keeps (hrevoke _ _ _)) fun revoked => Keeps.bind (Keeps.lift _) fun _ => ?_
      exact Keeps.bind (now_calm hP) fun atMs => append_calm hP _

end Control

/-- The phase a handoff goes back to when its successor is replaced. -/
def HandoffPhase.rewindTarget (phase : HandoffPhase) : HandoffPhase :=
  if HandoffPhase.predecessorFenced.value ≤ phase.value then .prepared else .notStarted

/-- What replaced participants take of an assertion: `N` holds once the clock is read. -/
structure ReplacementRules {W : Type} (P N : Assertion W) : Prop where
  predecessor : ∀ core w handoff report, N core w → core.handoff = some handoff →
    Control.replacing core.lastSourceReport handoff.predecessor = some report →
    handoff.phase.value < HandoffPhase.predecessorFenced.value → handoff.attempt < maxHandoffRestarts →
    P (core.rewound report.incarnation handoff.successor .notStarted) w
  successor : ∀ core w handoff report, N core w → core.handoff = some handoff →
    Control.replacing core.lastTargetReport handoff.successor = some report →
    handoff.phase.value < HandoffPhase.authorityTransferred.value → handoff.attempt < maxHandoffRestarts →
    P (core.rewound handoff.predecessor report.incarnation handoff.phase.rewindTarget) w
  rebound : ∀ core w handoff report, P core w → core.handoff = some handoff →
    Control.replacing core.lastTargetReport handoff.successor = some report →
    HandoffPhase.authorityTransferred.value ≤ handoff.phase.value → P (core.rebound report.incarnation) w

namespace Control
variable {W : Type} {E : SystemEffects W} {P Q N : Assertion W}

/-- What replaced participants take of an assertion, restart by restart. -/
structure RestartRules (E : SystemEffects W) (P : Assertion W) : Prop where
  predecessor : ∀ (handoff : HandoffRecord) (report : NodeReport) note,
    handoff.phase.value < HandoffPhase.predecessorFenced.value →
    Triple E (fun c w => (c.handoff = some handoff ∧ replacing c.lastSourceReport handoff.predecessor = some report) ∧ P.at c w)
      (restartHandoff report.incarnation handoff.successor .notStarted note) fun _ => P.at
  successor : ∀ (handoff : HandoffRecord) (report : NodeReport) note,
    handoff.phase.value < HandoffPhase.authorityTransferred.value →
    Triple E (fun c w => (c.handoff = some handoff ∧ replacing c.lastTargetReport handoff.successor = some report) ∧ P.at c w)
      (restartHandoff handoff.predecessor report.incarnation handoff.phase.rewindTarget note) fun _ => P.at
  rebound : ∀ core w handoff report, P core w → core.handoff = some handoff →
    replacing core.lastTargetReport handoff.successor = some report →
    HandoffPhase.authorityTransferred.value ≤ handoff.phase.value → P (core.rebound report.incarnation) w

theorem RestartRules.of_replacements (h : ReplacementRules P N) (hP : Calm E P) (hnow : Moves E P N .now) : RestartRules E P where
  predecessor handoff report note hphase := by
    refine (restartHandoff_triple (P := fun core w => P core w ∧ core.handoff = some handoff.core ∧
      replacing core.lastSourceReport handoff.predecessor = some report) hP (fun _ _ hp => hp.1) (hnow.andCore rfl _) ?_ _).pre
      fun c w hp => ⟨hp.2, by simp [Controller.core, hp.1.1], hp.1.2⟩
    intro core w handoff' hp hhandoff hattempt
    obtain rfl : handoff' = handoff.core := Option.some.inj (hhandoff.symm.trans hp.2.1)
    exact h.predecessor core w handoff.core report hp.1 hhandoff hp.2.2 hphase hattempt
  successor handoff report note hphase := by
    refine (restartHandoff_triple (P := fun core w => P core w ∧ core.handoff = some handoff.core ∧
      replacing core.lastTargetReport handoff.successor = some report) hP (fun _ _ hp => hp.1) (hnow.andCore rfl _) ?_ _).pre
      fun c w hp => ⟨hp.2, by simp [Controller.core, hp.1.1], hp.1.2⟩
    intro core w handoff' hp hhandoff hattempt
    obtain rfl : handoff' = handoff.core := Option.some.inj (hhandoff.symm.trans hp.2.1)
    exact h.successor core w handoff.core report hp.1 hhandoff hp.2.2 hphase hattempt
  rebound := h.rebound

namespace RestartRules
variable (h : RestartRules E P) (hP : Calm E P)
include h hP

theorem rebindSuccessor : Keeps E P.at rebindSuccessor := by
  unfold Control.rebindSuccessor
  refine Triple.get fun c₀ => theHandoff_seq (fun handoff => ?_) fun _ c w hp => hp.2
  cases hreplacing : replacing c₀.lastTargetReport handoff.successor with
  | none => exact Triple.pure fun c w hp => hp.2.2
  | some report =>
    dsimp only
    split
    · rename_i hphase
      exact (h.successor handoff report _ hphase).pre fun c w hp => ⟨⟨hp.1, by rw [hp.2.1]; exact hreplacing⟩, hp.2.2⟩
    · rename_i hphase
      refine Triple.seq (S := fun _ => P.at) (Triple.modify fun c w hp => ?_) fun _ => save_calm hP
      show P _ w
      rw [core_modifyHandoff_successor]
      refine h.rebound c.core w handoff.core report hp.2.2 (by simp [Controller.core, hp.1]) ?_ (Nat.le_of_not_lt hphase)
      rw [hp.2.1]
      exact hreplacing

theorem reconcileIncarnations_of_revoked (hrevoked : ∀ manifest view, Keeps E P.at (revokeReplaced manifest view)) :
    Keeps E P.at reconcileIncarnations := by
  unfold Control.reconcileIncarnations
  refine get_keeps fun c => ?_
  split
  · refine Keeps.bind (Keeps.attempt (view_calm hP _)) fun view => ?_
    split
    · exact Keeps.pure _
    · refine Keeps.bind (hrevoked _ _) fun _ => ?_
      refine Triple.get fun c₀ => theHandoff_seq (fun handoff => ?_) fun _ c w hp => hp.2
      cases hreplacing : replacing c₀.lastSourceReport handoff.predecessor with
      | none => exact (h.rebindSuccessor hP).pre fun c w hp => hp.2.2
      | some report =>
        dsimp only
        split
        · rename_i hphase
          exact (h.predecessor handoff report _ hphase).pre fun c w hp => ⟨⟨hp.1, by rw [hp.2.1]; exact hreplacing⟩, hp.2.2⟩
        · exact (h.rebindSuccessor hP).pre fun c w hp => hp.2.2
  · exact Keeps.pure _

theorem reconcileIncarnations
    (hack : ∀ shard target id, Admits E P (.authority (.acknowledgeFence shard target id)))
    (hrevoke : ∀ shard id reason, Admits E P (.authority (.revoke shard id reason))) :
    Keeps E P.at reconcileIncarnations :=
  h.reconcileIncarnations_of_revoked hP (revokeReplaced_keeps hP hack hrevoke)

end RestartRules

theorem reconcileIncarnations_keeps (hP : Calm E P) (hnow : Moves E P N .now)
    (hack : ∀ shard target id, Admits E P (.authority (.acknowledgeFence shard target id)))
    (hrevoke : ∀ shard id reason, Admits E P (.authority (.revoke shard id reason))) (h : ReplacementRules P N) :
    Keeps E P.at reconcileIncarnations :=
  (RestartRules.of_replacements h hP hnow).reconcileIncarnations hP hack hrevoke

/-! ## The phases -/

section
variable {B : AuthorityClaim → Assertion W}

theorem advancePrepared_keeps {setup : ControllerSetup} (hP : Calm E P) (hreports : ReportsFree P)
    (hbinding : BindingRules E P B) (hauthority : Keeps E P.at (ensurePredecessorAuthority setup))
    (hphase : Records E P .prepared) : Keeps E P.at (advancePrepared setup) := by
  unfold advancePrepared
  refine Keeps.bind (reportOf_calm hP _) fun source => Keeps.bind (reportOf_calm hP _) fun target => ?_
  refine Keeps.bind (setReports_keeps hreports _ _) fun _ => Keeps.bind hauthority fun _ => ?_
  refine hbinding.seq (fun _ _ hp => hp) fun claim manifest handoff => ?_
  refine Triple.seq (S := fun _ c w => (c.handoff = some handoff ∧ c.manifest = some manifest) ∧ (B claim).at c w)
    ((callOk_frame (hbinding.calm claim) rfl _).post fun r c w hp => ?_) fun _ => ?_
  · cases r with
    | error refusal => exact hbinding.weaken claim _ w hp
    | ok answer => exact hp
  · refine Triple.seq (S := fun _ => P.at) ((hbinding.callOk .prepare).post fun r c w hp => ?_) fun _ => ?_
    · cases r <;> exact hp
    · refine Keeps.bind (modifyHandoff_calm fun _ => rfl) fun _ => ?_
      exact hphase _

theorem advanceSnapshot_keeps (hP : Calm E P) (hbinding : BindingRules E P B)
    (hphase : Records E P .snapshotSynchronized) : Keeps E P.at advanceSnapshot := by
  unfold advanceSnapshot
  refine hbinding.seq (fun _ _ hp => hp) fun claim manifest handoff => ?_
  refine Triple.seq (S := fun _ => P.at) ((hbinding.callOk .prepare).post fun r c w hp => ?_) fun _ => ?_
  · cases r <;> exact hp
  · refine Keeps.bind (callOk_calm hP rfl) fun answer => Keeps.bind (Keeps.lift _) fun image => ?_
    refine Keeps.bind (callOk_calm hP rfl) fun _ => Keeps.bind (modifyHandoff_calm fun _ => rfl) fun _ => ?_
    exact hphase _

theorem catchUpLoop_keeps {setup : ControllerSetup} (hP : Calm E P) (hbinding : BindingRules E P B)
    (hphase : Records E P .snapshotSynchronized) (rounds refreshes targetLsn : Nat) :
    Keeps E P.at (catchUpLoop setup rounds refreshes targetLsn) := by
  induction rounds generalizing refreshes targetLsn with
  | zero => exact Keeps.pure _
  | succ rounds ih =>
    unfold catchUpLoop
    refine Keeps.bind (callOk_calm hP rfl) fun answer => ?_
    split
    · split
      · exact Keeps.throw _
      · refine Keeps.bind (advanceSnapshot_keeps hP hbinding hphase) fun _ => Keeps.bind theHandoff_keeps fun handoff => ?_
        exact ih _ _
    · refine Keeps.bind (orThrow_keeps _ _) fun entries => ?_
      split
      · exact Keeps.pure _
      · refine hbinding.seq (fun _ _ hp => hp) fun claim manifest handoff => ?_
        refine Triple.seq (S := fun _ => P.at) ((hbinding.callOk (.apply entries)).post fun r c w hp => ?_) fun applied => ?_
        · cases r <;> exact hp
        · split
          · exact Keeps.pure _
          · exact Keeps.bind (modifyHandoff_calm fun _ => rfl) fun _ => ih _ _

theorem advanceCatchUp_keeps {setup : ControllerSetup} (hP : Calm E P) (hreports : ReportsFree P)
    (hbinding : BindingRules E P B) (hsnapshot : Records E P .snapshotSynchronized)
    (hmigrate : ∀ manifest, Keeps E P.at (migrateSuccessor manifest)) (hphase : Records E P .caughtUp) :
    Keeps E P.at (advanceCatchUp setup) := by
  unfold advanceCatchUp
  refine Keeps.bind theHandoff_keeps fun handoff => Keeps.bind (catchUpLoop_keeps hP hbinding hsnapshot _ _ _) fun _ => ?_
  refine Keeps.bind (reportOf_calm hP _) fun source => Keeps.bind (reportOf_calm hP _) fun target => ?_
  refine Keeps.bind (setReports_keeps hreports _ _) fun _ => ?_
  split
  · exact Keeps.throw _
  · refine Keeps.bind (modifyHandoff_calm fun _ => rfl) fun _ => Keeps.bind theManifest_keeps fun manifest => ?_
    refine Keeps.bind (whenever_keeps fun _ => hmigrate manifest) fun _ => ?_
    exact hphase _

theorem transferLoop_keeps (hP : Calm E P) (hbinding : BindingRules E P B) (setup : ControllerSetup)
    (sourceLsn rounds : Nat) : Keeps E P.at (transferLoop setup sourceLsn rounds) := by
  induction rounds with
  | zero => exact Keeps.pure _
  | succ rounds ih =>
    unfold transferLoop
    refine Keeps.bind (reportOf_calm hP .target) fun target => ?_
    split
    · exact Keeps.pure _
    · refine Keeps.bind (callOk_calm hP rfl) fun answer => ?_
      split
      · exact Keeps.pure _
      · exact Keeps.pure _
      · refine hbinding.seq (fun _ _ hp => hp) fun claim manifest handoff => ?_
        refine Triple.seq (S := fun _ => P.at) ((hbinding.callOk (.apply _)).post fun r c w hp => ?_) fun _ => ih
        cases r <;> exact hp

end

theorem advanceReadiness_keeps (hP : Calm E P) (hphase : Records E P .readinessVerified) :
    Keeps E P.at advanceReadiness := by
  unfold advanceReadiness
  refine Keeps.bind theManifest_keeps fun manifest => Keeps.bind theHandoff_keeps fun handoff => ?_
  refine Keeps.bind (callOk_calm hP rfl) fun answer => ?_
  split
  · exact Keeps.throw _
  · refine Keeps.bind (modifyHandoff_calm fun _ => rfl) fun _ => ?_
    exact hphase _

theorem requestedFence_keeps (hP : Calm E P)
    (hrequest : ∀ shard target reason, Admits E P (.authority (.requestFence shard target reason)))
    (manifest : EvolutionManifest) (handoff : HandoffRecord) (view : AuthorityView) :
    Keeps E P.at (requestedFence manifest handoff view) := by
  have hfind : Keeps E P.at (requestedFence.findRequested manifest handoff) :=
    Keeps.bind (save_calm hP) fun _ => Keeps.bind (view_calm hP _) fun _ => orThrow_keeps _ _
  unfold requestedFence
  split
  · exact Keeps.pure _
  · refine Keeps.bind (authorityOp_keeps (hrequest _ _ _)) fun outcome => ?_
    split
    · split
      · exact Keeps.throw _
      · exact hfind
    · exact hfind

theorem advanceFence_keeps (hP : Calm E P)
    (hrequest : ∀ shard target reason, Admits E P (.authority (.requestFence shard target reason)))
    (hack : ∀ shard target id, Admits E P (.authority (.acknowledgeFence shard target id)))
    (hcall : ∀ body, Admits E P (.call .source (.fence body))) (hphase : Records E P .predecessorFenced) :
    Keeps E P.at advanceFence := by
  unfold advanceFence
  refine Keeps.bind theManifest_keeps fun manifest => Keeps.bind theHandoff_keeps fun handoff => ?_
  refine Keeps.bind (view_calm hP _) fun view => get_keeps fun c => ?_
  split
  · refine Keeps.bind (acknowledgeFences_keeps (hack _ _) (fun fence => ?_) _) fun _ => ?_
    · exact Keeps.bind (now_calm hP) fun atMs => append_calm hP _
    · exact hphase _
  · unfold fencePredecessor
    refine Keeps.bind (requestedFence_keeps hP hrequest _ _ _) fun fence => Keeps.bind (call_keeps (hcall _)) fun answer => ?_
    split
    · exact deferFence_calm hP _ _
    · refine Keeps.bind (authorityOp_keeps (hack _ _ _)) fun outcome => Keeps.bind (Keeps.lift _) fun _ => ?_
      refine Keeps.bind (modifyHandoff_calm fun _ => rfl) fun _ => Keeps.bind (now_calm hP) fun atMs => ?_
      refine Keeps.bind (append_calm hP _) fun _ => ?_
      exact hphase _

/-- The transfer, from what granting and delivering to the successor keeps; `N` holds while records are replicated. -/
theorem advanceTransfer_triple {setup : ControllerSetup} {B : AuthorityClaim → Assertion W} {N : Assertion W}
    (hP : Calm E P) (hN : Calm E N) (hsame : ∀ core w, N core w → P core w)
    (hreports : ReportsFree P) (hbinding : BindingRules E N B)
    (hgrant : ∀ request, Moves E (fun core w => P core w ∧ core.handoff.map HandoffCore.successor = some request.holder) P
      (.authority (.grant request)))
    (hdeliver : ∀ body, Admits E P (.call .target (.grantAuthority body)))
    (hrevoke : ∀ shard id reason, Admits E P (.authority (.revoke shard id reason)))
    (hphase : Records E P .authorityTransferred) : Triple E N.at (advanceTransfer setup) fun _ => P.at := by
  unfold advanceTransfer
  refine Keeps.seq (reportOf_calm hN _) (fun _ _ _ hp => hsame _ _ hp) fun source => ?_
  refine Keeps.seq (transferLoop_keeps hN hbinding _ _ _) (fun _ _ _ hp => hsame _ _ hp) fun _ => ?_
  refine Triple.pre (P := P.at) ?_ fun c w hp => hsame _ w hp
  refine Keeps.bind (modifyHandoff_calm fun _ => rfl) fun _ => ?_
  refine Keeps.bind (Keeps.modify fun c w hp => hreports c.core w (some source) c.lastTargetReport hp) fun _ => ?_
  unfold transferAuthority
  refine Keeps.bind theManifest_keeps fun manifest => theHandoff_seq (fun handoff => ?_) fun _ _ _ hp => hp
  refine Triple.seq (S := fun _ => P.at) ?_ fun granted => ?_
  · refine (grant_triple (hgrant _)).conseq (fun c w hp => ⟨hp.2, ?_⟩) fun r c w hp => ?_
    · simp [Controller.core, hp.1, HandoffRecord.core, grantRequest]
    · cases r <;> exact hp
  refine Keeps.bind (Keeps.lift _) fun lease => Keeps.bind (deliver_keeps hdeliver) fun delivered => ?_
  split
  · refine Keeps.bind (authorityOp_keeps (hrevoke _ _ _)) fun _ => Keeps.bind (saveQuietly_calm hP) fun _ => ?_
    exact Keeps.throw _
  · refine Keeps.bind (modifyHandoff_calm fun _ => rfl) fun _ => Keeps.bind (now_calm hP) fun atMs => ?_
    refine Keeps.bind (append_calm hP _) fun _ => ?_
    exact hphase _

theorem advanceVerify_keeps (hP : Calm E P) (hphase : Records E P .successorVerified) : Keeps E P.at advanceVerify := by
  unfold advanceVerify
  refine Keeps.bind theManifest_keeps fun manifest => Keeps.bind theHandoff_keeps fun handoff => ?_
  refine Keeps.bind (Keeps.attempt (view_calm hP _)) fun view => ?_
  split
  · exact Keeps.throw _
  · refine Keeps.bind (reportOf_calm hP _) fun target => ?_
    split
    · exact Keeps.throw _
    · refine Keeps.bind (proveFenced_calm hP _) fun _ => Keeps.bind (callOk_calm hP rfl) fun _ => ?_
      exact hphase _

theorem advanceRetire_keeps (hcall : ∀ handoff, Admits E P (.call .source (.retire handoff)))
    (hphase : Records E P .predecessorRetired) (hcomplete : Keeps E P.at (applyAction .complete)) :
    Keeps E P.at advanceRetire := by
  unfold advanceRetire
  refine Keeps.bind theHandoff_keeps fun handoff => Keeps.bind (callOk_keeps (hcall _)) fun _ => ?_
  exact Keeps.bind (hphase _) fun _ => hcomplete

end Control

end FabricEvolution
