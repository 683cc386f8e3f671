import FabricEvolution.System.Walk

/-!
# What the administrative operations keep

* `Walk` : an assertion kept by the parts of the operations, `Walk.advance`, `Walk.runLoop`, ... : and so by
  the operations;
* `beginHandoff_triple`, `reconcile_triple`, `rollBack_triple`, `plan_triple` : the others, part by part.
-/

namespace FabricEvolution
open Lib

namespace Control

theorem core_modifyCampaign_failed (c : Controller) (detail : String) :
    { c with campaign := c.campaign.map fun campaign : CampaignRecord =>
        { campaign with state := .failed, detail := detail } }.core = c.core.inState .failed := by
  cases h : c.campaign <;> simp [Controller.core, ControllerCore.inState, h, CampaignRecord.core]

theorem core_modifyHandoff_phase (c : Controller) (target : HandoffPhase) :
    { c with handoff := c.handoff.map fun handoff : HandoffRecord => { handoff with phase := target } }.core =
      c.core.inPhase target := by
  cases h : c.handoff <;> simp [Controller.core, ControllerCore.inPhase, h, HandoffRecord.core]

/-- The mark at the step of a phase, and the step. -/
def enterPhase (setup : ControllerSetup) (phase : HandoffPhase) : Control Unit := do
  Eff.perform (ControllerOp.enter phase)
  advancePhase setup phase

/-- From `P` the computation ends in `P`, or in `J` if it fails. -/
abbrev Passes {W α : Type} (E : SystemEffects W) (P J : Assertion W) (m : Control α) : Prop :=
  Triple E P.at m (Triple.between (fun _ => P.at) fun (_ : Except Status Unit) => J.at)

section
variable {W α : Type} {E : SystemEffects W} {P J : Assertion W} {m : Control α}

theorem Passes.of_keeps (h : Keeps E P.at m) (hJ : ∀ core w, P core w → J core w) : Passes E P J m :=
  h.between fun _ c w hp => hJ c.core w hp

theorem Passes.keeps (h : Passes E P P m) : Keeps E P.at m := h.post fun r c w hp => by cases r <;> exact hp

theorem Passes.bind {β : Type} {f : α → Control β} (hm : Passes E P J m) (hf : ∀ a, Passes E P J (f a)) :
    Passes E P J (m >>= f) := by
  refine Triple.seq (S := fun _ => P.at) (hm.post fun r c w hp => ?_) hf
  cases r <;> exact hp

/-- What holds after a failure, in the end. -/
theorem Passes.ends (h : Passes E P J m) (hJ : ∀ core w, P core w → J core w) : Triple E P.at m fun _ => J.at :=
  h.post fun r c w hp => by
    cases r with
    | ok a => exact hJ _ w hp
    | error refusal => exact hp

end

/-- What keeping an assertion through `advance` and `run` takes; `A` holds once the nodes are bound, `J` if a handoff
does not get to its beginning. -/
structure Walk {W : Type} (setup : ControllerSetup) (E : SystemEffects W) (P A J : Assertion W) : Prop where
  calm : Calm E P
  weaken : ∀ core w, A core w → P core w
  excuse : ∀ core w, P core w → J core w
  pause : Keeps E P.at (applyAction .pause)
  resume : Keeps E P.at (applyAction .resume)
  reports : Triple E P.at bindNodes (Triple.between (fun _ => A.at) fun (_ : Except Status Unit) => P.at)
  begin : Passes E P J (beginHandoff setup)
  incarnations : Triple E A.at reconcileIncarnations fun _ => P.at
  renew : Keeps E P.at (renewForPhase setup)
  phase : ∀ phase, Triple E (fun c w => c.core.handoff.map (·.phase) = some phase ∧ P.at c w)
    (enterPhase setup phase) fun _ => P.at

/-- A mark that nothing depends on. -/
theorem enterPhase_triple {W : Type} {setup : ControllerSetup} {E : SystemEffects W} {P : Assertion W}
    {phase : HandoffPhase} {N : Assertion W}
    (henter : Moves E (fun core w => P core w ∧ core.handoff.map (·.phase) = some phase) N (.enter phase))
    (h : Triple E N.at (advancePhase setup phase) fun _ => P.at) :
    Triple E (fun c w => c.core.handoff.map (·.phase) = some phase ∧ P.at c w) (enterPhase setup phase) fun _ => P.at :=
  Triple.seq (S := fun _ => N.at) (Triple.perform fun c w hp w₀ henv => henter c w ⟨hp.2, hp.1⟩ w₀ henv) fun _ => h

namespace Walk
variable {W : Type} {setup : ControllerSetup} {E : SystemEffects W} {P A J : Assertion W} (h : Walk setup E P A J)
include h

theorem advanceHandoff : Keeps E P.at (advanceHandoff setup) := by
  unfold Control.advanceHandoff
  refine Triple.seq (S := fun _ => A.at) (h.reports.post fun r c w hp => ?_) fun _ => ?_
  · cases r <;> exact hp
  refine Triple.seq (S := fun _ => P.at) (h.incarnations.post fun r c w hp => ?_) fun _ => Keeps.bind h.renew fun _ => ?_
  · cases r <;> exact hp
  refine Keeps.bind (windowStatus_calm h.calm) fun window => ?_
  split
  · unfold refuseExhausted
    exact Keeps.bind (Keeps.attempt h.pause) fun _ => Keeps.throw _
  · refine theHandoff_seq (fun handoff => ?_) fun _ _ _ hp => hp
    exact (h.phase handoff.phase).pre fun c w hp => ⟨by simp [Controller.core, hp.1, HandoffRecord.core], hp.2⟩

/-- A part that keeps the assertion whether it fails or not. -/
theorem pass {α : Type} {m : Control α} (hm : Keeps E P.at m) : Passes E P J m := .of_keeps hm h.excuse

theorem advance : Passes E P J (advance setup) := by
  unfold Control.advance
  refine Triple.get fun c => Triple.pre (P := P.at) ?_ fun _ _ hp => hp.2
  split
  · split
    · exact h.pass (Keeps.throw _)
    · split
      · exact h.pass (Keeps.pure _)
      · refine Passes.bind ?_ fun _ => h.pass h.advanceHandoff
        unfold Eff.whenever
        split
        · exact h.begin
        · exact h.pass (Keeps.pure _)
  · exact h.pass (Keeps.throw _)

theorem runLoop (steps : Nat) : Passes E P J (runLoop setup steps) := by
  induction steps with
  | zero => exact h.pass (Keeps.throw _)
  | succ steps ih =>
    unfold Control.runLoop
    refine Triple.get fun c => Triple.pre (P := P.at) ?_ fun _ _ hp => hp.2
    split
    · split
      · exact h.pass (Keeps.pure _)
      · refine Passes.bind h.advance fun _ => Passes.bind (h.pass theHandoff_keeps) fun handoff => ?_
        split
        · exact h.pass (Keeps.pure _)
        · exact ih
    · exact h.pass (Keeps.throw _)

theorem runHandoff : Passes E P J (runHandoff setup) :=
  Passes.bind (h.pass theCampaign_keeps) fun _ => h.runLoop _

theorem start : Passes E P J (start setup) := Passes.bind h.begin fun _ => h.runHandoff

theorem runToCompletion : Passes E P J (runToCompletion setup) := by
  unfold Control.runToCompletion
  refine Passes.bind (h.pass theCampaign_keeps) fun _ => Triple.get fun c => Triple.pre (P := P.at) ?_ fun _ _ hp => hp.2
  split
  · exact h.start
  · exact h.runHandoff

theorem resumed : Passes E P J (Control.resume setup) := Passes.bind (h.pass h.resume) fun _ => h.runToCompletion

/-- An abort, given what its acceptance leads to and the rollback from there. -/
theorem abort_from {N : Assertion W} {Γ : Controller → W → Prop} (hΓ : ∀ c w, Γ c w → P.at c w)
    (hN : ∀ core w, N core w → P core w)
    (habort : Triple E Γ (applyAction .abort) (Triple.between (fun _ => N.at) fun (_ : Except Status Unit) => P.at))
    (hrollback : ∀ manifest, Triple E (fun c w => N.at c w ∧ ∃ campaign, c.core.campaign = some campaign ∧
      campaign.state ≠ .aborted ∧ campaign.state ≠ .forwardRecovery) (rollBack setup manifest) fun _ => P.at) :
    Triple E Γ (abort setup) (Triple.between (fun _ => P.at) fun (_ : Except Status Unit) => J.at) := by
  have hpass : ∀ {Γ : Controller → W → Prop} {m : Control Unit}, (∀ c w, Γ c w → P.at c w) → Passes E P J m →
      Triple E Γ m (Triple.between (fun _ => P.at) fun (_ : Except Status Unit) => J.at) := fun hΓ hm => hm.pre hΓ
  unfold Control.abort
  refine Triple.get fun c => Triple.pre (P := Γ) ?_ fun _ _ hp => hp.2
  split
  · refine Triple.seq (S := fun _ => N.at) (habort.post fun r c w hp => ?_) fun _ => ?_
    · cases r with
      | ok u => exact hp
      | error refusal => exact h.excuse _ w hp
    refine Triple.seq (S := fun campaign c w => c.campaign = some campaign ∧ N.at c w) ?_ fun campaign => ?_
    · refine Triple.get fun c₀ => orThrow_triple (fun campaign hsome c w hp => ?_)
        fun c w hp => h.excuse _ w (hN _ w hp.2)
      exact ⟨hp.1 ▸ hsome, hp.2⟩
    · split
      · exact hpass (fun c w hp => hN _ w hp.2) (h.pass (Keeps.pure _))
      · split
        · exact hpass (fun c w hp => hN _ w hp.2) h.runToCompletion
        · rename_i haborted hforward
          refine (hrollback _).conseq (fun c w hp => ⟨hp.2, campaign.core, ?_, haborted, hforward⟩) fun r c w hp => ?_
          · simp [Controller.core, hp.1]
          · cases r with
            | ok u => exact hp
            | error refusal => exact h.excuse _ w hp
  · exact hpass hΓ (h.pass (Keeps.throw _))

theorem abort {N : Assertion W} (hN : ∀ core w, N core w → P core w)
    (habort : Triple E P.at (applyAction .abort) (Triple.between (fun _ => N.at) fun (_ : Except Status Unit) => P.at))
    (hrollback : ∀ manifest, Triple E (fun c w => N.at c w ∧ ∃ campaign, c.core.campaign = some campaign ∧
      campaign.state ≠ .aborted ∧ campaign.state ≠ .forwardRecovery) (rollBack setup manifest) fun _ => P.at) :
    Passes E P J (abort setup) :=
  h.abort_from (fun _ _ hp => hp) hN habort hrollback

end Walk

variable {W : Type} {setup : ControllerSetup} {E : SystemEffects W} {P Q : Assertion W}

theorem preflightChecks_keeps (hP : Calm E P) (hreports : Keeps E P.at bindNodes)
    (hauthority : Keeps E P.at (ensurePredecessorAuthority setup)) : Keeps E P.at (preflightChecks setup) := by
  unfold preflightChecks
  refine Keeps.bind hreports fun _ => Keeps.bind (helloFrom_calm hP _) fun source => ?_
  refine Keeps.bind (helloFrom_calm hP _) fun target => Keeps.bind theManifest_keeps fun manifest => ?_
  exact Keeps.bind (Keeps.lift _) fun _ => Keeps.bind (Keeps.lift _) fun _ => hauthority

/-- A preflight; `R` holds once it is accepted. -/
theorem preflight_keeps {R : Assertion W} (hP : Calm E P) (hR : Calm E R) (hback : ∀ core w, R core w → P core w)
    (haction : Triple E P.at (applyAction .preflight) (Triple.between (fun _ => R.at) fun (_ : Except Status Unit) => P.at))
    (hchecks : Keeps E R.at (preflightChecks setup)) (hfailed : ∀ core w, R core w → P (core.inState .failed) w) :
    Keeps E P.at (preflight setup) := by
  unfold preflight
  refine Keeps.bind theManifest_keeps fun _ => Triple.seq haction fun _ => ?_
  refine Triple.seq (S := fun _ => R.at) ((Keeps.attempt hchecks).post fun r c w hr => ?_) fun checked => ?_
  · cases r with
    | error refusal => exact hback _ w hr
    | ok checked => exact hr
  split
  · unfold failPreflight
    refine Triple.seq (S := fun _ => P.at) (Triple.modify fun c w hr => ?_) fun _ => ?_
    · show P _ w
      rw [core_modifyCampaign_failed]
      exact hfailed _ w hr
    · exact Keeps.bind (saveQuietly_calm hP) fun _ => Keeps.throw _
  · exact (save_calm hR).post fun r c w hr => hback _ w hr

/-- The handoff is in no phase but those satisfying `p`. -/
def InPhase (p : HandoffPhase → Prop) (P : Assertion W) : Assertion W := fun core w =>
  P core w ∧ ∀ h, core.handoff = some h → p h.phase

theorem renewForPhase_triple
    (hpredecessor : Triple E (InPhase (·.value < HandoffPhase.predecessorFenced.value) P).at
      (ensurePredecessorAuthority setup) fun _ => P.at)
    (hsuccessor : Triple E (InPhase (HandoffPhase.authorityTransferred.value ≤ ·.value) P).at
      (ensureSuccessorAuthority setup) fun _ => P.at) : Keeps E P.at (renewForPhase setup) := by
  have hcore : ∀ {c : Controller} {handoff h}, c.handoff = some handoff → c.core.handoff = some h → h.phase = handoff.phase := by
    intro c handoff h hhandoff hh
    obtain rfl : handoff.core = h := by simpa [Controller.core, hhandoff] using hh
    rfl
  unfold renewForPhase
  refine theHandoff_seq (fun handoff => ?_) fun _ _ _ hp => hp
  split
  · rename_i hphase
    exact hpredecessor.pre fun c w hp => ⟨hp.2, fun h hh => by rw [hcore hp.1 hh]; exact hphase.2⟩
  · unfold Eff.whenever
    split
    · rename_i hphase
      exact hsuccessor.pre fun c w hp => ⟨hp.2, fun h hh => by rw [hcore hp.1 hh]; exact hphase⟩
    · exact Triple.pure fun c w hp => hp.2

theorem renewForPhase_keeps (hpredecessor : Keeps E P.at (ensurePredecessorAuthority setup))
    (hsuccessor : Keeps E P.at (ensureSuccessorAuthority setup)) : Keeps E P.at (renewForPhase setup) :=
  renewForPhase_triple (hpredecessor.pre fun _ _ hp => hp.1) (hsuccessor.pre fun _ _ hp => hp.1)

/-! ## The handoff begins -/

/-- While the handoff begins: its campaign is planned, its record is not there yet. -/
def Beginning (manifest : EvolutionManifest) (core : ControllerCore) : Prop :=
  core.manifest = some manifest ∧ core.handoff = none ∧ core.campaign ≠ none

theorem createHandoff_triple (hP : Still E P) (manifest : EvolutionManifest) (hsame : ∀ core w, P core w → Q core w)
    (h : ∀ core w source target, P core w → core.lastSourceReport = some source → core.lastTargetReport = some target →
      Q (core.begun manifest source target) w) :
    Triple E P.at (createHandoff manifest) fun _ => Q.at := by
  unfold createHandoff
  refine Triple.seq (S := fun _ => P.at) ((now_still hP).post fun r c w hp => ?_) fun startedAtMs => ?_
  · cases r with
    | error refusal => exact hsame _ w hp
    | ok _ => exact hp
  · refine Triple.get fun c₀ => ?_
    split
    · rename_i source target hsource htarget
      refine Triple.modify fun c w hp => ?_
      obtain ⟨rfl, hp⟩ := hp
      have hbegun := h c.core w source target hp hsource htarget
      simpa [Assertion.at, Controller.core, ControllerCore.begun, begunHandoff, HandoffRecord.core, Option.map_map,
        Function.comp_def, CampaignRecord.core] using hbegun
    · exact Triple.pure fun c w hp => hsame _ w hp.2

/-- The handoff begins: `A` until the campaign starts, `R` until the nodes are bound, `B` until its record is there, `N`
until the claim of the predecessor is recorded, `Q` from then on. -/
theorem beginHandoff_triple {A R B N : EvolutionManifest → Assertion W} (hQ : Calm E Q)
    (hB : ∀ manifest core w, B manifest core w → N manifest core w)
    (hN : ∀ manifest core w, N manifest core w → Q core w) (hcalm : ∀ manifest, Calm E (B manifest))
    (hpre : ∀ manifest core w, Q core w → core.manifest = some manifest → core.handoff = none → core.campaign ≠ none →
      A manifest core w)
    (hstart : ∀ manifest, Triple E (A manifest).at (applyAction .start)
      (Triple.between (fun _ => (R manifest).at) fun (_ : Except Status Unit) => Q.at))
    (hreports : ∀ manifest, Triple E (R manifest).at bindNodes
      (Triple.between (fun _ => (B manifest).at) fun (_ : Except Status Unit) => Q.at))
    (hbegun : ∀ manifest core w source target, B manifest core w → core.lastSourceReport = some source →
      core.lastTargetReport = some target → N manifest (core.begun manifest source target) w)
    (hauthority : ∀ manifest, Keeps E (N manifest).at (ensurePredecessorAuthority setup))
    (hclaim : ∀ manifest, Triple E (N manifest).at (recordPredecessorClaim manifest)
      (Triple.between (fun _ => (WithHandoff Q).at) fun (_ : Except Status Unit) => Q.at))
    (hwindow : ∀ manifest, Keeps E (WithHandoff Q).at (openWindow manifest)) :
    Keeps E Q.at (beginHandoff setup) := by
  unfold beginHandoff
  refine Triple.get fun c₀ => ?_
  split
  · exact Triple.pure fun c w hp => hp.2
  · rename_i manifest _ hmanifest hcampaign hhandoff
    have hpass : ∀ {R : Assertion W} {r : Except Status Unit} {c w}, (∀ core w, R core w → Q core w) → R.at c w →
        Triple.between (fun _ => R.at) (fun (_ : Except Status Unit) => Q.at) r c w := by
      rintro R (refusal | u) c w hR hp
      · exact hR _ w hp
      · exact hp
    refine Triple.pre (P := (A manifest).at) ?_ fun c w hp => ?_
    · refine Triple.seq (hstart manifest) fun _ => ?_
      refine Triple.seq (hreports manifest) fun _ => ?_
      refine Triple.seq ((createHandoff_triple (hcalm manifest).still manifest (hB manifest) (hbegun manifest)).post
        fun _ _ _ hp => hpass (hN manifest) hp) fun _ => ?_
      refine Triple.seq ((hauthority manifest).post fun _ _ _ hp => hpass (hN manifest) hp) fun _ => ?_
      refine Triple.seq (hclaim _) fun _ => ?_
      refine (Keeps.bind (hwindow _) fun _ => save_calm (withHandoff_calm hQ)).post fun _ c w hp => hp.1
    · obtain ⟨rfl, hp⟩ := hp
      exact hpre manifest _ w hp hmanifest (by simp [Controller.core, hhandoff]) (by simp [Controller.core, hcampaign])
  · exact Triple.throw fun c w hp => hp.2

/-! ## Reconciliation -/

/-- A reconciliation: `A` once the nodes are bound, `N` once replaced participants are dealt with. -/
theorem reconcile_triple {Γ : Controller → W → Prop} {A N : Assertion W} (hP : Calm E P)
    (hΓ : ∀ c w, Γ c w → P.at c w) (hN : ∀ core w, N core w → P core w)
    (hreports : Triple E Γ bindNodes (Triple.between (fun _ => A.at) fun (_ : Except Status Unit) => P.at))
    (hincarnations : Triple E A.at reconcileIncarnations
      (Triple.between (fun _ => N.at) fun (_ : Except Status Unit) => P.at))
    (hauthority : Keeps E N.at (reconcileAuthority setup))
    (htransfer : ∀ manifest, Keeps E N.at (reconcileTransfer manifest)) (hfence : Keeps E N.at reconcileFence)
    (hpredecessor : Triple E N.at reconcilePredecessor fun _ => P.at) : Triple E Γ (reconcile setup) fun _ => P.at := by
  have hpass : ∀ {m : Control Unit}, Keeps E N.at m →
      Triple E N.at m (Triple.between (fun _ => N.at) fun (_ : Except Status Unit) => P.at) := fun hm =>
    hm.post fun r c w hp => by
      cases r with
      | error refusal => exact hN _ w hp
      | ok u => exact hp
  unfold reconcile
  refine Keeps.seq theManifest_keeps (fun _ => hΓ) fun manifest => ?_
  refine Triple.seq (S := fun _ => A.at) (hreports.post fun r c w hp => ?_) fun _ => ?_
  · cases r <;> exact hp
  refine Triple.seq (S := fun _ => N.at) (hincarnations.post fun r c w hp => ?_) fun _ => ?_
  · cases r <;> exact hp
  refine Triple.seq (hpass hauthority) fun _ => Triple.get fun c => ?_
  split
  · exact Triple.pure fun c w hp => hN _ w hp.2
  · refine Triple.pre (P := N.at) ?_ fun c w hp => hp.2
    unfold reconcileHandoff
    refine Triple.seq (hpass (htransfer _)) fun _ => Triple.seq (hpass hfence) fun _ => ?_
    refine Triple.seq (S := fun _ => P.at) (hpredecessor.post fun r c w hp => ?_) fun _ => ?_
    · cases r <;> exact hp
    refine Keeps.bind (now_calm hP) fun atMs => get_keeps fun c => Keeps.bind theHandoff_keeps fun handoff => ?_
    exact Keeps.bind (append_calm hP _) fun _ => save_calm hP

theorem reconcileAuthority_triple
    (hpredecessor : Triple E (InPhase (·.value < HandoffPhase.predecessorFenced.value) P).at
      (ensurePredecessorAuthority setup) fun _ => P.at)
    (hsuccessor : Triple E (InPhase (HandoffPhase.authorityTransferred.value ≤ ·.value) P).at
      (ensureSuccessorAuthority setup) fun _ => P.at) : Keeps E P.at (reconcileAuthority setup) := by
  have hcore : ∀ {c : Controller} {h}, c.core.handoff = some h → c.handoff.map (·.phase.value) = some h.phase.value := by
    intro c h hh
    obtain ⟨handoff, hhandoff, rfl⟩ := Option.map_eq_some_iff.mp hh
    rw [hhandoff]
    rfl
  unfold reconcileAuthority Eff.whenever
  refine Triple.get fun c₀ => Triple.seq (S := fun _ => P.at) ?_ fun _ => Triple.get fun c₁ => ?_
  · split
    · rename_i hphase
      refine Triple.seq (S := fun _ => P.at) (Triple.attempt (hpredecessor.pre fun c w hp => ⟨hp.2, fun h hh => ?_⟩)) fun _ =>
        Triple.pure fun _ _ hp => hp
      obtain ⟨rfl, -⟩ := hp
      rw [hcore hh] at hphase
      simpa using hphase
    · exact Triple.pure fun c w hp => hp.2
  · dsimp only
    split
    · rename_i hphase
      refine Triple.seq (S := fun _ => P.at) (Triple.attempt (hsuccessor.pre fun c w hp => ⟨hp.2, fun h hh => ?_⟩)) fun _ =>
        Triple.pure fun _ _ hp => hp
      obtain ⟨rfl, -⟩ := hp
      rw [hcore hh] at hphase
      simpa using hphase
    · exact Triple.pure fun c w hp => hp.2

theorem reconcileAuthority_keeps (hpredecessor : Keeps E P.at (ensurePredecessorAuthority setup))
    (hsuccessor : Keeps E P.at (ensureSuccessorAuthority setup)) : Keeps E P.at (reconcileAuthority setup) :=
  reconcileAuthority_triple (hpredecessor.pre fun _ _ hp => hp.1) (hsuccessor.pre fun _ _ hp => hp.1)

theorem reconcileTransfer_keeps (hP : Calm E P) (hphase : Records E P .authorityTransferred)
    (manifest : EvolutionManifest) : Keeps E P.at (reconcileTransfer manifest) := by
  unfold reconcileTransfer
  refine Keeps.bind (Keeps.attempt (view_calm hP _)) fun view => get_keeps fun c => ?_
  refine Keeps.bind theHandoff_keeps fun handoff => ?_
  split
  · exact whenever_keeps fun _ => hphase _
  · exact Keeps.pure _

/-- The predecessor reports that it is fenced, in `ReadinessVerified`. -/
def ReportsFenced (core : ControllerCore) : Prop :=
  (∃ report, core.lastSourceReport = some report ∧ isFencedLifecycle report.lifecycle = true) ∧
    core.handoff.map HandoffCore.phase = some .readinessVerified

theorem reconcileFence_triple
    (hphase : ∀ note, Triple E (Assertion.at fun core w => P core w ∧ ReportsFenced core)
      (recordPhase .predecessorFenced note) fun _ => P.at) : Keeps E P.at reconcileFence := by
  unfold reconcileFence
  refine Triple.get fun c₀ => theHandoff_seq (fun handoff => ?_) fun _ c w hp => hp.2
  unfold Eff.whenever
  split
  · rename_i hfenced
    refine (hphase _).pre fun c w hp => ?_
    obtain ⟨hhandoff, rfl, hp⟩ := hp
    obtain ⟨report, hreport, hlifecycle⟩ := (Option.any_eq_true _ _).mp hfenced.1
    exact ⟨hp, ⟨report, hreport, hlifecycle⟩, by simp [Controller.core, hhandoff, HandoffRecord.core, hfenced.2]⟩
  · exact Triple.pure fun c w hp => hp.2.2

theorem reconcileFence_keeps (hphase : Records E P .predecessorFenced) : Keeps E P.at reconcileFence :=
  reconcileFence_triple fun note => (hphase note).pre fun _ _ hp => hp.1

/-- The predecessor is a new incarnation. -/
theorem reconcilePredecessor_restarts (hsame : ∀ core w, P core w → Q core w)
    (h : ∀ (handoff : HandoffRecord) (report : NodeReport) note,
      provablyReplaced handoff.predecessor report.incarnation = true → handoff.phase.isTerminal = false →
      handoff.phase.value < HandoffPhase.predecessorFenced.value →
      Triple E (fun c w => (c.handoff = some handoff ∧ c.lastSourceReport = some report) ∧ P.at c w)
        (restartHandoff report.incarnation handoff.successor .notStarted note) fun _ => Q.at) :
    Triple E P.at reconcilePredecessor fun _ => Q.at := by
  unfold reconcilePredecessor
  refine Triple.get fun c₀ => theHandoff_seq (fun handoff => ?_) fun _ c w hp => hsame _ w hp.2
  split
  · exact Triple.pure fun c w hp => hsame _ w hp.2.2
  · rename_i report hreport
    obtain ⟨hreport, hreplaced⟩ := Option.filter_eq_some_iff.mp hreport
    unfold Eff.whenever
    split
    · rename_i hphase
      have hterminal : handoff.phase.isTerminal = false := by simpa using hphase.1
      exact (h handoff report _ hreplaced hterminal hphase.2).pre fun c w hp => ⟨⟨hp.1, hp.2.1 ▸ hreport⟩, hp.2.2⟩
    · exact Triple.pure fun c w hp => hsame _ w hp.2.2

/-- The same from a rule on the core; `N` holds once the clock is read. -/
theorem reconcilePredecessor_triple {N : Assertion W} (hQ : Calm E Q) (hsame : ∀ core w, P core w → Q core w)
    (hnow : Moves E P N .now)
    (h : ∀ core w handoff report, N core w → core.handoff = some handoff → core.lastSourceReport = some report →
      provablyReplaced handoff.predecessor report.incarnation = true → handoff.phase.isTerminal = false →
      handoff.phase.value < HandoffPhase.predecessorFenced.value → handoff.attempt < maxHandoffRestarts →
      Q (core.rewound report.incarnation handoff.successor .notStarted) w) :
    Triple E P.at reconcilePredecessor fun _ => Q.at := by
  refine reconcilePredecessor_restarts hsame fun handoff report note hreplaced hterminal hphase => ?_
  refine (restartHandoff_triple (P := fun core w => P core w ∧ core.handoff = some handoff.core ∧
    core.lastSourceReport = some report) hQ (fun _ _ hp => hsame _ _ hp.1) (hnow.andCore rfl _) ?_ _).pre
    fun c w hp => ⟨hp.2, by simp [Controller.core, hp.1.1], hp.1.2⟩
  intro core w handoff' hp hhandoff hattempt
  obtain rfl : handoff' = handoff.core := Option.some.inj (hhandoff.symm.trans hp.2.1)
  exact h core w handoff.core report hp.1 hhandoff hp.2.2 hreplaced hterminal hphase hattempt

/-! ## Rollback -/

/-- Restoring the predecessor does not fail: what stands in the way is passed over. -/
theorem restorePredecessor_between (hstatus : Admits E P (.call .source .status)) (hnow : Admits E P .now)
    (hgrant : ∀ request, Admits E P (.authority (.grant request)))
    (hdeliver : ∀ body, Admits E P (.call .source (.grantAuthority body))) (manifest : EvolutionManifest)
    {R : Except Status Unit → Controller → W → Prop} :
    Triple E P.at (restorePredecessor setup manifest) (Triple.between (fun _ => P.at) R) := by
  have hdone : ∀ c w, P.at c w → Triple.between (fun (_ : Unit) => P.at) R (.ok ()) c w := fun _ _ hp => hp
  unfold restorePredecessor
  refine Triple.seq (S := fun _ => P.at) (Triple.attempt (reportOf_keeps hstatus)) fun report => ?_
  split
  · exact Triple.pure hdone
  · refine Triple.seq (S := fun _ => P.at) (Triple.attempt (view_keeps hnow _)) fun view => ?_
    split
    · exact Triple.pure hdone
    · refine Triple.seq (grant_between (hgrant _)) fun granted => ?_
      split
      · exact Triple.pure hdone
      · refine Triple.seq (S := fun _ => P.at) ?_ fun _ => Triple.pure hdone
        exact Triple.get fun c => (call_between (hdeliver _)).pre fun _ _ hp => hp.2

/-- A rollback: `N` while the predecessor gets its authority back, `R` once the handoff is aborted, or if there is none. -/
theorem rollBack_triple {Γ : Controller → W → Prop} {N R : Assertion W} (hP : Calm E P) (hR : Calm E R)
    (hΓ : ∀ c w, Γ c w → c.core.handoff ≠ none → N.at c w) (hsome : ∀ core w, N core w → core.handoff ≠ none)
    (hback : ∀ core w, R core w → P core w)
    (hrestore : ∀ manifest, Triple E N.at (restorePredecessor setup manifest)
      (Triple.between (fun _ => N.at) fun (_ : Except Status Unit) => P.at))
    (hretire : ∀ handoff, Admits E N (.call .target (.retire handoff)))
    (haborted : ∀ core w, N core w → R (core.inPhase .aborted) w)
    (hnone : ∀ c w, Γ c w → c.core.handoff = none → R.at c w)
    (hconfirm : Triple E R.at (applyAction .confirmAbort) fun _ => P.at) (manifest : EvolutionManifest) :
    Triple E Γ (rollBack setup manifest) fun _ => P.at := by
  have hconfirmed : Triple E R.at (applyAction .confirmAbort >>= fun _ => save) fun _ => P.at := by
    refine Triple.seq (S := fun _ => P.at) (hconfirm.post fun r c w hp => ?_) fun _ => save_calm hP
    cases r <;> exact hp
  unfold rollBack
  refine Triple.get fun c₀ => ?_
  cases hhandoff : c₀.handoff with
  | none =>
    refine Triple.pre (P := R.at) ?_ fun c w hp => ?_
    · have hskip : ∀ {p : Prop} [Decidable p] {m : Control Unit}, ¬ p → Keeps E R.at (Eff.whenever p m) :=
        fun hno => whenever_keeps fun hp => absurd hp hno
      refine Keeps.seq (hskip (by simp)) (fun _ _ w hr => hback _ w hr) fun _ => ?_
      refine Keeps.seq (hskip (by simp)) (fun _ _ w hr => hback _ w hr) fun _ => ?_
      exact Keeps.seq (hskip (by simp)) (fun _ _ w hr => hback _ w hr) fun _ => hconfirmed
    · exact hnone _ w hp.2 (by rw [hp.1]; simp [Controller.core, hhandoff])
  | some handoff =>
    refine Triple.pre (P := N.at) ?_ fun c w hp => hΓ c w hp.2 (by rw [hp.1]; simp [Controller.core, hhandoff])
    have hwhenever : ∀ {p : Prop} [Decidable p] {m : Control Unit},
        Triple E N.at m (Triple.between (fun _ => N.at) fun (_ : Except Status Unit) => P.at) →
        Triple E N.at (Eff.whenever p m) (Triple.between (fun _ => N.at) fun (_ : Except Status Unit) => P.at) := by
      intro p _ m hm
      unfold Eff.whenever
      split
      · exact hm
      · exact Triple.pure fun c w hp => hp
    refine Triple.seq (hwhenever (hrestore manifest)) fun _ => Triple.seq (hwhenever ?_) fun _ => ?_
    · unfold retireSuccessor theHandoff
      refine Triple.seq (S := fun _ => N.at) (Triple.get fun c₁ => ?_) fun handoff =>
        Triple.seq (call_between (hretire _)) fun _ => Triple.pure fun c w hp => hp
      cases hfound : c₁.handoff with
      | none => exact fun c w hp => absurd (by rw [hp.1]; simp [Controller.core, hfound]) (hsome c.core w hp.2)
      | some found => exact Triple.lift fun c w hp => hp.2
    · refine Triple.seq (S := fun _ => R.at) ?_ fun _ => hconfirmed
      unfold Eff.whenever
      rw [if_pos (show (some handoff).isSome = true from rfl)]
      refine Triple.seq (S := fun _ => R.at) (Triple.modify fun c w hp => ?_) fun _ => ?_
      · show R _ w
        rw [core_modifyHandoff_phase]
        exact haborted _ w hp
      · refine Keeps.seq (now_calm hR) (fun _ _ w hr => hback _ w hr) fun updatedAtMs => ?_
        refine Keeps.between (modifyHandoff_calm fun _ => rfl) ?_
        exact fun _ c w hr => hback c.core w hr

/-- A rollback of an assertion that does without the authority; `R` holds once the handoff is aborted, or if there is none. -/
theorem rollBack_keeps {R : Assertion W} (hP : Calm E P) (hR : Calm E R) (hback : ∀ core w, R core w → P core w)
    (hgrant : ∀ request, Admits E P (.authority (.grant request)))
    (hdeliver : ∀ body, Admits E P (.call .source (.grantAuthority body)))
    (hretire : ∀ handoff, Admits E P (.call .target (.retire handoff)))
    (haborted : ∀ core w, P core w → R (core.inPhase .aborted) w)
    (hnone : ∀ core w, P core w → core.handoff = none → R core w)
    (hconfirm : Triple E R.at (applyAction .confirmAbort) fun _ => P.at) (manifest : EvolutionManifest) :
    Keeps E P.at (rollBack setup manifest) := by
  have hF : ∀ {o : ControllerOp} (x : o.Answer) (core : ControllerCore), core.handoff ≠ none →
      (o.coreAfter x core).handoff ≠ none := by
    intro o x core hcore
    cases o <;> exact hcore
  refine rollBack_triple (N := fun core w => P core w ∧ core.handoff ≠ none) hP hR (fun _ _ hp hsome => ⟨hp, hsome⟩)
    (fun _ _ hp => hp.2) hback (fun _ => restorePredecessor_between ?_ ?_ (fun _ => ?_) (fun _ => ?_) _) (fun _ => ?_)
    (fun core w hp => haborted core w hp.1) (fun c w hp => hnone c.core w hp) hconfirm manifest
  · exact (hP _ rfl).andStable hF
  · exact (hP _ rfl).andStable hF
  · exact (hgrant _).andStable hF
  · exact (hdeliver _).andStable hF
  · exact (hretire _).andStable hF

/-! ## Planning -/

theorem establishShard_keeps (hP : Calm E P) (h : ∀ shard epoch, Admits E P (.authority (.establish shard epoch)))
    (manifest : EvolutionManifest) : Keeps E P.at (establishShard setup manifest) := by
  unfold establishShard
  refine get_keeps fun c => ?_
  split
  · exact Keeps.pure _
  · refine Keeps.bind (authorityOp_keeps (h _ _)) fun outcome => Keeps.bind (Keeps.lift _) fun _ => ?_
    exact Keeps.bind (now_calm hP) fun atMs => append_calm hP _

/-- A plan: `A` once the manifest is admitted, `B` once it is the manifest. -/
theorem plan_triple {manifest : EvolutionManifest} {Γ : Controller → W → Prop} {A B : EvolutionManifest → Assertion W}
    (hA : ∀ sealed, Calm E (A sealed)) (hB : ∀ sealed, Admits E (B sealed) .now) (hQ : Calm E Q)
    (hΓ : ∀ c w, Γ c w → Q.at c w) (hsame : ∀ sealed core w, A sealed core w → Q core w)
    (hadmitted : ∀ sealed c w, Γ c w → refuseRunning c = .ok () → setup.admission manifest = .ok sealed →
      (A sealed).at c w)
    (hestablish : ∀ sealed shard epoch, Admits E (A sealed) (.authority (.establish shard epoch)))
    (hmanifest : ∀ sealed core w, A sealed core w → B sealed { core with manifest := some sealed } w)
    (hplanned : ∀ sealed core w, B sealed core w → Q (core.planned sealed) w) :
    Triple E Γ (plan setup manifest) fun _ => Q.at := by
  unfold plan
  refine Triple.get fun c₀ => ?_
  refine Triple.seq (S := fun _ c w => refuseRunning c = .ok () ∧ Γ c w) (Triple.lift fun c w hp => ?_) fun _ => ?_
  · cases hrunning : refuseRunning c₀ with
    | error refusal => exact hΓ c w hp.2
    | ok u => exact ⟨hp.1 ▸ hrunning, hp.2⟩
  refine Triple.seq (S := fun sealed => (A sealed).at) (Triple.lift fun c w hp => ?_) fun sealed => ?_
  · cases hadmission : setup.admission manifest with
    | error refusal => exact hΓ c w hp.2
    | ok sealed => exact hadmitted sealed c w hp.2 hp.1 hadmission
  refine Triple.seq (S := fun _ => (A sealed).at)
    ((establishShard_keeps (hA sealed) (hestablish sealed) sealed).post fun r c w hp => ?_) fun _ => ?_
  · cases r with
    | error refusal => exact hsame sealed _ w hp
    | ok u => exact hp
  refine Triple.seq (S := fun _ => (B sealed).at) (Triple.modify fun c w hp => hmanifest sealed _ w hp) fun _ => ?_
  have hread : Triple E (B sealed).at now (Triple.between (fun _ => (B sealed).at) fun (_ : Except Status Unit) => Q.at) := by
    unfold now
    exact Triple.perform fun c w hp w₀ henv =>
      ⟨(hB sealed c w hp w₀ henv).1, fun x w₁ hx => (hB sealed c w hp w₀ henv).2 x w₁ hx⟩
  refine Triple.seq hread fun updatedAtMs => Triple.seq hread fun atMs => ?_
  refine Triple.seq (S := fun _ => Q.at) (Triple.modify fun c w hp => ?_) fun _ => save_calm hQ
  exact hplanned sealed c.core w hp

/-! ## Assertions that hardly anything touches -/

/-- Every effect but a migration keeps the assertion, and so does every part of the operations that moves the records,
the entry into `SuccessorVerified` and the acceptance of an abort apart. -/
structure PartRules (setup : ControllerSetup) (E : SystemEffects W) (P : Assertion W) : Prop where
  effect : ∀ o : ControllerOp, (∀ handoff steps, o ≠ .call .target (.migrate handoff steps)) → Admits E P o
  reports : ReportsFree P
  phase : ∀ target, target ≠ .successorVerified → Records E P target
  act : ∀ action, action ≠ .abort → Keeps E P.at (applyAction action)
  failed : ∀ core w, P core w → P (core.inState .failed) w
  incarnations : Keeps E P.at reconcileIncarnations
  replaced : Keeps E P.at reconcilePredecessor
  rollBack : ∀ manifest, Keeps E P.at (rollBack setup manifest)

namespace PartRules
variable {J : Assertion W} (h : PartRules setup E P)
include h

theorem calm : Calm E P := fun o ho => h.effect o fun _ _ heq => by
  subst heq
  cases ho

theorem bindNodes : Triple E P.at bindNodes (Triple.between (fun _ => P.at) fun (_ : Except Status Unit) => P.at) :=
  (bindNodes_keeps h.calm h.reports).post fun r c w hp => by cases r <;> exact hp

theorem registry (op : RegistryOp) : Admits E P (.authority op) := h.effect _ (by simp)

theorem deliver (role : NodeRole) (body : GrantBody) : Admits E P (.call role (.grantAuthority body)) :=
  h.effect _ (by simp)

theorem holder (role : NodeRole) (holder : IncarnationId) : HolderRules E P role holder where
  grant _ _ _ := fun c w hp => h.registry _ c w hp.1
  deliver := h.deliver role
  reattest _ := h.effect _ (by simp)
  revoke _ _ _ := h.registry _
  reattested _ _ := h.registry _

theorem predecessor : Keeps E P.at (ensurePredecessorAuthority setup) :=
  ensurePredecessorAuthority_keeps h.calm.still (h.holder _)

theorem successor : Keeps E P.at (ensureSuccessorAuthority setup) :=
  ensureSuccessorAuthority_keeps h.calm.still (h.holder _)

theorem binding : BindingRules E P fun _ => P where
  calm _ := h.calm
  weaken _ _ _ hp := hp
  read missing := (sourceClaim_calm h.calm missing).post fun r c w hp => by cases r <;> exact hp
  send _ _ _ request hbinds := by
    intro c w _ _ hp w₀ henv
    have hcall : Admits E P (.call .target request) := h.effect _ (by cases hbinds <;> simp)
    exact hcall c w hp w₀ henv

/-- The step of a phase, where the mark before it is of no interest. -/
theorem enter {phase : HandoffPhase} (hstep : Keeps E P.at (advancePhase setup phase)) :
    Triple E (fun c w => c.core.handoff.map (·.phase) = some phase ∧ P.at c w) (enterPhase setup phase) fun _ => P.at :=
  enterPhase_triple (N := P) (fun c w hp => h.effect (.enter phase) (by simp) c w hp.1) hstep

theorem verify (hphase : Records E P .successorVerified) :
    Triple E (fun c w => c.core.handoff.map (·.phase) = some .authorityTransferred ∧ P.at c w)
      (enterPhase setup .authorityTransferred) fun _ => P.at :=
  h.enter (advanceVerify_keeps h.calm hphase)

theorem walk (hJ : ∀ core w, P core w → J core w) (hbegin : Passes E P J (beginHandoff setup))
    (hmigrate : ∀ manifest, Keeps E P.at (migrateSuccessor manifest))
    (hverify : Triple E (fun c w => c.core.handoff.map (·.phase) = some .authorityTransferred ∧ P.at c w)
      (enterPhase setup .authorityTransferred) fun _ => P.at) : Walk setup E P P J where
  calm := h.calm
  weaken _ _ hp := hp
  excuse := hJ
  pause := h.act _ (by decide)
  resume := h.act _ (by decide)
  reports := h.bindNodes
  begin := hbegin
  incarnations := h.incarnations
  renew := renewForPhase_keeps h.predecessor h.successor
  phase phase := by
    cases phase with
    | notStarted =>
      exact h.enter (advancePrepared_keeps h.calm h.reports h.binding h.predecessor (h.phase _ (by decide)))
    | prepared => exact h.enter (advanceSnapshot_keeps h.calm h.binding (h.phase _ (by decide)))
    | snapshotSynchronized =>
      exact h.enter (advanceCatchUp_keeps h.calm h.reports h.binding (h.phase _ (by decide)) hmigrate
        (h.phase _ (by decide)))
    | caughtUp => exact h.enter (advanceReadiness_keeps h.calm (h.phase _ (by decide)))
    | readinessVerified =>
      exact h.enter (advanceFence_keeps h.calm (fun _ _ _ => h.registry _) (fun _ _ _ => h.registry _)
        (fun _ => h.effect _ (by simp)) (h.phase _ (by decide)))
    | predecessorFenced =>
      exact h.enter (advanceTransfer_triple h.calm h.calm (fun _ _ hp => hp) h.reports h.binding
        (fun _ c w hp => h.registry _ c w hp.1) (h.deliver _)
        (fun _ _ _ => h.registry _) (h.phase _ (by decide)))
    | authorityTransferred => exact hverify
    | successorVerified =>
      exact h.enter (advanceRetire_keeps (fun _ => h.effect _ (by simp)) (h.phase _ (by decide)) (h.act _ (by decide)))
    | predecessorRetired => exact h.enter (Keeps.pure _)
    | failed => exact h.enter (Keeps.throw _)
    | aborted => exact h.enter (Keeps.throw _)

theorem reconcile : Keeps E P.at (reconcile setup) := by
  refine reconcile_triple (A := P) (N := P) h.calm (fun _ _ hp => hp) (fun _ _ hp => hp) h.bindNodes (h.incarnations.post fun r c w hp => ?_)
    (reconcileAuthority_keeps h.predecessor h.successor) (reconcileTransfer_keeps h.calm (h.phase _ (by decide)))
    (reconcileFence_keeps (h.phase _ (by decide))) h.replaced
  cases r <;> exact hp

/-- Every operation keeps the assertion, given an abort and the three that create records; `J` is what is left if a handoff
does not get to its beginning. -/
theorem keeps_of_abort (hJ : ∀ core w, P core w → J core w) (hbegin : Passes E P J (beginHandoff setup))
    (hmigrate : ∀ manifest, Keeps E P.at (migrateSuccessor manifest))
    (hverify : Triple E (fun c w => c.core.handoff.map (·.phase) = some .authorityTransferred ∧ P.at c w)
      (enterPhase setup .authorityTransferred) fun _ => P.at) {Γ : Controller → W → Prop} {op : AdminOp}
    (hΓ : ∀ c w, Γ c w → P.at c w)
    (hplan : ∀ manifest, op = .plan manifest → Triple E Γ (plan setup manifest) fun _ => P.at)
    (habort : op = .abort → Triple E Γ (Control.abort setup) fun _ => J.at) :
    Triple E Γ (op.control setup) fun _ => J.at := by
  have hwalk := h.walk hJ hbegin hmigrate hverify
  have hends : ∀ {m : Control Unit}, Passes E P J m → Triple E Γ m fun _ => J.at := fun hm => (hm.ends hJ).pre hΓ
  cases op with
  | plan manifest => exact (hplan manifest rfl).post fun _ _ w hp => hJ _ w hp
  | preflight =>
    refine hends (hwalk.pass (preflight_keeps (R := P) h.calm h.calm (fun _ _ hp => hp) ((h.act _ (by decide)).post fun r c w hp => ?_)
      ?_ h.failed))
    · cases r <;> exact hp
    · exact preflightChecks_keeps h.calm (bindNodes_keeps h.calm h.reports) h.predecessor
  | start => exact hends hwalk.start
  | advance => exact hends hwalk.advance
  | run => exact hends hwalk.runToCompletion
  | pause => exact hends (hwalk.pass hwalk.pause)
  | resume => exact hends hwalk.resumed
  | abort => exact habort rfl
  | reconcile => exact hends (hwalk.pass h.reconcile)

end PartRules

/-- An accepted abort keeps the assertion, too. -/
structure StepRules (setup : ControllerSetup) (E : SystemEffects W) (P : Assertion W) : Prop extends PartRules setup E P where
  action : ∀ action, Keeps E P.at (applyAction action)
  act := fun chosen _ => action chosen

/-- Every operation keeps the assertion, given the three that create records; `J` is what is left if a handoff does not
get to its beginning. -/
theorem StepRules.keeps {J : Assertion W} (h : StepRules setup E P) (hJ : ∀ core w, P core w → J core w)
    (hbegin : Passes E P J (beginHandoff setup)) (hmigrate : ∀ manifest, Keeps E P.at (migrateSuccessor manifest))
    (hverify : Triple E (fun c w => c.core.handoff.map (·.phase) = some .authorityTransferred ∧ P.at c w)
      (enterPhase setup .authorityTransferred) fun _ => P.at) {Γ : Controller → W → Prop} {op : AdminOp}
    (hΓ : ∀ c w, Γ c w → P.at c w)
    (hplan : ∀ manifest, op = .plan manifest → Triple E Γ (plan setup manifest) fun _ => P.at) :
    Triple E Γ (op.control setup) fun _ => J.at := by
  refine h.keeps_of_abort hJ hbegin hmigrate hverify hΓ hplan fun _ => ?_
  refine Triple.pre (((h.walk hJ hbegin hmigrate hverify).abort (N := P) (fun _ _ hp => hp) ((h.action _).post fun r c w hp => ?_)
    fun manifest => (h.rollBack manifest).pre fun c w hp => hp.1).ends hJ) hΓ
  cases r <;> exact hp

/-- Every effect but a migration keeps the assertion, and so does every move of the records but the entry into
`SuccessorVerified`. -/
structure FreeRules (E : SystemEffects W) (P : Assertion W) : Prop where
  effect : ∀ o : ControllerOp, (∀ handoff steps, o ≠ .call .target (.migrate handoff steps)) → Admits E P o
  reports : ReportsFree P
  phase : ∀ target, target ≠ .successorVerified → PhaseRule P P target
  aborted : ∀ core w, P core w → P (core.inPhase .aborted) w
  state : ∀ core w target, P core w → P (core.inState target) w
  rewound : ∀ core w predecessor successor target, target.value ≤ HandoffPhase.prepared.value → P core w →
    P (core.rewound predecessor successor target) w
  rebound : ∀ core w successor, P core w → P (core.rebound successor) w

theorem HandoffPhase.rewindTarget_value_le (phase : HandoffPhase) :
    phase.rewindTarget.value ≤ HandoffPhase.prepared.value := by
  unfold HandoffPhase.rewindTarget
  split_ifs <;> decide

namespace FreeRules
variable (h : FreeRules E P)
include h

theorem calm : Calm E P := fun o ho => h.effect o fun _ _ heq => by
  subst heq
  cases ho

theorem action (action : CampaignAction) : Keeps E P.at (applyAction action) :=
  applyAction_triple h.calm h.calm (fun _ _ hp => hp) fun c w _ _ target _ _ hp _ _ _ => h.state c.core w target hp

theorem steps : StepRules setup E P where
  effect := h.effect
  reports := h.reports
  phase target htarget := (h.phase target htarget).records h.calm
  action := h.action
  failed core w hp := h.state core w .failed hp
  incarnations :=
    reconcileIncarnations_keeps (N := P) h.calm (h.calm .now rfl) (fun _ _ _ => h.effect _ (by simp))
      (fun _ _ _ => h.effect _ (by simp))
      { predecessor := fun core w _ _ hp _ _ _ _ => h.rewound core w _ _ _ (by decide) hp
        successor := fun core w _ _ hp _ _ _ _ => h.rewound core w _ _ _ (HandoffPhase.rewindTarget_value_le _) hp
        rebound := fun core w _ _ hp _ _ _ => h.rebound core w _ hp }
  replaced := reconcilePredecessor_triple (N := P) h.calm (fun _ _ hp => hp) (h.calm .now rfl)
    fun core w _ _ hp _ _ _ _ _ _ => h.rewound core w _ _ _ (by decide) hp
  rollBack manifest := rollBack_keeps (R := P) h.calm h.calm (fun _ _ hp => hp) (fun _ => h.effect _ (by simp))
    (fun _ => h.effect _ (by simp)) (fun _ => h.effect _ (by simp)) h.aborted (fun _ _ hp _ => hp) (h.action _) manifest

theorem verify (hphase : PhaseRule P P .successorVerified) :
    Triple E (fun c w => c.core.handoff.map (·.phase) = some .authorityTransferred ∧ P.at c w)
      (enterPhase setup .authorityTransferred) fun _ => P.at :=
  h.steps.verify (hphase.records h.calm)

/-- Every operation keeps the assertion, given the three that create records. -/
theorem keeps (hbegin : Keeps E P.at (beginHandoff setup))
    (hmigrate : ∀ manifest, Keeps E P.at (migrateSuccessor manifest))
    (hverify : Triple E (fun c w => c.core.handoff.map (·.phase) = some .authorityTransferred ∧ P.at c w)
      (enterPhase setup .authorityTransferred) fun _ => P.at) {Γ : Controller → W → Prop} {op : AdminOp}
    (hΓ : ∀ c w, Γ c w → P.at c w)
    (hplan : ∀ manifest, op = .plan manifest → Triple E Γ (plan setup manifest) fun _ => P.at) :
    Triple E Γ (op.control setup) fun _ => P.at :=
  h.steps.keeps (fun _ _ hp => hp) (.of_keeps hbegin fun _ _ hp => hp) hmigrate hverify hΓ hplan

end FreeRules

end Control

end FabricEvolution
