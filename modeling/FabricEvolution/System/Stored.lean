import FabricEvolution.Node.Transfer
import FabricEvolution.System.Storing

/-!
# The state file of every run

* `advance*_storing`, `*_storing` : the step of each phase and the administrative operations keep the state storable;
* `SystemSetup.AdmitsDocuments` : the manifests that are planned were read and admitted, `StateFile.Holds` : the file of a state;
* `state_restores` : what any state of a run saves, a fresh process reads back.
-/

namespace FabricEvolution
open Lib

namespace Control
variable {S : SystemSetup}

/-! ## Preparation, snapshot, catch-up -/

theorem advancePrepared_storing (setup : ControllerSetup) : Keeps (storingEffects S) (Storing S) (advancePrepared setup) := by
  unfold advancePrepared
  refine Finds.bind (reportOf_finds _) fun source hsource => Finds.bind (reportOf_finds _) fun target htarget => ?_
  refine Keeps.bind (setReports_storing hsource htarget) fun _ => ?_
  refine Keeps.bind (ensurePredecessorAuthority_storing setup) fun _ => Keeps.bind (sourceClaim_storing _) fun claim => ?_
  refine Keeps.bind theManifest_keeps fun manifest => Keeps.bind theHandoff_keeps fun handoff => ?_
  refine Keeps.bind (callOk_storing _ _) fun _ => Keeps.bind (callOk_storing _ _) fun _ => ?_
  exact Keeps.bind (modifyHandoff_storing fun _ hs => { hs with }) fun _ => recordPhase_storing _ _

theorem advanceSnapshot_storing : Keeps (storingEffects S) (Storing S) advanceSnapshot := by
  unfold advanceSnapshot
  refine Keeps.bind (sourceClaim_storing _) fun claim => Keeps.bind theManifest_keeps fun manifest => ?_
  refine Keeps.bind theHandoff_keeps fun handoff => Keeps.bind (callOk_storing _ _) fun _ => ?_
  refine Keeps.bind (callOk_storing _ _) fun answer => Keeps.bind (Keeps.lift _) fun image => ?_
  refine Keeps.bind (callOk_storing _ _) fun _ => ?_
  exact Keeps.bind (modifyHandoff_storing fun _ hs => { hs with }) fun _ => recordPhase_storing _ _

theorem catchUpLoop_storing (setup : ControllerSetup) (rounds refreshes targetLsn : Nat) :
    Keeps (storingEffects S) (Storing S) (catchUpLoop setup rounds refreshes targetLsn) := by
  induction rounds generalizing refreshes targetLsn with
  | zero => exact Keeps.pure _
  | succ rounds ih =>
    unfold catchUpLoop
    refine Keeps.bind (callOk_storing _ _) fun answer => ?_
    split
    · split
      · exact Keeps.throw _
      · exact Keeps.bind advanceSnapshot_storing fun _ => Keeps.bind theHandoff_keeps fun handoff => ih _ _
    · refine Keeps.bind (orThrow_keeps _ _) fun entries => ?_
      split
      · exact Keeps.pure _
      · refine Keeps.bind (sourceClaim_storing _) fun claim => Keeps.bind theManifest_keeps fun manifest => ?_
        refine Keeps.bind theHandoff_keeps fun handoff => Keeps.bind (callOk_storing _ _) fun applied => ?_
        split
        · exact Keeps.pure _
        · exact Keeps.bind (modifyHandoff_storing fun _ hs => { hs with }) fun _ => ih _ _

theorem migrateSuccessor_storing {manifest : EvolutionManifest} (h : manifest.Named) :
    Keeps (storingEffects S) (Storing S) (migrateSuccessor manifest) := by
  unfold migrateSuccessor
  refine Keeps.bind theHandoff_keeps fun handoff => Keeps.bind (callOk_storing _ _) fun migrated => ?_
  split
  · refine Keeps.bind (modifyCampaign_storing fun _ hs => hs.crossBoundaries h.migrations) fun _ => ?_
    exact Keeps.bind now_storing fun atMs => append_storing _
  · exact Keeps.pure _

theorem advanceCatchUp_storing (setup : ControllerSetup) : Keeps (storingEffects S) (Storing S) (advanceCatchUp setup) := by
  unfold advanceCatchUp
  refine Keeps.bind theHandoff_keeps fun handoff => Keeps.bind (catchUpLoop_storing _ _ _ _) fun _ => ?_
  refine Finds.bind (reportOf_finds _) fun source hsource => Finds.bind (reportOf_finds _) fun target htarget => ?_
  refine Keeps.bind (setReports_storing hsource htarget) fun _ => ?_
  split
  · exact Keeps.throw _
  · refine Keeps.bind (modifyHandoff_storing fun _ hs => { hs with }) fun _ => ?_
    refine Finds.bind theManifest_finds fun manifest hmanifest => ?_
    exact Keeps.bind (whenever_keeps fun _ => migrateSuccessor_storing hmanifest.named) fun _ => recordPhase_storing _ _

theorem advanceReadiness_storing : Keeps (storingEffects S) (Storing S) advanceReadiness := by
  unfold advanceReadiness
  refine Keeps.bind theManifest_keeps fun manifest => Keeps.bind theHandoff_keeps fun handoff => ?_
  refine Keeps.bind (callOk_storing _ _) fun answer => ?_
  split
  · exact Keeps.throw _
  · exact Keeps.bind (modifyHandoff_storing fun _ hs => { hs with }) fun _ => recordPhase_storing _ _

/-! ## Fence -/

theorem requestedFence_storing (manifest : EvolutionManifest) (handoff : HandoffRecord) (view : AuthorityView) :
    Keeps (storingEffects S) (Storing S) (requestedFence manifest handoff view) := by
  have hfind : Keeps (storingEffects S) (Storing S) (requestedFence.findRequested manifest handoff) :=
    Keeps.bind save_storing fun _ => Keeps.bind (view_storing _) fun _ => orThrow_keeps _ _
  unfold requestedFence
  split
  · exact Keeps.pure _
  · refine Keeps.bind (authorityOp_storing _) fun outcome => ?_
    split
    · split
      · exact Keeps.throw _
      · exact hfind
    · exact hfind

theorem deferFence_storing (fence : FenceRecord) (refusal : Status) :
    Keeps (storingEffects S) (Storing S) (deferFence fence refusal) := by
  unfold deferFence
  refine Keeps.bind (modify_storing fun _ hs => { hs with durable := { hs.durable with } }) fun _ => ?_
  exact Keeps.bind saveQuietly_storing fun _ => Keeps.throw _

theorem advanceFence_storing : Keeps (storingEffects S) (Storing S) advanceFence := by
  unfold advanceFence
  refine Keeps.bind theManifest_keeps fun manifest => Keeps.bind theHandoff_keeps fun handoff => ?_
  refine Keeps.bind (view_storing _) fun view => get_keeps fun c => ?_
  split
  · unfold acceptFencedReport
    refine Keeps.bind (acknowledgeFences_storing (fun fence => ?_) _ _ _) fun _ => recordPhase_storing _ _
    exact Keeps.bind now_storing fun atMs => append_storing _
  · unfold fencePredecessor
    refine Keeps.bind (requestedFence_storing _ _ _) fun fence => Keeps.bind (call_storing _ _) fun answer => ?_
    split
    · exact deferFence_storing _ _
    · refine checked_storing _ (Keeps.bind (modifyHandoff_storing fun _ hs => { hs with }) fun _ => ?_)
      exact Keeps.bind now_storing fun atMs => Keeps.bind (append_storing _) fun _ => recordPhase_storing _ _

/-! ## Transfer, verification, retirement -/

theorem transferLoop_storing (setup : ControllerSetup) (sourceLsn rounds : Nat) :
    Keeps (storingEffects S) (Storing S) (transferLoop setup sourceLsn rounds) := by
  induction rounds with
  | zero => exact Keeps.pure _
  | succ rounds ih =>
    unfold transferLoop
    refine Keeps.bind (reportOf_finds _).keeps fun target => ?_
    split
    · exact Keeps.pure _
    · refine Keeps.bind (callOk_storing _ _) fun answer => ?_
      split
      · exact Keeps.pure _
      · exact Keeps.pure _
      · refine Keeps.bind (sourceClaim_storing _) fun claim => Keeps.bind theManifest_keeps fun manifest => ?_
        exact Keeps.bind theHandoff_keeps fun handoff => Keeps.bind (callOk_storing _ _) fun _ => ih

theorem transferAuthority_storing (setup : ControllerSetup) :
    Keeps (storingEffects S) (Storing S) (transferAuthority setup) := by
  unfold transferAuthority
  refine Keeps.bind theManifest_keeps fun manifest => Keeps.bind theHandoff_keeps fun handoff => ?_
  refine Keeps.bind (grant_storing _) fun granted => Keeps.bind (Keeps.lift _) fun lease => ?_
  refine Keeps.bind (deliver_storing _ _ _) fun delivered => ?_
  split
  · exact Keeps.bind (authorityOp_storing _) fun _ => Keeps.bind saveQuietly_storing fun _ => Keeps.throw _
  · refine Keeps.bind (modifyHandoff_storing fun _ hs => { hs with }) fun _ => Keeps.bind now_storing fun atMs => ?_
    exact Keeps.bind (append_storing _) fun _ => recordPhase_storing _ _

theorem advanceTransfer_storing (setup : ControllerSetup) : Keeps (storingEffects S) (Storing S) (advanceTransfer setup) := by
  unfold advanceTransfer
  refine Finds.bind (reportOf_finds _) fun source hsource => Keeps.bind (transferLoop_storing _ _ _) fun _ => ?_
  refine Keeps.bind (modifyHandoff_storing fun _ hs => { hs with }) fun _ => ?_
  refine Keeps.bind (modify_storing fun _ hs => { hs with source := fun _ h => Option.some.inj h ▸ hsource }) fun _ => ?_
  exact transferAuthority_storing setup

theorem proveFenced_storing (handoff : HandoffRecord) : Keeps (storingEffects S) (Storing S) (proveFenced handoff) := by
  unfold proveFenced
  refine get_keeps fun c => ?_
  split
  · exact Keeps.pure _
  · refine Keeps.bind (call_storing _ _) fun stale => ?_
    split
    · exact Keeps.pure _
    · exact Keeps.throw _

theorem advanceVerify_storing : Keeps (storingEffects S) (Storing S) advanceVerify := by
  unfold advanceVerify
  refine Keeps.bind theManifest_keeps fun manifest => Keeps.bind theHandoff_keeps fun handoff => ?_
  refine Keeps.bind (Keeps.attempt (view_storing _)) fun view => ?_
  split
  · exact Keeps.throw _
  · refine Keeps.bind (reportOf_finds _).keeps fun target => ?_
    split
    · exact Keeps.throw _
    · refine Keeps.bind (proveFenced_storing _) fun _ => Keeps.bind (callOk_storing _ _) fun _ => ?_
      exact recordPhase_storing _ _

theorem advanceRetire_storing : Keeps (storingEffects S) (Storing S) advanceRetire := by
  unfold advanceRetire
  refine Keeps.bind theHandoff_keeps fun handoff => Keeps.bind (callOk_storing _ _) fun _ => ?_
  exact Keeps.bind (recordPhase_storing _ _) fun _ => applyAction_storing _

theorem advancePhase_storing (setup : ControllerSetup) (phase : HandoffPhase) :
    Keeps (storingEffects S) (Storing S) (advancePhase setup phase) := by
  cases phase with
  | notStarted => exact advancePrepared_storing setup
  | prepared => exact advanceSnapshot_storing
  | snapshotSynchronized => exact advanceCatchUp_storing setup
  | caughtUp => exact advanceReadiness_storing
  | readinessVerified => exact advanceFence_storing
  | predecessorFenced => exact advanceTransfer_storing setup
  | authorityTransferred => exact advanceVerify_storing
  | successorVerified => exact advanceRetire_storing
  | predecessorRetired => exact Keeps.pure _
  | failed => exact Keeps.throw _
  | aborted => exact Keeps.throw _

/-! ## The handoff begins -/

/-- No handoff has begun; nothing but its beginning changes that. -/
def Unbegun : Assertion World := fun core _ => core.handoff = none

theorem unbegun_calm : Calm { storingEffects S with mid := fun _ _ _ => True } Unbegun := by
  intro o ho c w hp w₀ _
  refine ⟨trivial, fun x w₁ _ => ?_⟩
  rw [ControllerOp.coreAfter_of_isQuiet ho]
  exact hp

/-- A computation that begins no handoff. -/
theorem unbegun_keeps {m : Control Unit} (h : Keeps (storingEffects S) (Storing S) m)
    (hm : Keeps { storingEffects S with mid := fun _ _ _ => True } Unbegun.at m) :
    Keeps (storingEffects S) (fun c w => c.handoff = none ∧ Storing S c w) m := by
  have hnone : ∀ c w, Unbegun.at c w ↔ c.handoff = none := fun c w => Option.map_eq_none_iff
  refine (h.and hm).conseq (fun c w hp => ⟨hp.2, (hnone c w).mpr hp.1⟩) fun r c w hp => ⟨(hnone c w).mp hp.2, hp.1⟩

theorem createHandoff_storing {manifest : EvolutionManifest} (h : manifest.Named) :
    Triple (storingEffects S) (fun c w => c.handoff = none ∧ Storing S c w) (createHandoff manifest) fun _ => Storing S := by
  unfold createHandoff
  refine Keeps.seq (effect_framed _ .now) (fun _ _ _ hp => hp.2) fun startedAtMs => Triple.get fun c₀ => ?_
  split
  · rename_i source target hsource htarget
    refine Triple.modify fun c w hp => ?_
    obtain ⟨rfl, hnone, hs, hw⟩ := hp
    have hcampaign : { c with campaign := c.campaign.map fun campaign : CampaignRecord =>
        { campaign with handoff := c.nextHandoffId } }.Storable S.digestOf := by
      refine hs.mapCampaign fun _ hs => ?_
      exact { hs with }
    have hhandoff : (begunHandoff c manifest source target startedAtMs).Storable :=
      ⟨hs.durable.nextHandoffId hnone, h.campaign, h.shard, h.id, hs.source source hsource, .inr rfl,
        hs.target target htarget, (show 1 ≤ maxHandoffRestarts by decide), by simp [begunHandoff]⟩
    exact ⟨{ hs with durable :=
      { hs.durable with
        campaign := hcampaign.durable.campaign
        handoff := fun handoff hsome => Option.some.inj hsome ▸ hhandoff
        nextHandoffId := fun hnone => by cases hnone } }, hw⟩
  · exact Triple.pure fun c w hp => hp.2.2

theorem recordPredecessorClaim_storing (manifest : EvolutionManifest) :
    Keeps (storingEffects S) (Storing S) (recordPredecessorClaim manifest) := by
  unfold recordPredecessorClaim
  refine Finds.bind (view_finds _).attempt fun view hview => Keeps.bind theHandoff_keeps fun handoff => ?_
  split
  · exact Keeps.pure _
  · rename_i lease hlease
    have hclaim : lease.claim.isValid = true := by
      cases view with
      | error refusal => cases hlease
      | ok view => exact hview view rfl lease hlease
    refine modify_storing fun c hs => ?_
    split_ifs
    · exact { hs with durable := { hs.durable with claim := fun claim h => Option.some.inj h ▸ hclaim } }
    · exact hs

theorem openWindow_storing (manifest : EvolutionManifest) : Keeps (storingEffects S) (Storing S) (openWindow manifest) := by
  unfold openWindow
  refine Keeps.bind theCampaign_keeps fun campaign => ?_
  split
  · exact Keeps.pure _
  · refine Keeps.bind now_storing fun startedAtMs => Keeps.bind (modifyCampaign_storing fun _ hs => { hs with }) fun _ => ?_
    refine Keeps.bind (modify_storing fun _ hs => { hs with durable := { hs.durable with } }) fun _ => ?_
    refine Keeps.bind now_storing fun atMs => get_keeps fun c => Keeps.bind theHandoff_keeps fun handoff => ?_
    exact append_storing _

theorem beginHandoff_storing (setup : ControllerSetup) : Keeps (storingEffects S) (Storing S) (beginHandoff setup) := by
  unfold beginHandoff
  refine Triple.get fun c₀ => ?_
  split
  · exact Triple.pure fun c w hp => hp.2
  · rename_i manifest _ hmanifest _ hhandoff
    by_cases hdocumented : manifest.Documented S.digestOf
    · have hback : ∀ (e : Status) c w, c.handoff = none ∧ Storing S c w → Storing S c w := fun _ _ _ hp => hp.2
      refine Triple.pre (P := fun c w => c.handoff = none ∧ Storing S c w) ?_ fun c w hp => ⟨hp.1 ▸ hhandoff, hp.2⟩
      refine Keeps.seq (unbegun_keeps (applyAction_storing _) ?_) hback fun _ => ?_
      · exact applyAction_triple unbegun_calm unbegun_calm (fun _ _ hp => hp) fun _ _ _ _ _ _ _ hp _ _ _ => hp
      refine Keeps.seq (unbegun_keeps bindNodes_storing (bindNodes_keeps unbegun_calm fun _ _ _ _ hp => hp)) hback fun _ => ?_
      refine Triple.seq (S := fun _ => Storing S) ((createHandoff_storing hdocumented.named).post fun r c w hp => ?_) fun _ => ?_
      · cases r <;> exact hp
      refine Keeps.bind (ensurePredecessorAuthority_storing setup) fun _ => ?_
      refine Keeps.bind (recordPredecessorClaim_storing _) fun _ => ?_
      exact Keeps.bind (openWindow_storing _) fun _ => save_storing
    · intro c w hp
      exact absurd (hp.2.1.durable.manifest manifest (hp.1 ▸ hmanifest)) hdocumented
  · exact Triple.throw fun c w hp => hp.2

/-! ## Planning and preflight -/

theorem establishShard_storing (setup : ControllerSetup) (manifest : EvolutionManifest) :
    Keeps (storingEffects S) (Storing S) (establishShard setup manifest) := by
  unfold establishShard
  refine get_keeps fun c => ?_
  split
  · exact Keeps.pure _
  · exact checked_storing _ (Keeps.bind now_storing fun atMs => append_storing _)

theorem plan_storing {setup : ControllerSetup} {manifest : EvolutionManifest}
    (hadmission : ∀ admitted, setup.admission manifest = .ok admitted → admitted.Documented S.digestOf) :
    Keeps (storingEffects S) (Storing S) (plan setup manifest) := by
  unfold plan
  refine get_keeps fun c => Keeps.bind (Keeps.lift _) fun _ => Finds.bind (Finds.lift hadmission) fun sealed hsealed => ?_
  refine Keeps.bind (establishShard_storing setup sealed) fun _ => ?_
  refine Keeps.bind (modify_storing fun c hs => { hs with durable :=
    { hs.durable with manifest := fun _ h => Option.some.inj h ▸ hsealed } }) fun _ => ?_
  refine Keeps.bind now_storing fun updatedAtMs => Keeps.bind now_storing fun atMs => ?_
  refine Keeps.bind (modify_storing fun c hs => { hs with durable :=
    { hs.durable with campaign := fun _ h => Option.some.inj h ▸ ?_ } }) fun _ => save_storing
  exact ⟨hsealed.named.campaign, hsealed.named.id, hsealed.named.shard, by simp [plannedCampaign]⟩

theorem preflight_storing (setup : ControllerSetup) : Keeps (storingEffects S) (Storing S) (preflight setup) := by
  have hhello : ∀ role, Keeps (storingEffects S) (Storing S) (helloFrom role) := fun _ =>
    Keeps.bind (callOk_storing _ _) fun _ => Keeps.lift _
  have hchecks : Keeps (storingEffects S) (Storing S) (preflightChecks setup) := by
    unfold preflightChecks
    refine Keeps.bind bindNodes_storing fun _ => Keeps.bind (hhello _) fun source => Keeps.bind (hhello _) fun target => ?_
    refine Keeps.bind theManifest_keeps fun manifest => Keeps.bind (Keeps.lift _) fun _ => Keeps.bind (Keeps.lift _) fun _ => ?_
    exact ensurePredecessorAuthority_storing setup
  unfold preflight
  refine Keeps.bind theManifest_keeps fun _ => Keeps.bind (applyAction_storing _) fun _ => ?_
  refine Keeps.bind (Keeps.attempt hchecks) fun checked => ?_
  split
  · unfold failPreflight
    refine Keeps.bind (modifyCampaign_storing fun _ hs => { hs with }) fun _ => ?_
    exact Keeps.bind saveQuietly_storing fun _ => Keeps.throw _
  · exact save_storing

/-! ## Advance and run -/

theorem windowStatus_storing : Keeps (storingEffects S) (Storing S) windowStatus := by
  unfold windowStatus
  refine get_keeps fun c => ?_
  split
  · exact Keeps.bind now_storing fun _ => Keeps.pure _
  · exact Keeps.pure _

theorem renewForPhase_storing (setup : ControllerSetup) : Keeps (storingEffects S) (Storing S) (renewForPhase setup) := by
  unfold renewForPhase
  refine Keeps.bind theHandoff_keeps fun handoff => ?_
  split
  · exact ensurePredecessorAuthority_storing setup
  · exact whenever_keeps fun _ => ensureSuccessorAuthority_storing setup

theorem advance_storing (setup : ControllerSetup) : Keeps (storingEffects S) (Storing S) (advance setup) := by
  have hhandoff : Keeps (storingEffects S) (Storing S) (advanceHandoff setup) := by
    unfold advanceHandoff
    refine Keeps.bind bindNodes_storing fun _ => Keeps.bind reconcileIncarnations_storing fun _ => ?_
    refine Keeps.bind (renewForPhase_storing setup) fun _ => Keeps.bind windowStatus_storing fun window => ?_
    split
    · unfold refuseExhausted
      exact Keeps.bind (Keeps.attempt (applyAction_storing _)) fun _ => Keeps.throw _
    · refine Keeps.bind theHandoff_keeps fun handoff => Keeps.bind (effect_storing _) fun _ => ?_
      exact advancePhase_storing setup _
  unfold advance
  refine get_keeps fun c => ?_
  split
  · split
    · exact Keeps.throw _
    · split
      · exact Keeps.pure _
      · exact Keeps.bind (whenever_keeps fun _ => beginHandoff_storing setup) fun _ => hhandoff
  · exact Keeps.throw _

theorem runLoop_storing (setup : ControllerSetup) (steps : Nat) :
    Keeps (storingEffects S) (Storing S) (runLoop setup steps) := by
  induction steps with
  | zero => exact Keeps.throw _
  | succ steps ih =>
    unfold runLoop
    refine get_keeps fun c => ?_
    split
    · split
      · exact Keeps.pure _
      · refine Keeps.bind (advance_storing setup) fun _ => Keeps.bind theHandoff_keeps fun handoff => ?_
        split
        · exact Keeps.pure _
        · exact ih
    · exact Keeps.throw _

theorem runHandoff_storing (setup : ControllerSetup) : Keeps (storingEffects S) (Storing S) (runHandoff setup) :=
  Keeps.bind theCampaign_keeps fun _ => runLoop_storing setup _

theorem start_storing (setup : ControllerSetup) : Keeps (storingEffects S) (Storing S) (start setup) :=
  Keeps.bind (beginHandoff_storing setup) fun _ => runHandoff_storing setup

theorem runToCompletion_storing (setup : ControllerSetup) :
    Keeps (storingEffects S) (Storing S) (runToCompletion setup) := by
  unfold runToCompletion
  refine Keeps.bind theCampaign_keeps fun _ => get_keeps fun c => ?_
  split
  · exact start_storing setup
  · exact runHandoff_storing setup

/-! ## Abort and reconciliation -/

theorem restorePredecessor_storing (setup : ControllerSetup) (manifest : EvolutionManifest) :
    Keeps (storingEffects S) (Storing S) (restorePredecessor setup manifest) := by
  unfold restorePredecessor
  refine Keeps.bind (Keeps.attempt (reportOf_finds _).keeps) fun report => ?_
  split
  · exact Keeps.pure _
  · refine Keeps.bind (Keeps.attempt (view_storing _)) fun view => ?_
    split
    · exact Keeps.pure _
    · refine Keeps.bind (grant_storing _) fun granted => ?_
      split
      · exact Keeps.pure _
      · exact Keeps.bind (deliver_storing _ _ _) fun _ => Keeps.pure _

theorem rollBack_storing (setup : ControllerSetup) (manifest : EvolutionManifest) :
    Keeps (storingEffects S) (Storing S) (rollBack setup manifest) := by
  unfold rollBack
  refine get_keeps fun c => Keeps.bind (whenever_keeps fun _ => restorePredecessor_storing _ _) fun _ => ?_
  refine Keeps.bind (whenever_keeps fun _ => ?_) fun _ => Keeps.bind (whenever_keeps fun _ => ?_) fun _ => ?_
  · exact Keeps.bind theHandoff_keeps fun handoff => Keeps.bind (call_storing _ _) fun _ => Keeps.pure _
  · refine Keeps.bind (modifyHandoff_storing fun _ hs => { hs with }) fun _ => Keeps.bind now_storing fun updatedAtMs => ?_
    exact modifyHandoff_storing fun _ hs => { hs with }
  · exact Keeps.bind (applyAction_storing _) fun _ => save_storing

theorem abort_storing (setup : ControllerSetup) : Keeps (storingEffects S) (Storing S) (abort setup) := by
  unfold abort
  refine get_keeps fun c => ?_
  split
  · refine Keeps.bind (applyAction_storing _) fun _ => Keeps.bind theCampaign_keeps fun campaign => ?_
    split
    · exact Keeps.pure _
    · split
      · exact runToCompletion_storing setup
      · exact rollBack_storing setup _
  · exact Keeps.throw _

theorem reconcileAuthority_storing (setup : ControllerSetup) :
    Keeps (storingEffects S) (Storing S) (reconcileAuthority setup) := by
  unfold reconcileAuthority
  refine get_keeps fun c => Keeps.bind (whenever_keeps fun _ => ?_) fun _ => get_keeps fun c => whenever_keeps fun _ => ?_
  · exact Keeps.bind (Keeps.attempt (ensurePredecessorAuthority_storing setup)) fun _ => Keeps.pure _
  · exact Keeps.bind (Keeps.attempt (ensureSuccessorAuthority_storing setup)) fun _ => Keeps.pure _

theorem reconcilePredecessor_storing : Keeps (storingEffects S) (Storing S) reconcilePredecessor := by
  unfold reconcilePredecessor
  refine get_storing fun c hc => Finds.bind theHandoff_finds fun handoff hhandoff => ?_
  split
  · exact Keeps.pure _
  · rename_i report hreport
    have hvalid := hc.source report (Option.filter_eq_some_iff.mp hreport).1
    exact whenever_keeps fun _ => restartHandoff_storing hvalid hhandoff.successor _ _

theorem reconcile_storing (setup : ControllerSetup) : Keeps (storingEffects S) (Storing S) (reconcile setup) := by
  have htransfer : ∀ manifest, Keeps (storingEffects S) (Storing S) (reconcileTransfer manifest) := by
    intro manifest
    unfold reconcileTransfer
    refine Keeps.bind (Keeps.attempt (view_storing _)) fun view => get_keeps fun c => ?_
    refine Keeps.bind theHandoff_keeps fun handoff => ?_
    split
    · exact whenever_keeps fun _ => recordPhase_storing _ _
    · exact Keeps.pure _
  have hfence : Keeps (storingEffects S) (Storing S) reconcileFence :=
    get_keeps fun c => Keeps.bind theHandoff_keeps fun handoff => whenever_keeps fun _ => recordPhase_storing _ _
  unfold reconcile
  refine Keeps.bind theManifest_keeps fun manifest => Keeps.bind bindNodes_storing fun _ => ?_
  refine Keeps.bind reconcileIncarnations_storing fun _ => Keeps.bind (reconcileAuthority_storing setup) fun _ => ?_
  refine get_keeps fun c => ?_
  split
  · exact Keeps.pure _
  · unfold reconcileHandoff
    refine Keeps.bind (htransfer _) fun _ => Keeps.bind hfence fun _ => Keeps.bind reconcilePredecessor_storing fun _ => ?_
    refine Keeps.bind now_storing fun atMs => get_keeps fun c => Keeps.bind theHandoff_keeps fun handoff => ?_
    exact Keeps.bind (append_storing _) fun _ => save_storing

/-- Every operation keeps the state storable. -/
theorem control_storing {setup : ControllerSetup}
    (hadmission : ∀ manifest admitted, setup.admission manifest = .ok admitted → admitted.Documented S.digestOf)
    (op : AdminOp) :
    Keeps (storingEffects S) (Storing S) (op.control setup) := by
  cases op with
  | plan manifest => exact plan_storing (hadmission manifest)
  | preflight => exact preflight_storing setup
  | start => exact start_storing setup
  | advance => exact advance_storing setup
  | run => exact runToCompletion_storing setup
  | pause => exact applyAction_storing _
  | resume => exact Keeps.bind (applyAction_storing _) fun _ => runToCompletion_storing setup
  | abort => exact abort_storing setup
  | reconcile => exact reconcile_storing setup

end Control

/-! ## Runs -/

theorem storable_empty (digestOf : Json → Digest) (incarnation : IncarnationId) :
    ({ controllerIncarnation := incarnation } : Controller).Storable digestOf := by
  refine ⟨⟨?_, ?_, ?_, ?_, ?_, ?_, fun _ => Nat.one_ne_zero⟩, ?_, ?_⟩
  · intro k a hfind
    simp [Controller.toDurable] at hfind
  · intro k a hfind
    simp [Controller.toDurable] at hfind
  all_goals
    intro _ hsome
    cases hsome

/-- A process that opens on a storable state can store it, too. -/
theorem storable_opened {digestOf : Json → Digest} {durable : Durable} (h : durable.Storable digestOf)
    (incarnation : IncarnationId) :
    ((Controller.restore durable durable.authority.detach).opened incarnation).Storable digestOf where
  durable :=
    { h with
      authority := established_detach h.authority
      tokens := h.tokens.detach
      campaign := fun campaign' hsome => by
        obtain ⟨campaign, hcampaign, rfl⟩ := Option.map_eq_some_iff.mp hsome
        have hs := h.campaign campaign hcampaign
        split_ifs
        · exact { hs with }
        · exact hs }
  source _ hsome := by cases hsome
  target _ hsome := by cases hsome

section
variable {S : SystemSetup}

/-- The manifests that are admitted were read from documents. -/
def SystemSetup.AdmitsDocuments (S : SystemSetup) : Prop :=
  ∀ manifest admitted, S.controller.admission manifest = .ok admitted → admitted.Documented S.digestOf

theorem storing_sound (hadmission : S.AdmitsDocuments) :
    (machine S).Sound storingPolicy (fun _ => Storing S) (Storing S) (World.Storable S) where
  command op := (Control.control_storing hadmission op).pre fun _ _ h => h.1
  world _ _ _ hpolicy hafter := ⟨fun _ h => ⟨h.1, storable_after hpolicy hafter h.2⟩, storable_after hpolicy hafter⟩
  crash _ _ _ := ⟨And.right, fun _ => And.right⟩
  boot incarnation w c w' h hboot := by
    have hstored : c.Storable S.digestOf → Storing S c { w with disk := some c.toDurable } := fun hc =>
      ⟨hc, ⟨h.component, fun role => by cases role <;> first | exact h.node .source | exact h.node .target,
        fun durable hdurable => Option.some.inj hdurable ▸ hc.durable⟩⟩
    obtain ⟨rfl, ⟨-, rfl⟩ | ⟨durable, authority, hdisk, hload, rfl⟩⟩ := openController_cases hboot
    · exact hstored (storable_empty _ _)
    · have hdurable := h.disk durable hdisk
      rw [AuthorityRegistry.load, registryFromJson_toJson hdurable.authority hdurable.tokens] at hload
      cases hload
      exact hstored (storable_opened hdurable incarnation)

theorem storable_start (hcomponents : ∀ role, (S.options role).component.isValid = true) (clock : Nat)
    (source target : NodeDisk) {sourceUuid targetUuid : IncarnationUuid} (hsource : sourceUuid.isValid = true)
    (htarget : targetUuid.isValid = true) :
    (machine S).Holds storingPolicy (fun _ => Storing S) (Storing S) (World.Storable S)
      (S.start clock source target sourceUuid targetUuid) := by
  show World.Storable S _
  refine ⟨hcomponents, fun role => ?_, fun _ hsome => by cases hsome⟩
  have hcomponent := hcomponents role
  cases role with
  | source =>
    show (⟨S.source.component, sourceUuid, source.bootCounter + 1⟩ : IncarnationId).isValid = true
    simp [IncarnationId.isValid, hsource, show S.source.component.isValid = true from hcomponent]
  | target =>
    show (⟨S.target.component, targetUuid, target.bootCounter + 1⟩ : IncarnationId).isValid = true
    simp [IncarnationId.isValid, htarget, show S.target.component.isValid = true from hcomponent]

/-- The file holds the state of the controller, its manifest as it was admitted. -/
structure StateFile.Holds (digestOf : Json → Digest) (c : Controller) (file : StateFile) : Prop where
  durable : file.durable = c.toDurable
  manifest : ∀ document, file.manifest = some document → document.Planned digestOf

/-- What can be stored can be read back. -/
theorem StateFile.Holds.storable {digestOf : Json → Digest} {c : Controller} {file : StateFile} (h : file.Holds digestOf c)
    (hc : c.Storable digestOf) : file.Storable digestOf := by
  have hdurable : file.durable.Storable digestOf := h.durable ▸ hc.durable
  refine ⟨hdurable.authority, hdurable.tokens, fun document hsome => ?_, hdurable.campaign, hdurable.handoff, hdurable.claim⟩
  obtain ⟨value, -, hread⟩ := (h.manifest document hsome).read
  exact ManifestDocument.readable_of_fromJson hread

theorem exists_holds {digestOf : Json → Digest} {c : Controller} (hc : c.Storable digestOf) :
    ∃ file : StateFile, file.Holds digestOf c := by
  cases hmanifest : c.manifest with
  | none =>
    refine ⟨{ c.toDurable with manifest := none }, ?_, fun _ hsome => by cases hsome⟩
    rw [StateFile.durable, Option.map_none, ← hmanifest]
    rfl
  | some manifest =>
    obtain ⟨document, hplanned, hadmitted⟩ := hc.durable.manifest manifest hmanifest
    refine ⟨{ c.toDurable with manifest := some document }, ?_, fun _ hsome => Option.some.inj hsome ▸ hplanned⟩
    rw [StateFile.durable, Option.map_some, hadmitted, ← hmanifest]
    rfl

end

/-- In every state of a run the controller's state can be put in a file, and what a save then installs, whatever it
replaces, a fresh process reads back whatever the backup copy holds: all of it, the leases no longer attested and the manifest
in canonical form, which without floating point numbers compares equal. -/
theorem state_restores {S : SystemSetup} {floats : FloatText} {hash : Bytes → Digest}
    (hdigest : S.digestOf = textDigest floats hash)
    (hcomponents : ∀ role, (S.options role).component.isValid = true) (hadmission : S.AdmitsDocuments) {clock : Nat}
    {source target : NodeDisk} {sourceUuid targetUuid : IncarnationUuid} (hsource : sourceUuid.isValid = true)
    (htarget : targetUuid.isValid = true) {es : List SystemEvent} {s : SystemConfig}
    (hrun : Run ((machine S).step storingPolicy) (S.start clock source target sourceUuid targetUuid) es s) {c : Controller}
    (hmemory : s.memory = some c) :
    (∃ file : StateFile, file.Holds S.digestOf c) ∧
    ∀ file : StateFile, file.Holds S.digestOf c → ∀ limits : JsonParseLimits,
      Json.Legible floats limits 0 (file.toJson S.controller.options.controllerId).canonical →
      ((file.toJson S.controller.options.controllerId).dump floats).length ≤ limits.maxBytes →
      ((file.toJson S.controller.options.controllerId).dump floats).length ≤ maxIntegrityPayloadBytes →
      ∀ (path : String) (existing : Option Bytes), ∃ contents,
        saveState floats S.controller.options.controllerId path existing file = .ok contents ∧
        (∀ backup, readState floats limits S.digestOf path (some contents) backup = .ok (some file.restored)) ∧
        ∀ document, file.manifest = some document → Json.Fits limits 0 document.toJson.canonical →
          document.Same document.canonical := by
  have hstorable : c.Storable S.digestOf :=
    (((storing_sound hadmission).run_holds hrun (storable_start hcomponents clock source target hsource htarget)).memory
      (I := Storing S) (fun _ _ h => h) (fun _ _ _ h => h) hmemory).1
  refine ⟨exists_holds hstorable, fun file hfile limits hlegible hbytes hpayload path existing => ?_⟩
  have hsave : saveState floats S.controller.options.controllerId path existing file = .ok _ :=
    if_neg (Nat.not_lt.mpr hpayload)
  refine ⟨_, hsave, fun backup => ?_, fun document hdocument hfits => ?_⟩
  · rw [hdigest]
    exact readState_saveState (hdigest ▸ hfile.storable hstorable) hlegible hbytes hsave backup
  · obtain ⟨value, hvalue, hread⟩ := (hfile.manifest document hdocument).read
    exact ManifestDocument.same_canonical (ManifestDocument.plainParameters hvalue hread hfits)

/-! ## A handoff that began -/

namespace Sample

def plannedDocument : ManifestDocument :=
  { manifestOf 1 [] with
    campaign := firstCampaign, shard := shard
    source := specOf sourceComponent 1 7001, target := specOf targetComponent 1 7002
    compatibility := { decisionOf 1 with subject := sourceComponent } }

/-- Whatever is planned, one document is admitted. -/
def documentedSetup : SystemSetup :=
  { setup with controller := { setup.controller with admission := fun _ => .ok plannedDocument.admitted } }

theorem plannedDocument_planned : plannedDocument.Planned documentedSetup.digestOf := by
  have hread : manifestFromJson documentedSetup.digestOf plannedDocument.toJson = .ok plannedDocument := rfl
  have hadmitted :
      admitManifest documentedSetup.digestOf [plannedDocument.compatibility] .requireExactMatch plannedDocument = _ :=
    admitManifest_unsealed (by decide +kernel) (eq_ok_of_isOk (by decide +kernel)) (by decide +kernel)
  have hfits : Json.Fits {} 0 plannedDocument.toJson := Json.fits_of_fitsIn (by decide +kernel)
  exact ⟨_, _, _, _, hfits.wellFormed, hread, hadmitted⟩

def componentOf (spec : ComponentSpec) : ComponentId × SoftwareVersion × ProtocolVersion × Nat × String × Nat :=
  (spec.id, spec.software, spec.protocol, spec.schema, spec.host, spec.port)

/-- Tells manifests without migrations apart. -/
def identityOf (manifest : EvolutionManifest) :
    TaggedName × TaggedName × TaggedName × (Nat × Nat) × (Nat × Nat) × Digest :=
  (manifest.id, manifest.campaign, manifest.shard, (manifest.window.maxDurationMs, manifest.window.maxOperations),
    (manifest.compatibility.maxDurationMs, manifest.compatibility.maxOperations), manifest.digest)

theorem eq_of_identityOf {manifest other : EvolutionManifest} (h : identityOf manifest = identityOf other)
    (hsource : componentOf manifest.source = componentOf other.source)
    (htarget : componentOf manifest.target = componentOf other.target) (hmigrations : manifest.migrations = other.migrations) :
    manifest = other := by
  obtain ⟨_, _, _, ⟨⟩, ⟨⟩, ⟨⟩, ⟨⟩, _, _⟩ := manifest
  obtain ⟨_, _, _, ⟨⟩, ⟨⟩, ⟨⟩, ⟨⟩, _, _⟩ := other
  simp only [identityOf, componentOf, Prod.mk.injEq] at h hsource htarget
  simp_all

/-- No token is nil, of an event of the machine. -/
def storingBy (_ : SystemConfig) (e : SystemEvent) : Bool :=
  match e with
  | .exec (.readings _ token) => token.isValid
  | .world (.restart _ uuid) => uuid.isValid
  | _ => true

theorem allows_of_storingBy (s : SystemConfig) (e : SystemEvent) (h : storingBy s e = true) :
    Machine.allows storingPolicy s e := by
  cases e with
  | exec choice =>
    match s with
    | .running (.op o c k) w =>
      show storingPolicy.exec o c choice w
      cases choice <;> first | exact h | trivial
    | .running (.ret _) _ | .idle _ _ | .down _ => trivial
  | world e =>
    show storingPolicy.world e s.world
    cases e <;> first | exact h | trivial
  | begin op => cases s <;> trivial
  | crash => exact fun _ _ => trivial
  | finish | boot _ => trivial

/-- The state of a controller under the sample document. -/
def fileOf (c : Controller) : StateFile := { c.toDurable with manifest := some plannedDocument }

/-- The document of the state. -/
def documentOf (c : Controller) : Json := (fileOf c).toJson documentedSetup.controller.options.controllerId

/-- A handoff has begun, its claim is recorded. -/
def isBegun (c : Controller) : Bool :=
  c.handoff.isSome && c.fencedPredecessorClaim.isSome &&
    c.manifest.any fun manifest => decide (identityOf manifest = identityOf plannedDocument.admitted) &&
      decide (componentOf manifest.source = componentOf plannedDocument.admitted.source) &&
      decide (componentOf manifest.target = componentOf plannedDocument.admitted.target) && manifest.migrations.isEmpty

/-- Preflight, and a handoff that begins. -/
def begun : List SystemEvent := prepared (manifest firstCampaign 1) ++ .begin .start :: beginning

end Sample

open Sample in
theorem state_restores_sample : ∃ es s c file, Run ((machine documentedSetup).step storingPolicy) system es s ∧
    s.memory = some c ∧ file.durable = c.toDurable ∧ file.manifest.isSome ∧ file.handoff.isSome ∧
    file.fencedPredecessorClaim.isSome ∧ ∃ contents,
      saveState noFloats documentedSetup.controller.options.controllerId "state" none file = .ok contents ∧
      readState noFloats {} documentedSetup.digestOf "state" (some contents) none = .ok (some file.restored) := by
  have hbegun : ((machine documentedSetup).follow storingBy system begun).any (·.memory.any isBegun) = true := by decide +kernel
  obtain ⟨s, hs, hmemory⟩ := (Option.any_eq_true _ _).mp hbegun
  obtain ⟨c, hc, hbegun⟩ := (Option.any_eq_true _ _).mp hmemory
  have hcheck : ∀ p : Controller → Bool,
      ((machine documentedSetup).follow storingBy system begun).any (·.memory.any p) = true → p c = true := by
    intro p hp
    simpa [hs, hc] using hp
  have hfits := hcheck (fun c => Json.fitsIn {} 0 (documentOf c).canonical) (by decide +kernel)
  have hsize : ((documentOf c).dump noFloats).length ≤ 65536 := (Json.length_dump_le _).trans
    (of_decide_eq_true (hcheck (fun c => decide ((documentOf c).dumpBound noFloats ≤ 65536)) (by decide +kernel)))
  simp only [isBegun, Bool.and_eq_true] at hbegun
  obtain ⟨⟨hhandoff, hclaim⟩, hmanifest⟩ := hbegun
  obtain ⟨m, hm, hidentity⟩ := (Option.any_eq_true _ _).mp hmanifest
  simp only [Bool.and_eq_true, decide_eq_true_eq, List.isEmpty_iff] at hidentity
  obtain ⟨⟨⟨hidentity, hsource⟩, htarget⟩, hmigrations⟩ := hidentity
  have hsame : m = plannedDocument.admitted := eq_of_identityOf hidentity hsource htarget hmigrations
  have hholds : (fileOf c).Holds documentedSetup.digestOf c := by
    refine ⟨?_, fun document hdocument => Option.some.inj hdocument ▸ plannedDocument_planned⟩
    rw [StateFile.durable, fileOf, Option.map_some, ← hsame, ← hm]
    rfl
  have hadmission : documentedSetup.AdmitsDocuments := fun _ _ hadmitted =>
    Except.ok.inj hadmitted ▸ ⟨plannedDocument, plannedDocument_planned, rfl⟩
  have hrun := Machine.run_follow allows_of_storingBy hs
  obtain ⟨-, hrestores⟩ := @state_restores documentedSetup noFloats (fun _ => .zero) rfl
    (fun role => by cases role <;> decide) hadmission 1 { bootCounter := 0 } { bootCounter := 0 } uuid uuid (by decide)
    (by decide) begun s hrun c hc
  obtain ⟨contents, hsave, hread, -⟩ := hrestores (fileOf c) hholds {} 
    ((Json.fits_of_fitsIn hfits).legible _) (hsize.trans (by decide)) (hsize.trans (by decide)) "state" none
  exact ⟨begun, s, c, fileOf c, hrun, hc, hholds.durable, rfl, hhandoff, hclaim, contents, hsave, hread none⟩

end FabricEvolution
