import FabricEvolution.Manifest.Codec
import FabricEvolution.System.Course

/-!
# The rollback strategy and aborts

* `ForwardOnly` : the digests of the manifests whose strategy says that rollback is never safe;
* `abortPolicy` : once such a campaign has its handoff, no abort comes before a boundary is crossed or authority has moved;
* `GoesForward` : the campaign of such a handoff is not being rolled back, and never was;
* `goesForward_sound`, `campaign_goes_forward`.
-/

namespace FabricEvolution
open Lib Control

/-- A valid manifest under that digest declares that the campaign must go forward. -/
def ForwardOnly (digestOf : Json → Digest) (digest : Digest) : Prop :=
  ∃ manifest : ManifestDocument, manifest.validate digestOf = .ok () ∧ manifest.computeDigest digestOf = digest ∧
    manifest.rollback.kind = .forwardRecoveryOnly

/-- The states of a rollback. -/
def CampaignState.isRollback (state : CampaignState) : Bool := state = aborting || state = aborted

/-- No rollback of a campaign that must go forward, from when its handoff has begun. -/
def GoesForward (digestOf : Json → Digest) (core : ControllerCore) : Prop :=
  ∀ k h, core.campaign = some k → core.handoff = some h → ForwardOnly digestOf k.manifestDigest → k.state.isRollback = false

/-- Aborts of a campaign that must go forward find a crossed boundary or transferred authority. -/
def AbortsLate (digestOf : Json → Digest) (core : ControllerCore) : Prop :=
  ∀ k h, core.campaign = some k → core.handoff = some h → ForwardOnly digestOf k.manifestDigest →
    k.irreversibleBoundaryCrossed = true ∨ HandoffPhase.authorityTransferred.rank ≤ h.phase.rank

def abortPolicy (S : SystemSetup) : SystemPolicy World where
  command op c _ := op = .abort → AbortsLate S.digestOf c.core

namespace GoesForward
variable {digestOf : Json → Digest} {core core' : ControllerCore}

/-- Changes that keep digest and state of the campaign, and bring no handoff. -/
theorem of_same (h : GoesForward digestOf core)
    (hcampaign : core'.campaign.map (fun k => (k.manifestDigest, k.state)) = core.campaign.map fun k => (k.manifestDigest, k.state))
    (hhandoff : core.handoff = none → core'.handoff = none) : GoesForward digestOf core' := by
  intro k' h' hk' hh' hforward
  have hsome : (core.campaign.map fun k => (k.manifestDigest, k.state)) = some (k'.manifestDigest, k'.state) := by
    rw [← hcampaign, hk', Option.map_some]
  obtain ⟨k, hk, hsame⟩ := Option.map_eq_some_iff.mp hsome
  obtain ⟨hdigest, hstate⟩ := Prod.mk.inj hsame
  cases hh : core.handoff with
  | none => exact nomatch (hhandoff hh).symm.trans hh'
  | some handoff => exact hstate ▸ h k handoff hk hh (hdigest ▸ hforward)

theorem inPhase (h : GoesForward digestOf core) (phase : HandoffPhase) : GoesForward digestOf (core.inPhase phase) :=
  h.of_same rfl fun hnone => by simp [ControllerCore.inPhase, hnone]

theorem rewound (h : GoesForward digestOf core) (predecessor successor : IncarnationId) (phase : HandoffPhase) :
    GoesForward digestOf (core.rewound predecessor successor phase) :=
  h.of_same rfl fun hnone => by simp [ControllerCore.rewound, hnone]

theorem rebound (h : GoesForward digestOf core) (successor : IncarnationId) : GoesForward digestOf (core.rebound successor) :=
  h.of_same rfl fun hnone => by simp [ControllerCore.rebound, hnone]

/-- A campaign comes to a state of the rollback only from there. -/
theorem inState (h : GoesForward digestOf core) {state : CampaignState}
    (hstate : ∀ k, core.campaign = some k → state.isRollback = true → k.state.isRollback = true) :
    GoesForward digestOf (core.inState state) := by
  intro k' handoff hk' hh hforward
  obtain ⟨k, hk, rfl⟩ := Option.map_eq_some_iff.mp hk'
  have hkept := h k handoff hk hh hforward
  show state.isRollback = false
  cases hback : state.isRollback with
  | false => rfl
  | true => exact absurd (hstate k hk hback) (by simp [hkept])

/-- A campaign that runs may begin its handoff. -/
theorem begun (hrunning : ∀ k, core.campaign = some k → k.state = .running) (manifest : EvolutionManifest)
    (source target : NodeReport) : GoesForward digestOf (core.begun manifest source target) := by
  intro k' handoff hk' _ _
  obtain ⟨k, hk, rfl⟩ := Option.map_eq_some_iff.mp hk'
  show k.state.isRollback = false
  rw [hrunning k hk]
  rfl

theorem planned (manifest : EvolutionManifest) : GoesForward digestOf (core.planned manifest) := by
  rintro k h ⟨⟩ _ _
  rfl

theorem opened (h : GoesForward digestOf core) (authority : AuthorityRegistry) :
    GoesForward digestOf { core with authority := authority, campaign := core.campaign.map CampaignCore.replanned } := by
  intro k' handoff hk' hh hforward
  obtain ⟨k, hk, rfl⟩ := Option.map_eq_some_iff.mp hk'
  unfold CampaignCore.replanned at hforward ⊢
  split_ifs at hforward ⊢
  · rfl
  · exact h k handoff hk hh hforward

end GoesForward

section
variable {c : Controller} {campaign : CampaignRecord} {manifest : EvolutionManifest} {action : CampaignAction}
  {target : CampaignState} {rule reason : String} {digestOf : Json → Digest}

/-- Of the accepted actions only an abort begins a rollback. -/
theorem rollback_of_accepted (hd : decision c campaign manifest action = .accepted target rule reason) (haction : action ≠ .abort)
    (htarget : target.isRollback = true) : campaign.state.isRollback = true := by
  have hcases := (accepted_cases hd).2
  cases action with
  | plan => exact hcases.elim
  | preflight | start | pause | resume => rw [hcases.2] at htarget; cases htarget
  | complete => rw [hcases.2.1] at htarget; cases htarget
  | fail | enterForwardRecovery => rw [hcases] at htarget; cases htarget
  | confirmAbort => rw [hcases.1]; rfl
  | abort => exact absurd rfl haction

/-- A late abort goes forward. -/
theorem forward_of_abort (hgoes : GoesForward digestOf c.core) (hlate : AbortsLate digestOf c.core)
    (hcampaign : c.campaign = some campaign) {handoff : HandoffRecord} (hhandoff : c.handoff = some handoff)
    (hforward : ForwardOnly digestOf campaign.manifestDigest)
    (hd : decision c campaign manifest .abort = .accepted target rule reason) : target = .forwardRecovery := by
  have hk : c.core.campaign = some campaign.core := by simp [Controller.core, hcampaign]
  have hh : c.core.handoff = some handoff.core := by simp [Controller.core, hhandoff]
  have hstate : campaign.state ≠ .aborting := fun hstate => by
    have hgoes := hgoes _ _ hk hh hforward
    simp [CampaignRecord.core, hstate, CampaignState.isRollback] at hgoes
  have hcrossed : campaign.irreversibleBoundaryCrossed = true ∨ handoff.reached .authorityTransferred = true := by
    refine (hlate _ _ hk hh hforward).imp id fun hrank => ?_
    have hrank : HandoffPhase.authorityTransferred.rank ≤ handoff.phase.rank := hrank
    have hforward : handoff.phase.isForward = true := by
      by_contra hno
      rw [HandoffPhase.rank, HandoffPhase.rank, if_neg hno] at hrank
      exact absurd hrank (by decide)
    simp [HandoffRecord.reached, hrank, hforward]
  simp only [decision, evaluateCampaignAction, hhandoff, Option.getD_some, Option.map_some] at hd
  rcases hcrossed with hcrossed | hcrossed <;> simp only [hcrossed, hstate, Bool.true_or, Bool.or_true, if_true, if_false] at hd <;>
    split_ifs at hd <;> cases hd <;> rfl

end

/-! ## The operations -/

section
variable {S : SystemSetup}

def strategyMid (S : SystemSetup) (_ : ControllerOp) (c : Controller) (w : World) : Prop :=
  Remembered (GoesForward S.digestOf) c.core w

def strategyEffects (S : SystemSetup) : SystemEffects World := (machine S).effects (abortPolicy S) (strategyMid S)

/-- In memory and in the state file. -/
abbrev Forward (S : SystemSetup) : Assertion World := Remembered (GoesForward S.digestOf)

theorem forward_admits (o : ControllerOp) : Admits (strategyEffects S) (Forward S) o :=
  remembered_admits (fun _ h => h) (fun _ _ h => h) (fun _ _ _ hp => hp) o

theorem forward_calm : Calm (strategyEffects S) (Forward S) := fun o _ => forward_admits o

theorem forward_action {action : CampaignAction} (haction : action ≠ .abort) :
    Keeps (strategyEffects S) (Forward S).at (applyAction action) := by
  refine applyAction_triple forward_calm forward_calm (fun _ _ hp => hp) fun c w campaign _ target _ _ hp hcampaign _ hd => ?_
  refine ⟨hp.1.inState fun k hk hrollback => ?_, hp.2⟩
  simp only [Controller.core, hcampaign, Option.map_some, Option.some.injEq] at hk
  subst hk
  exact rollback_of_accepted hd haction hrollback

theorem forward_phase (target : HandoffPhase) : PhaseRule (Forward S) (Forward S) target :=
  fun _ _ _ hp _ _ _ => ⟨hp.1.inPhase _, hp.2⟩

theorem forward_parts : PartRules S.controller (strategyEffects S) (Forward S) where
  effect o _ := forward_admits o
  reports := fun _ _ _ _ hp => hp
  phase target _ := (forward_phase target).records forward_calm
  act _ haction := forward_action haction
  failed _ _ hp := ⟨hp.1.inState nofun, hp.2⟩
  incarnations :=
    reconcileIncarnations_keeps (N := Forward S) forward_calm (forward_admits _) (fun _ _ _ => forward_admits _)
      (fun _ _ _ => forward_admits _)
      { predecessor := fun _ _ _ _ hp _ _ _ _ => ⟨hp.1.rewound _ _ _, hp.2⟩
        successor := fun _ _ _ _ hp _ _ _ _ => ⟨hp.1.rewound _ _ _, hp.2⟩
        rebound := fun _ _ _ _ hp _ _ _ => ⟨hp.1.rebound _, hp.2⟩ }
  replaced := reconcilePredecessor_triple (N := Forward S) forward_calm (fun _ _ hp => hp) (forward_admits _)
    fun _ _ _ _ hp _ _ _ _ _ _ => ⟨hp.1.rewound _ _ _, hp.2⟩
  rollBack manifest := rollBack_keeps (R := Forward S) forward_calm forward_calm (fun _ _ hp => hp) (fun _ => forward_admits _)
    (fun _ => forward_admits _) (fun _ => forward_admits _) (fun _ _ hp => ⟨hp.1.inPhase _, hp.2⟩) (fun _ _ hp _ => hp)
    (forward_action (by decide)) manifest

theorem forward_migrate (manifest : EvolutionManifest) :
    Keeps (strategyEffects S) (Forward S).at (migrateSuccessor manifest) := by
  unfold migrateSuccessor
  refine Keeps.bind theHandoff_keeps fun handoff => Keeps.bind (callOk_keeps (forward_admits _)) fun migrated => ?_
  split
  · refine Keeps.bind (Keeps.modify fun c w hp => ⟨hp.1.of_same ?_ id, hp.2⟩) fun _ => ?_
    · cases hc : c.campaign <;> simp [Controller.core, hc, crossBoundaries, CampaignRecord.core]
    · exact Keeps.bind (now_calm forward_calm) fun atMs => append_calm forward_calm _
  · exact Keeps.pure _

/-- The campaign runs. -/
def IsRunning (core : ControllerCore) : Prop := ∀ k, core.campaign = some k → k.state = .running

theorem forward_begin : Keeps (strategyEffects S) (Forward S).at (beginHandoff S.controller) := by
  have hrunning : Calm (strategyEffects S) fun core w => Forward S core w ∧ IsRunning core := forward_calm.andCore IsRunning
  refine beginHandoff_triple (A := fun _ => Forward S) (R := fun _ core w => Forward S core w ∧ IsRunning core)
    (B := fun _ core w => Forward S core w ∧ IsRunning core) (N := fun _ => Forward S) forward_calm (fun _ _ _ hp => hp.1)
    (fun _ _ _ hp => hp) (fun _ => hrunning) (fun _ _ _ hp _ _ _ => hp) ?_ ?_ ?_ (fun _ => forward_parts.predecessor) ?_ ?_
  · refine fun _ => applyAction_between forward_calm hrunning (fun _ _ hp => hp) (fun _ _ hp => hp.1) ?_
    intro c w campaign m target rule reason hp _ _ hd
    obtain ⟨-, htarget⟩ := (accepted_cases hd).2
    subst htarget
    refine ⟨⟨hp.1.inState nofun, hp.2⟩, fun k' hk' => ?_⟩
    obtain ⟨k, -, rfl⟩ := Option.map_eq_some_iff.mp hk'
    rfl
  · exact fun _ => (bindNodes_keeps hrunning fun core w s t hp => hp).between fun _ _ _ hp => hp.1
  · exact fun manifest core w s t hp _ _ => ⟨.begun hp.2 manifest s t, hp.1.2⟩
  · refine fun manifest => recordPredecessorClaim_triple (T := fun _ _ => True) forward_calm.still manifest
      (fun _ _ _ _ _ _ _ _ => trivial) ?_
    exact fun core w handoff lease nowMs view hp _ _ _ _ _ _ => hp
  · refine fun manifest => openWindow_keeps (withHandoff_still forward_calm.still) manifest ?_
    exact fun core w lsn hp => hp

theorem forward_plan (manifest : EvolutionManifest) : Keeps (strategyEffects S) (Forward S).at (plan S.controller manifest) :=
  plan_triple (A := fun _ => Forward S) (B := fun _ => Forward S) (fun _ => forward_calm) (fun _ => forward_admits _) forward_calm
    (fun _ _ hp => hp) (fun _ _ _ hp => hp) (fun _ _ _ hp _ _ => hp) (fun _ _ _ => forward_admits _) (fun _ _ _ hp => hp)
    fun _ _ _ hp => ⟨.planned _, hp.2⟩

theorem forward_verify : Triple (strategyEffects S)
    (fun c w => c.core.handoff.map (·.phase) = some .authorityTransferred ∧ (Forward S).at c w)
    (enterPhase S.controller .authorityTransferred) fun _ => (Forward S).at :=
  forward_parts.verify ((forward_phase _).records forward_calm)

/-- A late abort of a campaign that must go forward does not begin a rollback. -/
theorem forward_abort : Triple (strategyEffects S) (fun c w => (Forward S).at c w ∧ AbortsLate S.digestOf c.core)
    (abort S.controller) fun _ => (Forward S).at := by
  have hwalk := forward_parts.walk (J := Forward S) (fun _ _ hp => hp) (.of_keeps forward_begin fun _ _ hp => hp) forward_migrate
    forward_verify
  have hlate : Calm (strategyEffects S) fun core w => Forward S core w ∧ AbortsLate S.digestOf core :=
    forward_calm.andCore (AbortsLate S.digestOf)
  refine (hwalk.abort_from (N := Forward S) (fun _ _ hp => hp.1) (fun _ _ hp => hp) ?_ fun manifest =>
    (forward_parts.rollBack manifest).pre fun c w hp => hp.1).post fun r c w hp => by cases r <;> exact hp
  refine applyAction_between hlate forward_calm (fun _ _ hp => hp.1) (fun _ _ hp => hp) ?_
  intro c w campaign m target rule reason hp hcampaign _ hd
  refine ⟨fun k' h hk' hh hforward => ?_, hp.1.2⟩
  obtain ⟨k, hk, rfl⟩ := Option.map_eq_some_iff.mp hk'
  simp only [Controller.core, hcampaign, Option.map_some, Option.some.injEq] at hk
  subst hk
  obtain ⟨handoff, hhandoff, -⟩ := Option.map_eq_some_iff.mp hh
  rw [forward_of_abort hp.1.1 hp.2 hcampaign hhandoff hforward hd]
  rfl

theorem goesForward_sound : (machine S).Sound (abortPolicy S) (strategyMid S) (Forward S).at
    (fun w => ∀ d, w.disk = some d → GoesForward S.digestOf d.core) where
  command op := by
    refine forward_parts.keeps_of_abort (fun _ _ hp => hp) (.of_keeps forward_begin fun _ _ hp => hp) forward_migrate
      forward_verify (fun _ _ hp => hp.1) (fun manifest _ => (forward_plan manifest).pre fun _ _ hp => hp.1) fun hop => ?_
    exact forward_abort.pre fun c w hp => ⟨hp.1, hp.2 hop⟩
  world e w w' _ hafter := by
    rw [after_disk hafter]
    exact ⟨fun c hp => ⟨hp.1, by rw [after_disk hafter]; exact hp.2⟩, fun hd => hd⟩
  crash c w _ := ⟨fun hp => hp.2, fun _ hp => hp.2⟩
  boot incarnation w c w' hd hboot := by
    obtain ⟨rfl, ⟨-, rfl⟩ | ⟨durable, authority, hdisk, -, rfl⟩⟩ := openController_cases hboot
    · have hfresh : GoesForward S.digestOf ({ controllerIncarnation := incarnation } : Controller).core :=
        fun _ _ h => (by cases h)
      refine ⟨hfresh, ?_⟩
      rintro d ⟨⟩
      exact hfresh
    · have hopened : GoesForward S.digestOf ((Controller.restore durable authority).opened incarnation).core := by
        rw [core_opened]
        exact (hd durable hdisk).opened authority
      refine ⟨hopened, ?_⟩
      rintro d ⟨⟩
      exact hopened

end

/-- A campaign that must go forward is not rolled back once its handoff has begun. -/
def Controller.StaysForward (digestOf : Json → Digest) (c : Controller) : Prop :=
  ∀ campaign handoff, c.campaign = some campaign → c.handoff = some handoff → ForwardOnly digestOf campaign.manifestDigest →
    campaign.state ≠ .aborting ∧ campaign.state ≠ .aborted

theorem GoesForward.staysForward {digestOf : Json → Digest} {c : Controller} (h : GoesForward digestOf c.core) :
    c.StaysForward digestOf := by
  intro campaign handoff hcampaign hhandoff hforward
  have hstate : campaign.state.isRollback = false :=
    h campaign.core handoff.core (by simp [Controller.core, hcampaign]) (by simp [Controller.core, hhandoff]) hforward
  constructor <;> intro heq <;> rw [heq] at hstate <;> cases hstate

/-- In every run in which the aborts of a campaign that must go forward, once its handoff has begun, find a crossed boundary or
transferred authority: no such campaign is rolled back, and such an abort, if it is accepted, leads to forward recovery. -/
theorem campaign_goes_forward {S : SystemSetup} {clock : Nat} {source target : NodeDisk}
    {sourceUuid targetUuid : IncarnationUuid} {es : List SystemEvent} {s : SystemConfig} {c : Controller}
    (hrun : Run ((machine S).step (abortPolicy S)) (S.start clock source target sourceUuid targetUuid) es s)
    (hmemory : s.memory = some c) : c.StaysForward S.digestOf ∧
      ∀ campaign handoff manifest next rule reason, c.campaign = some campaign → c.handoff = some handoff →
        ForwardOnly S.digestOf campaign.manifestDigest → AbortsLate S.digestOf c.core →
        decision c campaign manifest .abort = .accepted next rule reason → next = .forwardRecovery := by
  have hstart : ∀ d : Durable, (S.start clock source target sourceUuid targetUuid).world.disk = some d →
      GoesForward S.digestOf d.core := fun d h => by cases h
  have hs := goesForward_sound.run_holds hrun (s := S.start clock source target sourceUuid targetUuid) hstart
  have hgoes : GoesForward S.digestOf c.core :=
    hs.memory (I := fun c _ => GoesForward S.digestOf c.core) (fun _ _ hp => hp.1) (fun _ _ _ hp => hp.1) hmemory
  refine ⟨hgoes.staysForward, ?_⟩
  exact fun campaign handoff manifest next rule reason hcampaign hhandoff hforward hlate hd =>
    forward_of_abort hgoes hlate hcampaign hhandoff hforward hd

/-! ## Runs of the concrete system -/

namespace Sample

/-- The one step of the sample, over the boundary that its strategy declares. -/
def boundaryStep : MigrationStepSpec :=
  { id := ⟨"boundary", .inr (by decide)⟩, source := 1, target := 2, function := "identity", reversible := false
    irreversibleBoundary := true }

/-- A manifest that must go forward. -/
def forwardManifest : ManifestDocument :=
  { id := (manifest firstCampaign 1).id
    campaign := firstCampaign
    shard
    source := { id := sourceComponent, software := ⟨1, 0, 0, ""⟩, protocol := ⟨1, 0⟩, schema := 1, port := 7001 }
    target := { id := targetComponent, software := ⟨2, 0, 0, ""⟩, protocol := ⟨1, 0⟩, schema := 2, port := 7002 }
    window := { maxDurationMs := 1000, maxOperations := 1000 }
    compatibility :=
      { decisionId := "decision", registry := "registry", subject := sourceComponent, source := ⟨1, 0, 0, ""⟩
        target := ⟨2, 0, 0, ""⟩, sourceProtocol := ⟨1, 0⟩, targetProtocol := ⟨1, 0⟩, sourceSchema := 1, targetSchema := 2
        verdict := .supported }
    migrations := [boundaryStep]
    protocol := { accepted := [⟨1, 0⟩] }
    rollback := { kind := .forwardRecoveryOnly, recoveryPlan := "plan", declaredIrreversibleBoundaries := [boundaryStep.id] } }

theorem forwardOnly_zero : ForwardOnly setup.digestOf .zero := by
  refine ⟨forwardManifest, ?_, rfl, rfl⟩
  have hvalid : (forwardManifest.validate setup.digestOf).isOk = true := by decide +kernel
  cases hresult : forwardManifest.validate setup.digestOf with
  | ok u => rfl
  | error refusal => simp [hresult, Result.isOk] at hvalid

/-- The handoff of the campaign has begun. -/
def forwardBegun : List SystemEvent :=
  prepared forwardManifest.admitted ++ .begin .start :: beginning ++ [.exec (.unreachable failure), .finish]

/-- It is aborted at once: the source still has its lease, the target is told to retire. -/
def rolledBack : List SystemEvent :=
  forwardBegun ++ .begin .abort :: action ++ [answered, reading, answered, reading] ++ action

/-- It is aborted after the migration. -/
def recovering : List SystemEvent :=
  forwardBegun ++ .begin .run :: synchronizing ++ stepping ++ [answered, answered, answered, answered, reading, stored] ++
    recording ++ [.exec (.unreachable failure), .finish] ++ .begin .abort :: action

/-- Aborts of a campaign that has recorded a crossed boundary, of an event. -/
def abortsLate (s : SystemConfig) (e : SystemEvent) : Bool :=
  match s, e with
  | .idle c _, .begin .abort => c.campaign.any (·.irreversibleBoundaryCrossed)
  | _, _ => true

theorem allows_of_abortsLate (s : SystemConfig) (e : SystemEvent) (h : abortsLate s e = true) :
    Machine.allows (abortPolicy setup) s e := by
  match s, e with
  | .idle c w, .begin .abort =>
    intro _ k handoff hk _ _
    obtain ⟨campaign, hcampaign, hcrossed⟩ := (Option.any_eq_true _ _).mp h
    simp only [Controller.core, hcampaign, Option.map_some, Option.some.injEq] at hk
    exact .inl (hk ▸ hcrossed)
  | .idle _ _, .begin (.plan _) | .idle _ _, .begin .preflight | .idle _ _, .begin .start | .idle _ _, .begin .advance
  | .idle _ _, .begin .run | .idle _ _, .begin .pause | .idle _ _, .begin .resume | .idle _ _, .begin .reconcile =>
    exact fun h => by cases h
  | .running _ _, .begin _ | .down _, .begin _ | _, .finish | _, .boot _ | _, .world _ => trivial
  | .running (.op _ _ _) _, .exec _ | .running (.ret _) _, .exec _ | .idle _ _, .exec _ | .down _, .exec _ => trivial
  | _, .crash => exact fun _ _ => trivial

/-- A campaign of the sample manifest with its handoff, in a state. -/
def campaignIn (state : CampaignState) (s : SystemConfig) : Bool :=
  s.memory.any fun c => c.handoff.isSome && c.campaign.any fun k => k.state = state && k.manifestDigest = .zero

theorem campaignIn_cases {state : CampaignState} {s : SystemConfig} (h : campaignIn state s = true) :
    ∃ c campaign handoff, s.memory = some c ∧ c.campaign = some campaign ∧ c.handoff = some handoff ∧
      campaign.state = state ∧ campaign.manifestDigest = .zero := by
  obtain ⟨c, hc, h⟩ := (Option.any_eq_true _ _).mp h
  obtain ⟨hhandoff, h⟩ := Bool.and_eq_true_iff.mp h
  obtain ⟨handoff, hhandoff⟩ := Option.isSome_iff_exists.mp hhandoff
  obtain ⟨campaign, hcampaign, h⟩ := (Option.any_eq_true _ _).mp h
  simp only [Bool.and_eq_true, decide_eq_true_eq] at h
  exact ⟨c, campaign, handoff, hc, hcampaign, hhandoff, h.1, h.2⟩

end Sample

open Sample in
/-- A late abort. -/
theorem campaign_goes_forward_sample :
    ∃ s c campaign, (∃ es, Run ((machine setup).step (abortPolicy setup)) system es s) ∧ s.memory = some c ∧
      c.campaign = some campaign ∧ campaign.state = .forwardRecovery ∧ ForwardOnly setup.digestOf campaign.manifestDigest ∧
      c.StaysForward setup.digestOf := by
  obtain ⟨s, hrun, hs⟩ := (machine setup).exists_run allows_of_abortsLate system recovering (campaignIn .forwardRecovery)
    (by decide +kernel)
  obtain ⟨c, campaign, handoff, hc, hcampaign, hhandoff, hstate, hdigest⟩ := campaignIn_cases hs
  exact ⟨s, c, campaign, ⟨_, hrun⟩, hc, hcampaign, hstate, hdigest ▸ forwardOnly_zero, (campaign_goes_forward hrun hc).1⟩

open Sample in
/-- A campaign whose manifest says that rollback is never safe is aborted and ends so. -/
theorem forward_campaign_aborted :
    ¬ ∀ (S : SystemSetup) (clock : Nat) (source target : NodeDisk) (sourceUuid targetUuid : IncarnationUuid)
      (es : List SystemEvent) (s : SystemConfig) (c : Controller),
      Run ((machine S).step {}) (S.start clock source target sourceUuid targetUuid) es s →
      s.memory = some c → c.StaysForward S.digestOf := by
  intro hclaim
  obtain ⟨s, hrun, haborted⟩ := (machine setup).exists_free_run system rolledBack (campaignIn .aborted) (by decide +kernel)
  obtain ⟨c, campaign, handoff, hc, hcampaign, hhandoff, hstate, hdigest⟩ := campaignIn_cases haborted
  have hforward : ForwardOnly setup.digestOf campaign.manifestDigest := hdigest ▸ forwardOnly_zero
  exact (hclaim setup _ _ _ _ _ _ s c hrun hc campaign handoff hcampaign hhandoff hforward).2 hstate

end FabricEvolution
