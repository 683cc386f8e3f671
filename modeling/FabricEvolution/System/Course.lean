import FabricEvolution.System.Operations

/-!
# The course of a handoff

* `ControllerCore.Open` : the handoff has not got as far as the transfer;
* `ControllerCore.OnCourse` : an open handoff belongs to a campaign under way, on the shard of the manifest;
* `OnCourse.inPhase`, `onCourse_accepted`, ... : every move of the records keeps that.
-/

namespace FabricEvolution
open Lib Control

/-- The campaign was started and has not ended. -/
def CampaignState.isUnderWay (state : CampaignState) : Bool :=
  state = running || state = paused || state = aborting || state = forwardRecovery

namespace ControllerCore
variable {core core' : ControllerCore} {h : HandoffCore} {manifest : EvolutionManifest}

/-- The handoff has not got as far as the transfer. -/
def Open (core : ControllerCore) (h : HandoffCore) : Prop :=
  core.handoff = some h ∧ h.phase.value < HandoffPhase.authorityTransferred.value

def Closed (core : ControllerCore) : Prop := ∀ h, ¬ core.Open h

/-- The campaign is being rolled back. -/
def IsAborting (core : ControllerCore) : Prop := core.campaign.map CampaignCore.state = some .aborting

/-- An open handoff belongs to a campaign under way, on the shard of the manifest. -/
def OnCourse (core : ControllerCore) : Prop :=
  ∀ h, core.Open h → (∃ k, core.campaign = some k ∧ k.state.isUnderWay = true) ∧
    ∃ m, core.manifest = some m ∧ m.shard = h.shard

theorem closed_of_none (hnone : core.handoff = none) : core.Closed := fun h ho => by cases hnone.symm.trans ho.1

theorem Closed.onCourse (hc : core.Closed) : core.OnCourse := fun h ho => absurd ho (hc h)

theorem Closed.of_handoff (hc : core.Closed) (heq : core'.handoff = core.handoff) : core'.Closed :=
  fun h ho => hc h ⟨heq ▸ ho.1, ho.2⟩

/-- A campaign that is not under way has no open handoff. -/
theorem OnCourse.closed (hcourse : core.OnCourse) (hstate : ∀ k, core.campaign = some k → k.state.isUnderWay = false) :
    core.Closed := by
  intro h ho
  obtain ⟨⟨k, hk, hunder⟩, -⟩ := hcourse h ho
  rw [hstate k hk] at hunder
  cases hunder

theorem OnCourse.of_open (hcourse : core.OnCourse)
    (hopen : ∀ h', core'.Open h' → ∃ h, core.Open h ∧ h.shard = h'.shard)
    (hcampaign : core'.campaign.map CampaignCore.state = core.campaign.map CampaignCore.state)
    (hmanifest : core'.manifest = core.manifest) : core'.OnCourse := by
  intro h' ho'
  obtain ⟨h, ho, hshard⟩ := hopen h' ho'
  obtain ⟨⟨k, hk, hunder⟩, m, hm, hms⟩ := hcourse h ho
  have hstate : core'.campaign.map CampaignCore.state = some k.state := by rw [hcampaign, hk]; rfl
  obtain ⟨k', hk', heq⟩ := Option.map_eq_some_iff.mp hstate
  exact ⟨⟨k', hk', heq ▸ hunder⟩, m, hmanifest.trans hm, hms.trans hshard⟩

theorem OnCourse.of_same (hcourse : core.OnCourse) (hhandoff : core'.handoff = core.handoff)
    (hcampaign : core'.campaign.map CampaignCore.state = core.campaign.map CampaignCore.state)
    (hmanifest : core'.manifest = core.manifest) : core'.OnCourse :=
  hcourse.of_open (fun h' ho => ⟨h', ⟨hhandoff ▸ ho.1, ho.2⟩, rfl⟩) hcampaign hmanifest

/-! ## Phases -/

/-- Phases before the transfer are entered from phases before the transfer. -/
theorem value_of_validate {phase target : HandoffPhase} (hvalid : validateHandoffTransition phase target = .ok ())
    (hlt : target.value < HandoffPhase.authorityTransferred.value) : phase.value ≤ target.value := by
  cases phase <;> cases target <;> first | decide | cases hvalid

theorem open_inPhase {target : HandoffPhase} (hh : core.handoff = some h) {h' : HandoffCore}
    (ho : (core.inPhase target).Open h') :
    h' = { h with phase := target } ∧ target.value < HandoffPhase.authorityTransferred.value := by
  obtain ⟨hh', hlt⟩ := ho
  simp only [inPhase, hh, Option.map_some, Option.some.injEq] at hh'
  subst hh'
  exact ⟨rfl, hlt⟩

theorem OnCourse.inPhase {target : HandoffPhase} (hcourse : core.OnCourse) (hh : core.handoff = some h)
    (hvalid : validateHandoffTransition h.phase target = .ok ()) : (core.inPhase target).OnCourse := by
  refine hcourse.of_open (fun h' ho => ?_) rfl rfl
  obtain ⟨rfl, hlt⟩ := open_inPhase hh ho
  exact ⟨h, ⟨hh, Nat.lt_of_le_of_lt (value_of_validate hvalid hlt) hlt⟩, rfl⟩

theorem closed_aborted : (core.inPhase .aborted).Closed := by
  rintro h ⟨hh, hlt⟩
  obtain ⟨h₀, -, rfl⟩ := Option.map_eq_some_iff.mp hh
  exact absurd (show HandoffPhase.aborted.value < _ from hlt) (by decide)

theorem open_rewound {predecessor successor : IncarnationId} {target : HandoffPhase} (hh : core.handoff = some h)
    {h' : HandoffCore} (ho : (core.rewound predecessor successor target).Open h') :
    h' = { h with predecessor, successor, phase := target, attempt := h.attempt + 1 } := by
  have hh' := ho.1
  simp only [rewound, hh, Option.map_some, Option.some.injEq] at hh'
  exact hh'.symm

theorem OnCourse.rewound {predecessor successor : IncarnationId} {target : HandoffPhase} (hcourse : core.OnCourse)
    (ho : core.Open h) : (core.rewound predecessor successor target).OnCourse := by
  refine hcourse.of_open (fun h' ho' => ⟨h, ho, ?_⟩) rfl rfl
  rw [open_rewound ho.1 ho']

theorem Closed.rebound {successor : IncarnationId} (hh : core.handoff = some h)
    (hle : HandoffPhase.authorityTransferred.value ≤ h.phase.value) : (core.rebound successor).Closed := by
  rintro h' ⟨hh', hlt⟩
  simp only [ControllerCore.rebound, hh, Option.map_some, Option.some.injEq] at hh'
  subst hh'
  exact absurd hlt (Nat.not_lt.mpr hle)

/-! ## Campaigns -/

theorem OnCourse.inState {state : CampaignState} (hcourse : core.OnCourse) (hstate : state.isUnderWay = true) :
    (core.inState state).OnCourse := by
  intro h ho
  obtain ⟨⟨k, hk, -⟩, hm⟩ := hcourse h ho
  exact ⟨⟨{ k with state := state }, by simp [ControllerCore.inState, hk], hstate⟩, hm⟩

theorem Closed.inState (hc : core.Closed) (state : CampaignState) : (core.inState state).Closed := hc

theorem OnCourse.begun (hm : core.manifest = some manifest)
    (hk : ∃ k, core.campaign = some k ∧ k.state.isUnderWay = true) (source target : NodeReport) :
    (core.begun manifest source target).OnCourse := by
  rintro h ⟨⟨⟩, -⟩
  obtain ⟨k, hk, hunder⟩ := hk
  exact ⟨⟨{ k with handoff := core.nextHandoffId }, by simp [ControllerCore.begun, hk], hunder⟩, manifest, hm, rfl⟩

theorem isUnderWay_replanned {k : CampaignCore} (hunder : k.state.isUnderWay = true) : k.replanned = k := by
  unfold CampaignCore.replanned
  split_ifs with hstate
  · rw [hstate] at hunder
    cases hunder
  · rfl

theorem OnCourse.replanned (hcourse : core.OnCourse) (authority : AuthorityRegistry) :
    { core with authority := authority, campaign := core.campaign.map CampaignCore.replanned }.OnCourse := by
  intro h ho
  obtain ⟨⟨k, hk, hunder⟩, hm⟩ := hcourse h ho
  exact ⟨⟨k, by simp [hk, isUnderWay_replanned hunder], hunder⟩, hm⟩

end ControllerCore

/-- Recording a boundary leaves the campaign in its state. -/
theorem state_crossBoundaries (c : Controller) (migrations : List MigrationStepSpec) :
    { c with campaign := c.campaign.map (crossBoundaries migrations) }.core.campaign.map CampaignCore.state =
      c.core.campaign.map CampaignCore.state := by
  cases hc : c.campaign <;> simp [Controller.core, hc, crossBoundaries, CampaignRecord.core]

section
variable {c : Controller} {campaign : CampaignRecord} {manifest : EvolutionManifest} {action : CampaignAction}
  {target : CampaignState} {rule reason : String}

/-- What an accepted action says of the campaign and the handoff. -/
theorem accepted_cases (hd : decision c campaign manifest action = .accepted target rule reason) :
    campaign.state.isTerminal = false ∧ match action with
      | .plan => False
      | .preflight => campaign.state = .planned ∧ target = .preflighting
      | .start => campaign.state ≠ .aborting ∧ target = .running
      | .pause => campaign.state = .running ∧ target = .paused
      | .resume => campaign.state = .paused ∧ target = .running
      | .abort => target = .aborting ∨ campaign.state ≠ .aborting ∧ target = .forwardRecovery
      | .complete => campaign.state ≠ .aborting ∧ target = .completed ∧
          (c.handoff.getD default).reached .successorVerified = true
      | .fail => target = .failed
      | .enterForwardRecovery => target = .forwardRecovery
      | .confirmAbort => campaign.state = .aborting ∧ target = .aborted := by
  have hterminal : campaign.state.isTerminal = false := by
    by_contra hterminal
    simp only [decision, evaluateCampaignAction, Bool.not_eq_false _ ▸ hterminal, if_true] at hd
    split_ifs at hd
  refine ⟨hterminal, ?_⟩
  cases action <;> simp only [decision, evaluateCampaignAction] at hd <;> dsimp only
  all_goals split_ifs at hd <;> first | (cases hd; done) | (cases hd; grind)

/-- Only the end of the rollback leads out of it. -/
theorem aborting_of_accepted (hd : decision c campaign manifest action = .accepted target rule reason)
    (haction : action ≠ .confirmAbort ∧ action ≠ .fail ∧ action ≠ .enterForwardRecovery) (hstate : campaign.state = .aborting) :
    target = .aborting := by
  have hcases := (accepted_cases hd).2
  cases action <;> simp_all

/-- A plan that is admitted finds no open handoff. -/
theorem closed_of_refuseRunning (hcourse : c.core.OnCourse) (hrunning : refuseRunning c = .ok ()) : c.core.Closed := by
  refine hcourse.closed fun k hk => ?_
  obtain ⟨campaign, hcampaign, rfl⟩ := Option.map_eq_some_iff.mp hk
  have hterminal : campaign.state.isTerminal = true := by
    by_contra hno
    simp [refuseRunning, hcampaign, Option.filter_some, Bool.eq_false_iff.mpr hno] at hrunning
  revert hterminal
  cases hstate : campaign.state <;> simp [CampaignRecord.core, hstate] <;> decide

theorem closed_of_verified (hreached : (c.handoff.getD default).reached .successorVerified = true) : c.core.Closed := by
  rintro h ⟨hh, hlt⟩
  obtain ⟨handoff, hhandoff, rfl⟩ := Option.map_eq_some_iff.mp hh
  rw [hhandoff, Option.getD_some] at hreached
  change handoff.phase.value < _ at hlt
  revert hlt hreached
  cases hphase : handoff.phase <;> simp [HandoffRecord.reached, hphase] <;> decide

/-- Accepted actions keep the course; the end of a rollback is a matter of its own. -/
theorem onCourse_accepted (hcourse : c.core.OnCourse) (hcampaign : c.campaign = some campaign)
    (hd : decision c campaign manifest action = .accepted target rule reason)
    (haction : action ≠ .confirmAbort ∧ action ≠ .fail) : (c.core.inState target).OnCourse := by
  obtain ⟨-, hcases⟩ := accepted_cases hd
  have hclosed : campaign.state.isUnderWay = false → c.core.Closed := fun hstate => hcourse.closed fun k hk => by
    simp only [Controller.core, hcampaign, Option.map_some, Option.some.injEq] at hk
    subst hk
    exact hstate
  cases action with
  | plan => exact hcases.elim
  | preflight =>
    refine ControllerCore.Closed.onCourse (hclosed ?_)
    rw [hcases.1]
    rfl
  | complete => exact ControllerCore.Closed.onCourse (closed_of_verified hcases.2.2)
  | start | pause | resume => exact hcourse.inState (by rw [hcases.2]; rfl)
  | abort => exact hcourse.inState (by rcases hcases with rfl | ⟨-, rfl⟩ <;> rfl)
  | enterForwardRecovery => exact hcourse.inState (by rw [hcases]; rfl)
  | fail => exact absurd rfl haction.2
  | confirmAbort => exact absurd rfl haction.1

end

end FabricEvolution
