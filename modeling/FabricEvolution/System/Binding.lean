import FabricEvolution.System.Course
import FabricEvolution.System.Latest

/-!
# The source binding and the predecessor

* `Controller.Tracks` : a source binding names the predecessor and the terms of its latest mutating lease;
* `ControllerCore.Caches`, `Fresh` : the claim of the predecessor is cached, it is that of the latest lease;
* `bindingPolicy` : the cached claim is not outdated by a new boot or a new lease of the predecessor;
* `Tracking`, `Steady` : what holds between effects, and while records are replicated;
* `binding_tracks` : under the policy every binding that is sent tracks the predecessor.
-/

namespace FabricEvolution
open Lib Control

/-! ## Bindings and claims -/

/-- The source binding a request carries. -/
def NodeRequest.sourceBinding : NodeRequest → Option SourceBinding
  | prepare body => if body.role = some "successor" then body.source.bind (·.toOption) else none
  | applyRecords body => body.source.bind (·.toOption)
  | _ => none

theorem NodeRequest.bindsSource_of_isQuiet {request : NodeRequest} (h : request.isQuiet = true) :
    request.bindsSource = false := by
  cases request <;> simp_all [isQuiet]

/-- The binding names the predecessor of the handoff and the terms of its latest mutating lease. -/
def Controller.Tracks (c : Controller) (deeds : Deeds) (binding : SourceBinding) : Prop :=
  ∃ h last, c.handoff = some h ∧ binding.source = h.predecessor ∧ latestOf h.shard h.predecessor deeds = some last ∧
    binding.epoch = last.epoch ∧ binding.generation = last.generation ∧ binding.token = last.token

namespace ControllerCore

/-- The claim of the predecessor is cached for an open handoff that is not being rolled back. -/
structure Caches (core : ControllerCore) (h : HandoffCore) (claim : AuthorityClaim) : Prop where
  isOpen : core.Open h
  claim : core.fencedPredecessorClaim = some claim
  kept : ¬ core.IsAborting

/-- A cached claim is that of the predecessor's latest lease. -/
def Fresh (core : ControllerCore) (deeds : Deeds) : Prop :=
  ∀ h claim, core.Caches h claim → ∃ last, latestOf h.shard h.predecessor deeds = some last ∧ last.claim = claim

/-- A report shows a later boot of the predecessor while its claim is cached, before the fence. -/
def Outdated (core : ControllerCore) : Prop :=
  ∃ h claim report, core.Caches h claim ∧ h.phase.value < HandoffPhase.predecessorFenced.value ∧
    core.lastSourceReport = some report ∧ provablyReplaced h.predecessor report.incarnation = true

/-- No claim of the incarnation on the shard is cached. -/
def LeavesClaim (core : ControllerCore) (shard : ShardId) (holder : IncarnationId) : Prop :=
  ∀ h claim, core.Caches h claim → h.shard = shard → h.predecessor ≠ holder

/-- While no claim is cached before the fence, the shard is leased to the predecessor. -/
def LeasesPredecessor (core : ControllerCore) (shard : ShardId) (holder : IncarnationId) : Prop :=
  core.fencedPredecessorClaim = none → ¬ core.IsAborting → ∀ h, core.Open h →
    h.phase.value < HandoffPhase.predecessorFenced.value → h.shard = shard → holder = h.predecessor

/-- While no claim is cached, the active lease of the shard is the predecessor's. -/
def HeldByPredecessor (core : ControllerCore) (t : Nat) : Prop :=
  core.fencedPredecessorClaim = none → ∀ h, core.Open h → ∀ a, core.authority.find h.shard = some a →
    ∀ l ∈ a.leases, l.mode = .mutating → l.effectiveState t = .active → l.holder = h.predecessor

end ControllerCore

/-- The phases whose step binds the successor to the source. -/
def HandoffPhase.binds (phase : HandoffPhase) : Bool :=
  phase = notStarted || phase = prepared || phase = snapshotSynchronized || phase = predecessorFenced

/-- The holder has no active mutating lease on the shard in the state file. -/
def World.NoLeaseOnFile (w : World) (shard : ShardId) (holder : IncarnationId) : Prop :=
  ∀ d a, w.disk = some d → d.authority.find shard = some a → ∀ l ∈ a.leases, l.mode = .mutating → l.holder = holder →
    l.effectiveState w.clock ≠ .active

/-- While the claim of the predecessor is cached, neither does a report show a later boot of it nor is a new lease
issued to it; while none is cached, the shard is leased to no one else. A new lease finds no active one of its holder in
the state file, and a rollback is not left for a step that binds. -/
def bindingPolicy : SystemPolicy (World × Deeds) where
  exec o c choice w :=
    ¬ c.core.Outdated ∧
    (∀ request slotNowMs token a, o = .authority (.grant request) → choice = .readings slotNowMs token →
      request.mode = .mutating → c.authority.find request.shard = some a →
      a.reachesIssue request w.1.clock slotNowMs = true →
        c.core.LeavesClaim request.shard request.holder ∧ c.core.LeasesPredecessor request.shard request.holder ∧
        (∀ d, w.1.disk = some d → d.core.LeavesClaim request.shard request.holder) ∧
        w.1.NoLeaseOnFile request.shard request.holder) ∧
    ∀ phase, o = .enter phase → phase.binds = true → ¬ c.core.IsAborting ∧ c.core.HeldByPredecessor w.1.clock

/-! ## Between effects -/

/-- What a core says of authority and cached claim. -/
structure Sourced (core : ControllerCore) (w : World × Deeds) : Prop where
  leased : Leased core w
  fresh : core.Fresh w.2
  course : core.OnCourse
  cached : core.handoff = none → core.fencedPredecessorClaim = none

/-- In memory and in the state file. -/
def Tracking : Assertion (World × Deeds) := fun core w =>
  Sourced core w ∧ ∀ d, w.1.disk = some d → Sourced d.core w

/-- What is sent tracks the predecessor. -/
def bindingMid (o : ControllerOp) (c : Controller) (w : World × Deeds) : Prop :=
  Tracking c.core w ∧ ∀ role request, o = .call role request → request.bindsSource = true →
    ∃ binding, request.sourceBinding = some binding ∧ c.Tracks w.2 binding

section
variable {S : SystemSetup} {core core' : ControllerCore} {w w' : World × Deeds}

def bindingEffects (S : SystemSetup) : SystemEffects (World × Deeds) :=
  (deedMachine S).effects bindingPolicy bindingMid

theorem Sourced.world {e : WorldEvent} (hafter : (deedMachine S).world e w = some w') (h : Sourced core w) :
    Sourced core w' :=
  ⟨leased_world hafter h.leased, by rw [(Machine.record_world.mp hafter).2]; exact h.fresh, h.course, h.cached⟩

theorem tracking_world {e : WorldEvent} (hafter : (deedMachine S).world e w = some w') (h : Tracking core w) :
    Tracking core w' := by
  refine ⟨h.1.world hafter, fun d hd => (h.2 d ?_).world hafter⟩
  rw [after_disk (Machine.record_world.mp hafter).1] at hd
  exact hd

/-- A cached claim stays fresh through an effect that issues no new lease to the predecessor. -/
theorem fresh_exec {o : ControllerOp} {c : Controller} {choice : Choice} {x : o.Answer}
    (hexec : (deedMachine S).exec o c choice w = some (x, w')) (hleased : Leased c.core w)
    (hno : ∀ op, o = .authority op → ∀ slotNowMs token, choice = .readings slotNowMs token → ∀ g : AuthorityLease,
      g.mode = .mutating → (op.exec c.authority w.1.clock slotNowMs token).2 = .issued g →
      core.LeavesClaim g.shard g.holder) (h : core.Fresh w.2) : core.Fresh w'.2 := by
  obtain ⟨hexec, hnote⟩ := Machine.record_exec.mp hexec
  intro h₀ claim hcaches
  obtain ⟨last, hlast, hclaim⟩ := h h₀ claim hcaches
  rw [hnote, noteDeeds]
  by_cases ho : ∃ op, o = .authority op
  · obtain ⟨op, rfl⟩ := ho
    obtain ⟨slotNowMs, token, hchoice, hle, rfl, -⟩ := perform_authority hexec
    obtain ⟨last', hlast', hsame⟩ := latestOf_exec ⟨w.1.clock, slotNowMs, token⟩ hleased.1 hleased.2 hlast
      fun g hg hshard hholder hout =>
        hno op rfl slotNowMs token hchoice g hg hout h₀ claim hcaches hshard.symm hholder.symm
    exact ⟨last', hlast', hsame.trans hclaim⟩
  · exact ⟨last, by rw [latestOf_append _ _ _ fun op hop => ho ⟨op, hop⟩]; exact hlast, hclaim⟩

/-- What a grant that issues a new lease finds, under the policy. -/
theorem issued_admitted {op : RegistryOp} {c : Controller} {slotNowMs : Nat} {token : AuthorityToken}
    (hpolicy : bindingPolicy.exec (.authority op) c (.readings slotNowMs token) w) (hwf : c.authority.WellFormed)
    {g : AuthorityLease} (hg : g.mode = .mutating) (hout : (op.exec c.authority w.1.clock slotNowMs token).2 = .issued g) :
    c.core.LeavesClaim g.shard g.holder ∧ c.core.LeasesPredecessor g.shard g.holder ∧
      (∀ d, w.1.disk = some d → d.core.LeavesClaim g.shard g.holder) ∧ w.1.NoLeaseOnFile g.shard g.holder := by
  obtain ⟨request, a, rfl, ha, hreach, hshard, hholder, hmode⟩ := AuthorityRegistry.issued_cases hwf hout hg
  rw [hshard, hholder]
  exact hpolicy.2.1 request slotNowMs token a rfl rfl hmode ha hreach

/-- Leases in a state file that is not written stay the latest. -/
theorem latest_kept {o : ControllerOp} {c : Controller} {choice : Choice} {x : o.Answer} {d : Durable}
    (hpolicy : bindingPolicy.exec o c choice w) (hexec : (deedMachine S).exec o c choice w = some (x, w'))
    (hleased : Leased c.core w) (hd : w.1.disk = some d) (h : d.authority.Latest w.2 w.1.clock) :
    d.authority.Latest w'.2 w'.1.clock := by
  obtain ⟨hexec, hnote⟩ := Machine.record_exec.mp hexec
  intro k a hfind l hl hmode hactive
  have hbefore := AuthorityLease.effectiveState_active_anti (perform_clock hexec) hactive
  obtain ⟨last, hlast, hclaim⟩ := h k a hfind l hl hmode hbefore
  rw [hnote, noteDeeds]
  by_cases ho : ∃ op, o = .authority op
  · obtain ⟨op, rfl⟩ := ho
    obtain ⟨slotNowMs, token, rfl, hle, rfl, -⟩ := perform_authority hexec
    obtain ⟨last', hlast', hsame⟩ := latestOf_exec ⟨w.1.clock, slotNowMs, token⟩ hleased.1 hleased.2 hlast
      fun g hg hshard hholder hout => by
        obtain ⟨-, -, -, hfile⟩ := issued_admitted hpolicy hleased.1 hg hout
        exact hfile d a hd (hshard ▸ hfind) l hl hmode hholder.symm hbefore
    exact ⟨last', hlast', hsame.trans hclaim⟩
  · exact ⟨last, by rw [latestOf_append _ _ _ fun op hop => ho ⟨op, hop⟩]; exact hlast, hclaim⟩

theorem Sourced.stored (h : Sourced core w) : Sourced core.stored w :=
  ⟨h.leased, fun h₀ claim hc => h.fresh h₀ claim ⟨hc.isOpen, hc.claim, hc.kept⟩, h.course, h.cached⟩

theorem Sourced.withReports (h : Sourced core w) (source target : Option NodeReport) :
    Sourced (core.withReports source target) w :=
  ⟨h.leased, fun h₀ claim hc => h.fresh h₀ claim ⟨hc.isOpen, hc.claim, hc.kept⟩, h.course, h.cached⟩

/-- Every effect the policy admits keeps the invariant. -/
theorem tracking_exec {o : ControllerOp} {c : Controller} {choice : Choice} {x : o.Answer}
    (hpolicy : bindingPolicy.exec o c choice w) (hexec : (deedMachine S).exec o c choice w = some (x, w'))
    (h : Tracking c.core w) : Tracking (o.coreAfter x c.core) w' := by
  have hfresh : c.core.Fresh w'.2 := fresh_exec hexec h.1.leased (fun op hop slotNowMs token hchoice g hg hout => by
    subst hop hchoice
    exact (issued_admitted hpolicy h.1.leased.1 hg hout).1) h.1.fresh
  have hcore : Sourced (o.coreAfter x c.core) w' := by
    refine ⟨leased_exec hexec h.1.leased, ?_, ?_, ?_⟩
    · cases o <;> exact fun h₀ claim hc => hfresh h₀ claim ⟨hc.isOpen, hc.claim, hc.kept⟩
    · cases o <;> exact h.1.course
    · cases o <;> exact h.1.cached
  refine ⟨hcore, fun d hd => ?_⟩
  by_cases hsame : w'.1.disk = w.1.disk
  · rw [hsame] at hd
    obtain ⟨hleased, hfresh, hcourse, hcached⟩ := h.2 d hd
    refine ⟨⟨hleased.1, latest_kept hpolicy hexec h.1.leased hd hleased.2⟩, ?_, hcourse, hcached⟩
    refine fresh_exec hexec h.1.leased (fun op hop slotNowMs token hchoice g hg hout => ?_) hfresh
    subst hop hchoice
    exact (issued_admitted hpolicy h.1.leased.1 hg hout).2.2.1 d hd
  · cases ((perform_disk (Machine.record_exec.mp hexec).1).resolve_left hsame).2.symm.trans hd
    cases o with
    | authority op =>
      obtain ⟨_, _, -, -, -, hw⟩ := perform_authority (Machine.record_exec.mp hexec).1
      exact absurd (by rw [hw]) hsame
    | _ => exact hcore.stored

theorem tracking_admits {o : ControllerOp}
    (ho : ∀ role request, o = .call role request → request.bindsSource = false) :
    Admits (bindingEffects S) Tracking o := by
  refine Moves.of_step (fun c w hp => ⟨hp, fun role request hop hbinds => ?_⟩)
    (fun _ _ _ _ _ hafter hp => tracking_world hafter hp) fun c choice w x w' hpolicy hexec hp =>
      tracking_exec hpolicy hexec hp
  cases (ho role request hop).symm.trans hbinds

theorem bindsSource_quiet {o : ControllerOp} (ho : o.isQuiet = true) (role : NodeRole) (request : NodeRequest)
    (hop : o = .call role request) : request.bindsSource = false := by
  subst hop
  exact NodeRequest.bindsSource_of_isQuiet ho

theorem tracking_calm : Calm (bindingEffects S) Tracking := fun _ ho => tracking_admits (bindsSource_quiet ho)

theorem tracking_registry (op : RegistryOp) : Admits (bindingEffects S) Tracking (.authority op) :=
  tracking_admits fun _ _ h => by cases h

theorem tracking_deliver (role : NodeRole) (body : GrantBody) :
    Admits (bindingEffects S) Tracking (.call role (.grantAuthority body)) :=
  tracking_admits fun _ _ h => by
    cases h
    rfl

/-- A reading of the clock is not taken with an outdated claim. -/
theorem tracking_now : Moves (bindingEffects S) Tracking (fun core w => Tracking core w ∧ ¬ core.Outdated) .now :=
  Moves.of_step (fun c w hp => ⟨hp, fun _ _ h _ => by cases h⟩) (fun _ _ _ _ _ hafter hp => tracking_world hafter hp)
    fun _ _ _ _ _ hpolicy hexec hp => ⟨tracking_exec hpolicy hexec hp, hpolicy.1⟩

/-! ## Records that move -/

theorem Tracking.of_core (h : Tracking core w) (hauthority : core'.authority = core.authority)
    (hclaim : core'.fencedPredecessorClaim = core.fencedPredecessorClaim)
    (hnone : core'.handoff = none → core.handoff = none) (hfresh : core'.Fresh w.2) (hcourse : core'.OnCourse) :
    Tracking core' w := by
  refine ⟨⟨⟨?_, ?_⟩, hfresh, hcourse, fun h' => hclaim.trans (h.1.cached (hnone h'))⟩, h.2⟩
  · rw [hauthority]
    exact h.1.leased.1
  · rw [hauthority]
    exact h.1.leased.2

theorem ControllerCore.Closed.fresh (hc : core.Closed) (deeds : Deeds) : core.Fresh deeds :=
  fun h _ hcaches => absurd hcaches.isOpen (hc h)

theorem Tracking.of_closed (h : Tracking core w) (hauthority : core'.authority = core.authority)
    (hclaim : core'.fencedPredecessorClaim = core.fencedPredecessorClaim)
    (hnone : core'.handoff = none → core.handoff = none) (hc : core'.Closed) : Tracking core' w :=
  h.of_core hauthority hclaim hnone (hc.fresh _) hc.onCourse

theorem tracking_phase (target : HandoffPhase) : PhaseRule Tracking Tracking target := by
  intro core w h hp hh hvalid _
  refine hp.of_core rfl rfl Option.map_eq_none_iff.mp (fun h' claim hc => ?_) (hp.1.course.inPhase hh hvalid)
  obtain ⟨rfl, hlt⟩ := ControllerCore.open_inPhase hh hc.isOpen
  exact hp.1.fresh h claim
    ⟨⟨hh, Nat.lt_of_le_of_lt (ControllerCore.value_of_validate hvalid hlt) hlt⟩, hc.claim, hc.kept⟩

theorem tracking_records (target : HandoffPhase) : Records (bindingEffects S) Tracking target :=
  (tracking_phase target).records tracking_calm

/-- The successor is replaced: the predecessor and its claim stay. -/
theorem tracking_rewound {h : HandoffCore} {successor : IncarnationId} {target : HandoffPhase} (hp : Tracking core w)
    (ho : core.Open h) : Tracking (core.rewound h.predecessor successor target) w := by
  refine hp.of_core rfl rfl Option.map_eq_none_iff.mp (fun h' claim hc => ?_) (hp.1.course.rewound ho)
  obtain rfl := ControllerCore.open_rewound ho.1 hc.isOpen
  exact hp.1.fresh h claim ⟨ho, hc.claim, hc.kept⟩

/-- The predecessor is replaced: no claim of it is cached. -/
theorem tracking_replaced {h : HandoffCore} {report : NodeReport} (hp : Tracking core w) (hcurrent : ¬ core.Outdated)
    (hh : core.handoff = some h) (hreport : core.lastSourceReport = some report)
    (hreplaced : provablyReplaced h.predecessor report.incarnation = true)
    (hphase : h.phase.value < HandoffPhase.predecessorFenced.value) :
    Tracking (core.rewound report.incarnation h.successor .notStarted) w := by
  have ho : core.Open h := ⟨hh, Nat.lt_trans hphase (by decide)⟩
  refine hp.of_core rfl rfl Option.map_eq_none_iff.mp (fun h' claim hc => ?_) (hp.1.course.rewound ho)
  exact absurd ⟨h, claim, report, ⟨ho, hc.claim, hc.kept⟩, hphase, hreport, hreplaced⟩ hcurrent

theorem tracking_replacements : ReplacementRules Tracking fun core w => Tracking core w ∧ ¬ core.Outdated where
  predecessor core w h report hp hh hreplacing hphase _ := by
    obtain ⟨hreport, hreplaced⟩ := Option.filter_eq_some_iff.mp hreplacing
    exact tracking_replaced hp.1 hp.2 hh hreport (Bool.and_eq_true_iff.mp hreplaced).2 hphase
  successor core w h report hp hh _ hphase _ := tracking_rewound hp.1 ⟨hh, hphase⟩
  rebound core w h report hp hh _ hphase := 
    hp.of_closed rfl rfl Option.map_eq_none_iff.mp (ControllerCore.Closed.rebound hh hphase)

/-- Accepted actions keep the invariant; the end of a rollback is a matter of its own. -/
theorem tracking_accepted {action : CampaignAction}
    (haction : action ≠ .confirmAbort ∧ action ≠ .fail ∧ action ≠ .enterForwardRecovery) :
    ActionRule Tracking Tracking action := by
  intro c w campaign manifest target rule reason hp hcampaign _ hd
  refine hp.of_core rfl rfl id (fun h claim hc => ?_)
    (onCourse_accepted hp.1.course hcampaign hd ⟨haction.1, haction.2.1⟩)
  have hk : c.core.campaign = some campaign.core := by simp [Controller.core, hcampaign]
  refine hp.1.fresh h claim ⟨hc.isOpen, hc.claim, fun haborting => hc.kept ?_⟩
  simp only [ControllerCore.IsAborting, hk, Option.map_some, Option.some.injEq] at haborting
  simp [ControllerCore.IsAborting, ControllerCore.inState, hk, aborting_of_accepted hd haction haborting]

theorem tracking_action {action : CampaignAction}
    (haction : action ≠ .confirmAbort ∧ action ≠ .fail ∧ action ≠ .enterForwardRecovery) :
    Keeps (bindingEffects S) Tracking.at (applyAction action) :=
  applyAction_triple tracking_calm tracking_calm (fun _ _ hp => hp) (tracking_accepted haction)

theorem tracking_reports : ReportsFree Tracking := fun _ _ source target hp => ⟨hp.1.withReports source target, hp.2⟩

theorem tracking_holder (role : NodeRole) (holder : IncarnationId) :
    HolderRules (bindingEffects S) Tracking role holder where
  grant request _ _ := fun c w hp => tracking_registry (.grant request) c w hp.1
  deliver := tracking_deliver role
  reattest token := tracking_admits fun _ _ h => by
    cases h
    rfl
  revoke _ _ _ := tracking_registry _
  reattested _ _ := tracking_registry _

theorem tracking_predecessor : Keeps (bindingEffects S) Tracking.at (ensurePredecessorAuthority S.controller) :=
  ensurePredecessorAuthority_keeps tracking_calm.still (tracking_holder .source)

theorem tracking_successor : Keeps (bindingEffects S) Tracking.at (ensureSuccessorAuthority S.controller) :=
  ensureSuccessorAuthority_keeps tracking_calm.still (tracking_holder .target)

/-! ## While records are replicated -/

/-- The handoff is in a phase below `m`, not rolled back, and without a cached claim its shard is the predecessor's. -/
structure ControllerCore.Replicates (core : ControllerCore) (m t : Nat) : Prop where
  phase : ∃ h, core.handoff = some h ∧ h.phase.value < m
  kept : ¬ core.IsAborting
  held : core.HeldByPredecessor t

def Steady (m : Nat) : Assertion (World × Deeds) := fun core w => Tracking core w ∧ core.Replicates m w.1.clock

theorem ControllerCore.Replicates.later {m t t' : Nat} (h : core.Replicates m t) (hle : t ≤ t') : core.Replicates m t' :=
  ⟨h.phase, h.kept, fun hnone h₀ ho a hfind l hl hmode hactive =>
    h.held hnone h₀ ho a hfind l hl hmode (AuthorityLease.effectiveState_active_anti hle hactive)⟩

theorem steady_world {m : Nat} {e : WorldEvent} (hafter : (deedMachine S).world e w = some w') (h : Steady m core w) :
    Steady m core w' :=
  ⟨tracking_world hafter h.1, h.2.later (after_clock (Machine.record_world.mp hafter).1)⟩

/-- Before the fence, the registry leases the shard to no one but the predecessor. -/
theorem steady_exec {m : Nat} {o : ControllerOp} {c : Controller} {choice : Choice} {x : o.Answer}
    (ho : m ≤ HandoffPhase.predecessorFenced.value ∨ ∀ op, o ≠ .authority op) (hpolicy : bindingPolicy.exec o c choice w)
    (hexec : (deedMachine S).exec o c choice w = some (x, w')) (h : Steady m c.core w) :
    Steady m (o.coreAfter x c.core) w' := by
  refine ⟨tracking_exec hpolicy hexec h.1, ?_⟩
  by_cases hop : ∃ op, o = .authority op
  · obtain ⟨op, rfl⟩ := hop
    obtain ⟨slotNowMs, token, rfl, hle, rfl, hw⟩ := perform_authority (Machine.record_exec.mp hexec).1
    obtain ⟨h₀, hh₀, hlt⟩ := h.2.phase
    have hm : m ≤ HandoffPhase.predecessorFenced.value := ho.resolve_right fun hne => hne op rfl
    refine ⟨⟨h₀, hh₀, hlt⟩, h.2.kept, fun hnone h' ho' a' hfind l' hl' hmode hactive => ?_⟩
    cases hh₀.symm.trans ho'.1
    rw [hw] at hactive
    rcases h.1.1.leased.1.exec_cases hfind with ⟨epoch, rfl⟩ | ⟨a, ha, hcase⟩
    · cases hl'
    rcases active_before ⟨w.1.clock, slotNowMs, token⟩ h.1.1.leased.1 hle ha hcase hl' hmode hactive with
      ⟨l, hl, hm', hs, hholder, -⟩ | ⟨hshard, hout⟩
    · exact hholder.symm.trans (h.2.held hnone h₀ ho' a ha l hl hm' hs)
    · obtain ⟨-, hpredecessor, -⟩ := issued_admitted hpolicy h.1.1.leased.1 hmode hout
      exact hpredecessor hnone h.2.kept h₀ ho' (Nat.lt_of_lt_of_le hlt hm) hshard.symm
  · rw [ControllerOp.coreAfter_of_ne fun op ho => hop ⟨op, ho⟩]
    exact h.2.later (perform_clock (Machine.record_exec.mp hexec).1)

theorem steady_admits {m : Nat} {o : ControllerOp} (ho : m ≤ HandoffPhase.predecessorFenced.value ∨ ∀ op, o ≠ .authority op)
    (hcall : ∀ role request, o = .call role request → request.bindsSource = false) :
    Admits (bindingEffects S) (Steady m) o := by
  refine Moves.of_step (fun c w hp => ⟨hp.1, fun role request hop hbinds => ?_⟩)
    (fun _ _ _ _ _ hafter hp => steady_world hafter hp) fun c choice w x w' hpolicy hexec hp =>
      steady_exec ho hpolicy hexec hp
  cases (hcall role request hop).symm.trans hbinds

theorem steady_calm (m : Nat) : Calm (bindingEffects S) (Steady m) := fun _ ho =>
  steady_admits (.inr (ControllerOp.ne_authority_of_isQuiet ho)) (bindsSource_quiet ho)

/-! ## The claim that is read and sent -/

/-- The claim is that of the predecessor's latest lease. -/
def ControllerCore.Names (core : ControllerCore) (claim : AuthorityClaim) (deeds : Deeds) : Prop :=
  ∃ h last, core.handoff = some h ∧ latestOf h.shard h.predecessor deeds = some last ∧ last.claim = claim

def Named (m : Nat) (claim : AuthorityClaim) : Assertion (World × Deeds) := fun core w =>
  Steady m core w ∧ core.Names claim w.2

theorem named_exec {m : Nat} {claim : AuthorityClaim} {o : ControllerOp} {c : Controller} {choice : Choice} {x : o.Answer}
    (ho : ∀ op, o ≠ .authority op) (hpolicy : bindingPolicy.exec o c choice w)
    (hexec : (deedMachine S).exec o c choice w = some (x, w')) (h : Named m claim c.core w) :
    Named m claim (o.coreAfter x c.core) w' := by
  refine ⟨steady_exec (.inr ho) hpolicy hexec h.1, ?_⟩
  obtain ⟨h₀, last, hh, hlast, hclaim⟩ := h.2
  refine ⟨h₀, last, ?_, ?_, hclaim⟩
  · cases o <;> exact hh
  · rw [(Machine.record_exec.mp hexec).2, noteDeeds, latestOf_append _ _ _ ho]
    exact hlast

theorem named_world {m : Nat} {claim : AuthorityClaim} {e : WorldEvent} (hafter : (deedMachine S).world e w = some w')
    (h : Named m claim core w) : Named m claim core w' :=
  ⟨steady_world hafter h.1, by rw [(Machine.record_world.mp hafter).2]; exact h.2⟩

theorem named_calm (m : Nat) (claim : AuthorityClaim) : Calm (bindingEffects S) (Named m claim) := by
  intro o ho
  refine Moves.of_step (fun c w hp => ⟨hp.1.1, fun role request hop hbinds => ?_⟩)
    (fun _ _ _ _ _ hafter hp => named_world hafter hp) fun c choice w x w' hpolicy hexec hp =>
      named_exec (ControllerOp.ne_authority_of_isQuiet ho) hpolicy hexec hp
  cases (bindsSource_quiet ho role request hop).symm.trans hbinds

theorem steady_open {m t : Nat} (hm : m ≤ HandoffPhase.authorityTransferred.value) (h : core.Replicates m t) :
    ∃ h₀, core.Open h₀ := by
  obtain ⟨h₀, hh, hlt⟩ := h.phase
  exact ⟨h₀, hh, Nat.lt_of_lt_of_le hlt hm⟩

/-- The cached claim is the predecessor's. -/
theorem names_cached {m : Nat} {claim : AuthorityClaim} (hm : m ≤ HandoffPhase.authorityTransferred.value)
    (h : Steady m core w) (hclaim : core.fencedPredecessorClaim = some claim) : core.Names claim w.2 := by
  obtain ⟨h₀, ho⟩ := steady_open hm h.2
  obtain ⟨last, hlast, heq⟩ := h.1.1.fresh h₀ claim ⟨ho, hclaim, h.2.kept⟩
  exact ⟨h₀, last, ho.1, hlast, heq⟩

/-- Without a cached claim of the shard, the view's lease is the predecessor's. -/
theorem names_viewed {m : Nat} {manifest : EvolutionManifest} {view : AuthorityView} {lease : AuthorityLease}
    (hm : m ≤ HandoffPhase.authorityTransferred.value) (h : Steady m core w) (hmanifest : core.manifest = some manifest)
    (hclaim : core.fencedPredecessorClaim.filter (·.shard = manifest.shard) = none)
    (hview : core.authority.view manifest.shard w.1.clock = .ok view) (hlease : view.mutating = some lease) :
    core.Names lease.claim w.2 := by
  obtain ⟨h₀, ho⟩ := steady_open hm h.2
  obtain ⟨-, m₀, hm₀, hshard⟩ := h.1.1.course h₀ ho
  cases hmanifest.symm.trans hm₀
  have hnone : core.fencedPredecessorClaim = none := by
    cases hcached : core.fencedPredecessorClaim with
    | none => rfl
    | some claim =>
      obtain ⟨last, hlast, heq⟩ := h.1.1.fresh h₀ claim ⟨ho, hcached, h.2.kept⟩
      rw [hcached, Option.filter_eq_none_iff] at hclaim
      refine absurd ?_ (hclaim claim rfl)
      rw [← heq, hshard]
      exact decide_eq_true (latestOf_terms hlast).1
  obtain ⟨a, ha, l, hl, hmode, hactive, hholder, heq⟩ := AuthorityRegistry.active_of_view hview hlease
  obtain ⟨last, hlast, hlc⟩ := h.1.1.leased.2 _ a ha l hl hmode hactive
  rw [hshard] at ha hlast
  rw [h.2.held hnone h₀ ho a ha l hl hmode hactive] at hlast
  exact ⟨h₀, last, ho.1, hlast, hlc.trans heq.symm⟩

theorem sourceClaim_triple {m : Nat} (hm : m ≤ HandoffPhase.authorityTransferred.value) (missing : String) :
    Triple (bindingEffects S) (Steady m).at (sourceClaim missing)
      (Triple.between (fun claim => (Named m claim).at) fun (_ : Except Status Unit) => (Steady m).at) := by
  unfold sourceClaim currentSourceClaim
  refine Triple.seq (S := fun found c w => found.elim ((Steady m).at c w) fun claim => (Named m claim).at c w) ?_ fun found => ?_
  · refine Triple.get fun c₀ => ?_
    split
    · exact Triple.pure fun c w hp => hp.2
    · rename_i manifest hmanifest
      split
      · rename_i claim hclaim
        refine Triple.pure fun c w hp => ⟨hp.2, names_cached hm hp.2 ?_⟩
        rw [hp.1]
        exact (Option.filter_eq_some_iff.mp hclaim).1
      · rename_i hclaim
        -- The registry is viewed with the memory that was read.
        refine Triple.pre (P := Assertion.at fun core w => Steady m core w ∧ core.manifest = some manifest ∧
          core.fencedPredecessorClaim.filter (·.shard = manifest.shard) = none) ?_ fun c w hp => ?_
        · refine Triple.seq (attempt_view_triple ((steady_calm m).andCore _).still (T := fun t w => w.1.clock = t) ?_ _)
            fun view => ?_
          · intro c w _ w₀ _ x w₁ hx
            obtain ⟨choice, -, hexec⟩ := hx
            obtain ⟨rfl, hw⟩ := perform_now (Machine.record_exec.mp hexec).1
            rw [hw]
          · split
            · exact Triple.pure fun c w hp => hp.1.1
            · rename_i view
              refine Triple.pure fun c w hp => ?_
              obtain ⟨⟨hp, hmanifest, hclaim⟩, t, hview, rfl⟩ := hp
              cases hlease : view.mutating with
              | none => exact hp
              | some lease => exact ⟨hp, names_viewed hm hp hmanifest hclaim hview hlease⟩
        · obtain ⟨rfl, hp⟩ := hp
          exact ⟨hp, hmanifest, hclaim⟩
  · unfold orThrow
    cases found with
    | none => exact Triple.lift fun c w hp => hp
    | some claim => exact Triple.lift fun c w hp => hp

theorem binding_rules {m : Nat} (hm : m ≤ HandoffPhase.authorityTransferred.value) :
    BindingRules (bindingEffects S) (Steady m) (Named m) where
  calm := named_calm m
  weaken _ _ _ hp := hp.1
  read := sourceClaim_triple hm
  send manifest handoff claim request hbinds := by
    intro c w hhandoff _ hp w₀ henv
    have hp₀ : Named m claim c.core w₀ := Machine.env_keeps (fun e w w' _ hafter hp => named_world hafter hp) henv hp
    refine ⟨⟨hp₀.1.1, fun role request' hop _ => ?_⟩, fun x w₁ hx => ?_⟩
    · cases hop
      obtain ⟨h, last, hh, hlast, rfl⟩ := hp₀.2
      obtain rfl : handoff.core = h := by simpa [Controller.core, hhandoff] using hh
      refine ⟨.ofClaim last.claim manifest.source.schema handoff.id, by cases hbinds <;> rfl, ?_⟩
      exact ⟨handoff, last, hhandoff, (latestOf_terms hlast).2, hlast, rfl, rfl, rfl⟩
    · obtain ⟨choice, hpolicy, hexec⟩ := hx
      exact named_exec (fun _ h => by cases h) hpolicy hexec hp₀

/-! ## The operations -/

theorem steady_reports (m : Nat) : ReportsFree (Steady m) := fun _ _ source target hp =>
  ⟨tracking_reports _ _ source target hp.1, hp.2.phase, hp.2.kept, hp.2.held⟩

theorem steady_phase {m : Nat} {target : HandoffPhase} (htarget : target.value < m) : PhaseRule (Steady m) (Steady m) target := by
  intro core w h hp hh hvalid hne
  refine ⟨tracking_phase target core w h hp.1 hh hvalid hne, ?_, hp.2.kept, fun hnone h' ho' a hfind l hl hmode hactive => ?_⟩
  · exact ⟨{ h with phase := target }, by simp [ControllerCore.inPhase, hh], htarget⟩
  · obtain ⟨rfl, hlt⟩ := ControllerCore.open_inPhase hh ho'
    have ho : core.Open h := ⟨hh, Nat.lt_of_le_of_lt (ControllerCore.value_of_validate hvalid hlt) hlt⟩
    exact hp.2.held hnone h ho a hfind l hl hmode hactive

theorem steady_holder {m : Nat} (hm : m ≤ HandoffPhase.predecessorFenced.value) (role : NodeRole) (holder : IncarnationId) :
    HolderRules (bindingEffects S) (Steady m) role holder where
  grant request _ _ := fun c w hp => steady_admits (.inl hm) (fun _ _ h => by cases h) c w hp.1
  deliver body := steady_admits (.inl hm) fun _ _ h => by
    cases h
    rfl
  reattest token := steady_admits (.inl hm) fun _ _ h => by
    cases h
    rfl
  revoke _ _ _ := steady_admits (.inl hm) fun _ _ h => by cases h
  reattested _ _ := steady_admits (.inl hm) fun _ _ h => by cases h

/-- The migration moves the boundaries of the campaign only. -/
theorem steady_migrate {m : Nat} (manifest : EvolutionManifest) :
    Keeps (bindingEffects S) (Steady m).at (migrateSuccessor manifest) := by
  unfold migrateSuccessor
  refine Keeps.bind theHandoff_keeps fun handoff => Keeps.bind (callOk_keeps ?_) fun migrated => ?_
  · refine steady_admits (.inr fun _ h => by cases h) fun _ _ h => ?_
    cases h
    rfl
  · split
    · refine Keeps.bind (Keeps.modify fun c w hp => ?_) fun _ => ?_
      · have hstate := state_crossBoundaries c manifest.migrations
        refine ⟨hp.1.of_core rfl rfl id (fun h claim hc => ?_) (hp.1.1.course.of_same rfl hstate rfl), hp.2.phase,
          fun ha => hp.2.kept (hstate.symm.trans ha), hp.2.held⟩
        exact hp.1.1.fresh h claim ⟨hc.isOpen, hc.claim, hp.2.kept⟩
      · exact Keeps.bind (now_calm (steady_calm m)) fun atMs => append_calm (steady_calm m) _
    · exact Keeps.pure _

/-- A step that binds is entered steadily. -/
theorem enter_binding {phase : HandoffPhase} (hbinds : phase.binds = true) {m : Nat} (hm : phase.value < m)
    (hstep : Triple (bindingEffects S) (Steady m).at (advancePhase S.controller phase) fun _ => Tracking.at) :
    Triple (bindingEffects S) (fun c w => c.core.handoff.map (·.phase) = some phase ∧ Tracking.at c w)
      (enterPhase S.controller phase) fun _ => Tracking.at := by
  refine enterPhase_triple (Moves.of_step (fun c w hp => ⟨hp.1, fun _ _ h _ => by cases h⟩)
    (fun core e w w' _ hafter hp => ⟨tracking_world hafter hp.1, hp.2⟩) ?_) hstep
  intro c choice w x w' hpolicy hexec hp
  obtain ⟨hkept, hheld⟩ := hpolicy.2.2 phase rfl hbinds
  obtain ⟨h, hh, rfl⟩ := Option.map_eq_some_iff.mp hp.2
  have hready : c.core.Replicates m w.1.clock := ⟨⟨h, hh, hm⟩, hkept, hheld⟩
  exact ⟨tracking_exec hpolicy hexec hp.1, hready.later (perform_clock (Machine.record_exec.mp hexec).1)⟩

theorem enter_tracking {phase : HandoffPhase}
    (h : Keeps (bindingEffects S) Tracking.at (advancePhase S.controller phase)) :
    Triple (bindingEffects S) (fun c w => c.core.handoff.map (·.phase) = some phase ∧ Tracking.at c w)
      (enterPhase S.controller phase) fun _ => Tracking.at :=
  enterPhase_triple (N := Tracking) (fun c w hp => tracking_admits (fun _ _ h => by cases h) c w hp.1) h

theorem tracking_step (phase : HandoffPhase) :
    Triple (bindingEffects S) (fun c w => c.core.handoff.map (·.phase) = some phase ∧ Tracking.at c w)
      (enterPhase S.controller phase) fun _ => Tracking.at := by
  have hm : HandoffPhase.predecessorFenced.value ≤ HandoffPhase.authorityTransferred.value := by decide
  have hcalm := steady_calm (S := S) HandoffPhase.predecessorFenced.value
  have hreports := steady_reports HandoffPhase.predecessorFenced.value
  cases phase with
  | notStarted =>
    refine enter_binding rfl (m := HandoffPhase.predecessorFenced.value) (by decide) ?_
    refine (advancePrepared_keeps hcalm hreports (binding_rules hm) ?_ ((steady_phase (by decide)).records hcalm)).post
      fun _ _ _ hp => hp.1
    exact ensurePredecessorAuthority_keeps hcalm.still (steady_holder (Nat.le_refl _) .source)
  | prepared =>
    refine enter_binding rfl (m := HandoffPhase.predecessorFenced.value) (by decide) ?_
    exact (advanceSnapshot_keeps hcalm (binding_rules hm) ((steady_phase (by decide)).records hcalm)).post fun _ _ _ hp => hp.1
  | snapshotSynchronized =>
    refine enter_binding rfl (m := HandoffPhase.predecessorFenced.value) (by decide) ?_
    exact (advanceCatchUp_keeps hcalm hreports (binding_rules hm) ((steady_phase (by decide)).records hcalm) steady_migrate
      ((steady_phase (by decide)).records hcalm)).post fun _ _ _ hp => hp.1
  | caughtUp => exact enter_tracking (advanceReadiness_keeps tracking_calm (tracking_records _))
  | readinessVerified =>
    refine enter_tracking (advanceFence_keeps tracking_calm (fun _ _ _ => tracking_registry _)
      (fun _ _ _ => tracking_registry _) (fun _ => tracking_admits fun _ _ h => ?_) (tracking_records _))
    cases h
    rfl
  | predecessorFenced =>
    refine enter_binding rfl (m := HandoffPhase.authorityTransferred.value) (by decide) ?_
    exact advanceTransfer_triple tracking_calm (steady_calm _) (fun _ _ hp => hp.1) tracking_reports
      (binding_rules (Nat.le_refl _)) (fun _ c w hp => tracking_registry _ c w hp.1) (tracking_deliver _)
      (fun _ _ _ => tracking_registry _) (tracking_records _)
  | authorityTransferred => exact enter_tracking (advanceVerify_keeps tracking_calm (tracking_records _))
  | successorVerified =>
    refine enter_tracking (advanceRetire_keeps (fun _ => tracking_admits fun _ _ h => ?_)
      (tracking_records _) (tracking_action (by decide)))
    cases h
    rfl
  | predecessorRetired => exact enter_tracking (Keeps.pure _)
  | failed => exact enter_tracking (Keeps.throw _)
  | aborted => exact enter_tracking (Keeps.throw _)

theorem tracking_incarnations : Keeps (bindingEffects S) Tracking.at reconcileIncarnations :=
  reconcileIncarnations_keeps tracking_calm tracking_now (fun _ _ _ => tracking_registry _)
    (fun _ _ _ => tracking_registry _) tracking_replacements

/-- A claim that is recorded is that of the lease the registry shows for the predecessor. -/
theorem tracking_claim (manifest : EvolutionManifest) :
    Triple (bindingEffects S) (Assertion.at fun core w => Tracking core w ∧ core.manifest = some manifest)
      (recordPredecessorClaim manifest)
      (Triple.between (fun _ => (WithHandoff Tracking).at) fun (_ : Except Status Unit) => Tracking.at) := by
  refine (recordPredecessorClaim_triple (T := fun t w => w.1.clock = t) (tracking_calm.andCore _).still manifest ?_ ?_).post
    fun r c w hp => ?_
  · intro c w _ w₀ _ x w₁ hx
    obtain ⟨choice, -, hexec⟩ := hx
    obtain ⟨rfl, hw⟩ := perform_now (Machine.record_exec.mp hexec).1
    rw [hw]
  · rintro core w h lease t view ⟨hp, hmanifest⟩ hh hnone hholder hview hlease rfl
    refine ⟨⟨⟨hp.1.leased, fun h' claim hc => ?_, hp.1.course, fun hno => ?_⟩, hp.2⟩, hmanifest⟩
    · cases hh.symm.trans hc.isOpen.1
      cases hc.claim
      obtain ⟨-, m, hm, hshard⟩ := hp.1.course h hc.isOpen
      cases hmanifest.symm.trans hm
      obtain ⟨a, ha, l, hl, hmode, hactive, hlh, heq⟩ := AuthorityRegistry.active_of_view hview hlease
      obtain ⟨last, hlast, hlc⟩ := hp.1.leased.2 _ a ha l hl hmode hactive
      rw [hshard, ← hlh, hholder] at hlast
      exact ⟨last, hlast, hlc.trans heq.symm⟩
    · cases hh.symm.trans hno
  · cases r with
    | error refusal => exact hp.1
    | ok u => exact ⟨hp.1.1, hp.2⟩

theorem tracking_begin : Keeps (bindingEffects S) Tracking.at (beginHandoff S.controller) := by
  refine beginHandoff_triple (A := fun manifest core w => Tracking core w ∧ Beginning manifest core)
    (R := fun manifest core w => Tracking core w ∧ Beginning manifest core ∧
      ∃ k, core.campaign = some k ∧ k.state.isUnderWay = true)
    (B := fun manifest core w => Tracking core w ∧ Beginning manifest core ∧
      ∃ k, core.campaign = some k ∧ k.state.isUnderWay = true)
    (N := fun manifest core w => Tracking core w ∧ core.manifest = some manifest) tracking_calm
    (fun _ _ _ hp => ⟨hp.1, hp.2.1.1⟩) (fun _ _ _ hp => hp.1) (fun _ => tracking_calm.andCore _)
    (fun _ _ _ hp hm hh hc => ⟨hp, hm, hh, hc⟩) ?_ ?_ ?_ ?_ tracking_claim ?_
  · refine fun manifest => applyAction_between (tracking_calm.andCore _) (tracking_calm.andCore _) (fun _ _ hp => hp.1)
      (fun _ _ hp => hp.1) ?_
    intro c w campaign m target rule reason hp hcampaign hm hd
    refine ⟨tracking_accepted (by decide) c w campaign m target rule reason hp.1 hcampaign hm hd,
      ⟨hp.2.1, hp.2.2.1, by simp [ControllerCore.inState, Controller.core, hcampaign]⟩,
      { campaign.core with state := target }, by simp [ControllerCore.inState, Controller.core, hcampaign], ?_⟩
    rw [(accepted_cases hd).2.2]
    rfl
  · refine fun manifest => (bindNodes_keeps (tracking_calm.andCore _) fun core w s t hp => ?_).between fun _ _ _ hp => hp.1
    exact ⟨tracking_reports core w s t hp.1, hp.2⟩
  · rintro manifest core w source target ⟨hp, ⟨hm, hh, -⟩, hk⟩ _ _
    have hcached : core.fencedPredecessorClaim = none := hp.1.cached hh
    refine ⟨⟨⟨hp.1.leased, fun h claim hc => ?_, ControllerCore.OnCourse.begun hm hk source target, fun h => ?_⟩,
      hp.2⟩, hm⟩
    · cases hcached.symm.trans hc.claim
    · cases h
  · exact fun manifest => ensurePredecessorAuthority_keeps (tracking_calm.andCore _).still fun holder =>
      (tracking_holder .source holder).andCore fun _ _ hm => hm
  · exact fun manifest => openWindow_keeps (withHandoff_still tracking_calm.still) manifest fun core w lsn hp =>
      ⟨⟨⟨hp.1.1.leased, fun h claim hc => hp.1.1.fresh h claim ⟨hc.isOpen, hc.claim, hc.kept⟩, hp.1.1.course,
        hp.1.1.cached⟩, hp.1.2⟩, hp.2⟩

theorem tracking_walk : Walk S.controller (bindingEffects S) Tracking Tracking Tracking where
  calm := tracking_calm
  weaken _ _ hp := hp
  excuse _ _ hp := hp
  pause := tracking_action (by decide)
  resume := tracking_action (by decide)
  reports := (bindNodes_keeps tracking_calm tracking_reports).between fun _ _ _ hp => hp
  begin := .of_keeps tracking_begin fun _ _ hp => hp
  incarnations := tracking_incarnations
  renew := renewForPhase_keeps tracking_predecessor tracking_successor
  phase := tracking_step

theorem tracking_preflight : Keeps (bindingEffects S) Tracking.at (preflight S.controller) := by
  refine preflight_keeps (R := fun core w => Tracking core w ∧ core.Closed) tracking_calm (tracking_calm.andCore _)
    (fun _ _ hp => hp.1) ?_ ?_ fun core w hp => ?_
  · refine applyAction_between tracking_calm (tracking_calm.andCore _) (fun _ _ hp => hp) (fun _ _ hp => hp.1) ?_
    intro c w campaign m target rule reason hp hcampaign hm hd
    refine ⟨tracking_accepted (by decide) c w campaign m target rule reason hp hcampaign hm hd, ?_⟩
    refine ControllerCore.Closed.inState (hp.1.course.closed fun k hk => ?_) target
    obtain rfl : campaign.core = k := by simpa [Controller.core, hcampaign] using hk
    rw [show campaign.core.state = .planned from (accepted_cases hd).2.1]
    rfl
  · refine preflightChecks_keeps (tracking_calm.andCore _) (bindNodes_keeps (tracking_calm.andCore _) ?_) ?_
    · exact fun core w s t hp => ⟨tracking_reports core w s t hp.1, hp.2⟩
    · exact ensurePredecessorAuthority_keeps (tracking_calm.andCore _).still fun holder =>
        (tracking_holder .source holder).andCore fun _ _ hc => hc
  · exact hp.1.of_closed rfl rfl id (hp.2.inState .failed)

theorem tracking_rollBack (manifest : EvolutionManifest) :
    Keeps (bindingEffects S) Tracking.at (rollBack S.controller manifest) := by
  refine rollBack_keeps (R := fun core w => Tracking core w ∧ core.Closed) tracking_calm (tracking_calm.andCore _)
    (fun _ _ hp => hp.1) (fun _ => tracking_registry _) (tracking_deliver _) (fun _ => tracking_admits fun _ _ h => ?_) (fun core w hp => ?_)
    (fun _ _ hp hnone => ⟨hp, ControllerCore.closed_of_none hnone⟩) ?_ manifest
  · cases h
    rfl
  · exact ⟨hp.of_closed rfl rfl Option.map_eq_none_iff.mp ControllerCore.closed_aborted, ControllerCore.closed_aborted⟩
  · refine applyAction_triple (tracking_calm.andCore _) tracking_calm (fun _ _ hp => hp.1) ?_
    exact fun c w _ _ target _ _ hp _ _ _ => hp.1.of_closed rfl rfl id (hp.2.inState target)

theorem tracking_abort : Keeps (bindingEffects S) Tracking.at (abort S.controller) :=
  (tracking_walk.abort (N := Tracking) (fun _ _ hp => hp) ((tracking_action (by decide)).between fun _ _ _ hp => hp)
    fun manifest => (tracking_rollBack manifest).pre fun _ _ hp => hp.1).keeps

theorem tracking_reconcile : Keeps (bindingEffects S) Tracking.at (reconcile S.controller) := by
  refine reconcile_triple (A := Tracking) (N := Tracking) tracking_calm (fun _ _ hp => hp) (fun _ _ hp => hp)
    ((bindNodes_keeps tracking_calm tracking_reports).between fun _ _ _ hp => hp)
    (tracking_incarnations.between fun _ _ _ hp => hp)
    (reconcileAuthority_keeps tracking_predecessor tracking_successor)
    (reconcileTransfer_keeps tracking_calm (tracking_records _)) (reconcileFence_keeps (tracking_records _))
    (reconcilePredecessor_triple tracking_calm (fun _ _ hp => hp) tracking_now ?_)
  intro core w h report hp hh hreport hreplaced _ hphase _
  exact tracking_replaced hp.1 hp.2 hh hreport hreplaced hphase

/-- A plan that is admitted finds no open handoff. -/
theorem tracking_plan (manifest : EvolutionManifest) :
    Keeps (bindingEffects S) Tracking.at (plan S.controller manifest) := by
  refine plan_triple (A := fun _ core w => Tracking core w ∧ core.Closed) (B := fun _ core w => Tracking core w ∧ core.Closed)
    (fun _ => tracking_calm.andCore _) (fun _ => tracking_calm.andCore _ _ rfl) tracking_calm (fun _ _ hp => hp)
    (fun _ _ _ hp => hp.1) ?_ ?_ ?_ ?_
  · intro sealed c w hp hrunning _
    exact ⟨hp, closed_of_refuseRunning hp.1.course hrunning⟩
  · exact fun sealed shard epoch => (tracking_registry _).andStable fun _ _ hc => hc
  · exact fun sealed core w hp => ⟨hp.1.of_closed rfl rfl id hp.2, hp.2⟩
  · exact fun sealed core w hp => hp.1.of_closed rfl rfl id hp.2

theorem tracking_sound : (deedMachine S).Sound bindingPolicy bindingMid (fun c w => Tracking c.core w)
    (fun w => ∀ d, w.1.disk = some d → Sourced d.core w) where
  command op := by
    have hpre : ∀ {m : Control Unit}, Keeps (bindingEffects S) Tracking.at m →
        Triple (bindingEffects S) (fun c w => Tracking c.core w ∧ bindingPolicy.command op c w) m fun _ => Tracking.at :=
      fun hm => hm.pre fun _ _ hp => hp.1
    cases op with
    | plan manifest => exact hpre (tracking_plan manifest)
    | preflight => exact hpre tracking_preflight
    | start => exact hpre tracking_walk.start.keeps
    | advance => exact hpre tracking_walk.advance.keeps
    | run => exact hpre tracking_walk.runToCompletion.keeps
    | pause => exact hpre tracking_walk.pause
    | resume => exact hpre tracking_walk.resumed.keeps
    | abort => exact hpre tracking_abort
    | reconcile => exact hpre tracking_reconcile
  world e w w' _ hafter := by
    refine ⟨fun c hp => tracking_world hafter hp, fun hd d hdisk => (hd d ?_).world hafter⟩
    rw [after_disk (Machine.record_world.mp hafter).1] at hdisk
    exact hdisk
  crash c w _ := ⟨fun hp => hp.2, fun _ hp => hp.1.2⟩
  boot incarnation w c w' hd hboot := by
    obtain ⟨hboot, hsame⟩ := Machine.record_boot.mp hboot
    obtain ⟨hw, hopened⟩ := openController_cases hboot
    have hcore : Sourced c.core w' := by
      rcases hopened with ⟨-, rfl⟩ | ⟨durable, authority, hdisk, hload, rfl⟩
      · refine ⟨⟨AuthorityRegistry.wellFormed_empty, AuthorityRegistry.latest_empty _ _⟩, fun h claim hc => ?_, fun h ho => ?_,
          fun _ => rfl⟩
        · cases hc.claim
        · cases ho.1
      · obtain ⟨hleased, hfresh, hcourse, hcached⟩ := hd durable hdisk
        rw [core_opened]
        obtain rfl := AuthorityRegistry.WellFormed.eq_detach hleased.1 hload
        refine ⟨⟨hleased.1.detach, ?_⟩, fun h claim hc => ?_, hcourse.replanned _, hcached⟩
        · rw [hw, hsame]
          exact hleased.2.detach
        · rw [hsame]
          refine hfresh h claim ⟨hc.isOpen, hc.claim, fun haborting => hc.kept ?_⟩
          obtain ⟨k, hk, hstate⟩ := Option.map_eq_some_iff.mp haborting
          have hk' : k.replanned = k := ControllerCore.isUnderWay_replanned (by rw [hstate]; rfl)
          simp [ControllerCore.IsAborting, hk, hk', hstate]
    refine ⟨hcore, fun d hd' => ?_⟩
    rw [hw] at hd'
    cases hd'
    exact hcore.stored

end

/-- In every run under `bindingPolicy`: a request that binds the successor carries a binding, and it tracks the
predecessor. -/
theorem binding_tracks {S : SystemSetup} {clock : Nat} {source target : NodeDisk} {sourceUuid targetUuid : IncarnationUuid}
    {es : List SystemEvent} {role : NodeRole} {request : NodeRequest} {c : Controller}
    {k : (ControllerOp.call role request).Answer → Prog Controller ControllerOp ControllerOp.Answer (Except Status Unit × Controller)}
    {w : World × Deeds}
    (hrun : Run ((deedMachine S).step bindingPolicy)
      (.down ((S.start clock source target sourceUuid targetUuid).world, [])) es (.running (.op (.call role request) c k) w))
    (hbinds : request.bindsSource = true) :
    ∃ binding, request.sourceBinding = some binding ∧ c.Tracks w.2 binding := by
  have hs := tracking_sound.run_holds hrun
    (fun d (hd : (S.start clock source target sourceUuid targetUuid).world.disk = some d) => (by cases hd))
  exact (Machine.Holds.due hs).2 role request rfl hbinds

/-! ## Runs of the concrete system -/

namespace Sample

/-- A request that binds the successor is due. -/
def binding (s : DeedConfig) : Bool :=
  match s with
  | .running (.op (.call _ request) _ _) _ => request.bindsSource
  | _ => false

theorem binding_cases {s : DeedConfig} (h : binding s = true) :
    ∃ role request c k w, s = .running (.op (.call role request) c k) w ∧ request.bindsSource = true := by
  unfold binding at h
  split at h
  · exact ⟨_, _, _, _, _, rfl, h⟩
  · cases h

/-- The predecessor is not replaced; the one grant comes before the handoff; steps are entered with a claim in hand. -/
def keepsClaim (s : DeedConfig) (e : SystemEvent) : Bool :=
  match s, e with
  | .running (.op o c _) w, .exec _ =>
    (c.handoff.all fun h => c.lastSourceReport.all fun report => !provablyReplaced h.predecessor report.incarnation) &&
      match o with
      | .authority (.grant request) => c.handoff.isNone &&
          w.1.disk.all fun d => d.handoff.isNone && (d.authority.find request.shard).all (·.leases.isEmpty)
      | .enter _ => c.fencedPredecessorClaim.isSome && c.campaign.all (·.state ≠ .aborting)
      | _ => true
  | _, _ => true

theorem leavesClaim_of_none {core : ControllerCore} (hnone : core.handoff = none) (shard : ShardId) (holder : IncarnationId) :
    core.LeavesClaim shard holder :=
  fun h _ hc => absurd hc.isOpen (ControllerCore.closed_of_none hnone h)

theorem allows_of_keepsClaim (s : DeedConfig) (e : SystemEvent) (h : keepsClaim s e = true) :
    Machine.allows bindingPolicy s e := by
  match s, e with
  | .running (.op o c k) w, .exec choice =>
    obtain ⟨hreports, hop⟩ := Bool.and_eq_true_iff.mp h
    refine ⟨?_, ?_, ?_⟩
    · rintro ⟨h₀, claim, report, hc, -, hreport, hreplaced⟩
      obtain ⟨handoff, hhandoff, rfl⟩ := Option.map_eq_some_iff.mp hc.isOpen.1
      have hreport' : c.lastSourceReport = some report := hreport
      rw [hhandoff, hreport'] at hreports
      change provablyReplaced handoff.predecessor report.incarnation = true at hreplaced
      simp [hreplaced] at hreports
    · rintro request slotNowMs token a rfl rfl - - -
      obtain ⟨hnone, hfile⟩ := Bool.and_eq_true_iff.mp hop
      have hhandoff : c.core.handoff = none := by simpa [Controller.core] using hnone
      refine ⟨leavesClaim_of_none hhandoff _ _, fun _ _ h₀ ho => ?_, fun d hd => ?_, fun d a' hd ha' l hl => ?_⟩
      · exact absurd ho (ControllerCore.closed_of_none hhandoff h₀)
      · rw [hd] at hfile
        obtain ⟨hnone', -⟩ := Bool.and_eq_true_iff.mp hfile
        exact leavesClaim_of_none (by simpa [Durable.core] using hnone') _ _
      · rw [hd] at hfile
        obtain ⟨-, hempty⟩ := Bool.and_eq_true_iff.mp hfile
        rw [ha'] at hempty
        rw [List.isEmpty_iff.mp hempty] at hl
        cases hl
    · rintro phase rfl -
      obtain ⟨hclaim, hstate⟩ := Bool.and_eq_true_iff.mp hop
      refine ⟨fun haborting => ?_, fun hnone => ?_⟩
      · obtain ⟨k', hk', haborting⟩ := Option.map_eq_some_iff.mp haborting
        obtain ⟨campaign, hcampaign, rfl⟩ := Option.map_eq_some_iff.mp hk'
        rw [hcampaign] at hstate
        exact of_decide_eq_true hstate haborting
      · rw [show c.fencedPredecessorClaim = none from hnone] at hclaim
        cases hclaim
  | .running (.ret _) _, .exec _ | .idle _ _, .exec _ | .down _, .exec _ => trivial
  | .idle _ _, .begin _ | .running _ _, .begin _ | .down _, .begin _ | _, .finish | _, .boot _ | _, .world _ => trivial
  | _, .crash => exact fun _ _ => trivial

/-- A handoff as far as the preparation of the successor. -/
def preparing : List SystemEvent :=
  prepared (manifest firstCampaign 1) ++ .begin .start :: beginning ++ stepping ++ [answered, answered, reading, reading, answered]

end Sample

open Sample in
theorem binding_tracks_sample : ∃ role request c k w,
    (∃ es, Run ((deedMachine setup).step bindingPolicy) deedSystem es (.running (.op (.call role request) c k) w)) ∧
    request.bindsSource = true ∧ ∃ binding, request.sourceBinding = some binding ∧ c.Tracks w.2 binding := by
  obtain ⟨s, hrun, hs⟩ := (deedMachine setup).exists_run allows_of_keepsClaim deedSystem preparing Sample.binding
    (by decide +kernel)
  obtain ⟨role, request, c, k, w, rfl, hbinds⟩ := binding_cases hs
  exact ⟨role, request, c, k, w, ⟨_, hrun⟩, hbinds, binding_tracks hrun hbinds⟩

namespace Sample

/-- The source restarts once the handoff has begun and its claim is cached; the handoff is rewound, the new incarnation
gets a lease of its own, and the step of preparation comes to the successor. -/
def replacing : List SystemEvent :=
  prepared (manifest firstCampaign 1) ++ .begin .start :: beginning ++
    [.world (.restart .source uuid), answered, answered, reading, readings 1, reading, stored, reading, reading, reading,
      stored, stored, reading, readings 2, answered, reading, stored, stored, reading, .exec .entered, answered, answered,
      reading, reading, answered]

/-- The binding that is due names another incarnation than the predecessor. -/
def bindsAnother (s : DeedConfig) : Bool :=
  match s with
  | .running (.op (.call _ request) c _) _ =>
    request.sourceBinding.any fun binding => c.handoff.any fun h => binding.source ≠ h.predecessor
  | _ => false

end Sample

open Sample in
/-- The predecessor is replaced; the successor is prepared for the incarnation whose claim is cached. -/
theorem binding_of_replaced :
    ¬ ∀ (S : SystemSetup) (clock : Nat) (source target : NodeDisk) (sourceUuid targetUuid : IncarnationUuid)
      (es : List SystemEvent) (role : NodeRole) (request : NodeRequest) (c : Controller)
      (k : (ControllerOp.call role request).Answer →
        Prog Controller ControllerOp ControllerOp.Answer (Except Status Unit × Controller)) (w : World × Deeds),
      Run ((deedMachine S).step {}) (.down ((S.start clock source target sourceUuid targetUuid).world, [])) es
        (.running (.op (.call role request) c k) w) →
      request.bindsSource = true → ∃ binding, request.sourceBinding = some binding ∧ c.Tracks w.2 binding := by
  intro hclaim
  obtain ⟨s, hrun, hs⟩ := (deedMachine setup).exists_free_run deedSystem Sample.replacing
    (fun s => Sample.binding s && bindsAnother s) (by decide +kernel)
  obtain ⟨hbinds, hs⟩ := Bool.and_eq_true_iff.mp hs
  obtain ⟨role, request, c, k, w, rfl, hbinds⟩ := binding_cases hbinds
  obtain ⟨b, hb, hs⟩ := (Option.any_eq_true _ _).mp hs
  obtain ⟨h, hh, hne⟩ := (Option.any_eq_true _ _).mp hs
  obtain ⟨b', hb', h', last, hh', hsource, -⟩ := hclaim setup _ _ _ _ _ _ role request c k w hrun hbinds
  cases hb.symm.trans hb'
  cases hh.symm.trans hh'
  exact of_decide_eq_true hne hsource

end FabricEvolution
