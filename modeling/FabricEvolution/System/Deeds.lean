import FabricEvolution.System.Operations

/-!
# What the controller did

* `Deed` : a mutating lease granted, the step of a phase entered, a write that the source refused;
* `deedMachine` : the system with the list of its deeds; `lastGranted` : the last lease of some kind in it;
* `Backed` : in its verify step a handoff met a refusal of the predecessor's last credentials;
* `evidence_sound`, `verified_backed` : `SuccessorVerified` is backed, if the step is entered with the last
  credentials in hand and the probe is answered.
-/

namespace FabricEvolution
open Lib Control

/-! ## Deeds -/

inductive Deed where
  /-- The registry granted or extended a mutating lease. -/
  | granted (lease : AuthorityLease)
  | entered (handoff : Nat) (phase : HandoffPhase)
  /-- The source answered a write that presented the claim, with a refusal. -/
  | refused (claim : AuthorityClaim)

abbrev Deeds := List Deed

def Deed.lease? : Deed → Option AuthorityLease
  | granted lease => some lease
  | _ => none

/-- What an effect amounts to. -/
def deedOf (o : ControllerOp) (c : Controller) (x : o.Answer) : Option Deed :=
  match o, x with
  | .authority op, readings =>
    match (op.exec c.authority readings.nowMs readings.slotNowMs readings.token).2.lease with
    | .ok lease => if lease.mode = .mutating then some (.granted lease) else none
    | .error _ => none
  | .enter phase, _ => some (.entered ((c.handoff.map (·.id)).getD 0) phase)
  | .call .source (.write body), .ok (.error _) =>
    match body.claim with
    | some (.ok claim) => some (.refused claim)
    | _ => none
  | _, _ => none

def noteDeeds (o : ControllerOp) (c : Controller) (_ : Choice) (_ : World) (x : o.Answer) (deeds : Deeds) : Deeds :=
  deeds ++ (deedOf o c x).toList

/-- The system with its deeds. -/
def deedMachine (S : SystemSetup) := (machine S).record noteDeeds

abbrev DeedConfig := Config Controller ControllerOp ControllerOp.Answer (World × Deeds) Status

/-- The last lease satisfying `p` that was granted. -/
def lastGranted (p : AuthorityLease → Bool) (deeds : Deeds) : Option AuthorityLease :=
  ((deeds.filterMap Deed.lease?).filter p).getLast?

theorem deedOf_quiet {o : ControllerOp} (ho : o.isQuiet = true) (c : Controller) (x : o.Answer) :
    deedOf o c x = none ∨ ∃ claim, deedOf o c x = some (.refused claim) := by
  unfold deedOf
  split
  · cases ho
  · cases ho
  · split
    · exact .inr ⟨_, rfl⟩
    · exact .inl rfl
  · exact .inl rfl

/-! ## Evidence -/

/-- The last lease of a component. -/
def lastOf (component : ComponentId) : Deeds → Option AuthorityLease := lastGranted (·.holder.component = component)

/-- After the verify step of the handoff was entered, with nothing granted and no step entered since, the source
refused a write under the last credentials that were granted to its component. -/
def Backed (component : ComponentId) (handoff : Nat) (deeds : Deeds) : Prop :=
  ∃ before between after lease, deeds = before ++ .entered handoff .authorityTransferred :: between ++
      .refused lease.claim :: after ∧
    (∀ deed ∈ between, ∃ claim, deed = .refused claim) ∧ lastOf component before = some lease

theorem Backed.append {component : ComponentId} {handoff : Nat} {deeds : Deeds} (h : Backed component handoff deeds)
    (more : Deeds) : Backed component handoff (deeds ++ more) := by
  obtain ⟨before, between, after, lease, rfl, hbetween, hlast⟩ := h
  exact ⟨before, between, after ++ more, lease, by simp, hbetween, hlast⟩

/-- A verified handoff is backed. -/
def VerifiedBacked (component : ComponentId) (core : ControllerCore) (deeds : Deeds) : Prop :=
  ∀ h, core.handoff = some h → h.phase = .successorVerified ∨ h.phase = .predecessorRetired →
    Backed component h.id deeds

/-- The verify step is entered when the cached claim is that of the last lease of the predecessor's component, and its
probe is answered. -/
def probePolicy (S : SystemSetup) : SystemPolicy (World × Deeds) where
  exec o c choice w :=
    (o = .enter .authorityTransferred →
      ∃ lease, lastOf S.source.component w.2 = some lease ∧ c.fencedPredecessorClaim = some lease.claim) ∧
    ∀ body, o = .call .source (.write body) → ∃ io laterMs, choice = .answered io laterMs

/-- In the verify step of a handoff, with the last credentials in hand. -/
def Verifying (component : ComponentId) (core : ControllerCore) (deeds : Deeds) : Prop :=
  ∃ h before between lease, core.handoff = some h ∧ core.fencedPredecessorClaim = some lease.claim ∧
    deeds = before ++ .entered h.id .authorityTransferred :: between ∧
    (∀ deed ∈ between, ∃ claim, deed = .refused claim) ∧ lastOf component before = some lease

section
variable {S : SystemSetup}

/-- The deeds keep that a verified handoff is backed. -/
def Evidence (S : SystemSetup) : Assertion (World × Deeds) := Kept (VerifiedBacked S.source.component)

def evidenceEffects (S : SystemSetup) : SystemEffects (World × Deeds) :=
  (deedMachine S).effects (probePolicy S) fun _ c w => Evidence S c.core w

theorem evidence_admits (o : ControllerOp) : Admits (evidenceEffects S) (Evidence S) o :=
  kept_admits (fun _ _ _ _ _ _ _ hi h hh hphase => (hi h hh hphase).append _) (fun _ _ hi => hi) (fun _ _ _ hi => hi)
    (fun _ _ _ hp => hp) o

theorem VerifiedBacked.of_phase {component : ComponentId} {core core' : ControllerCore} {deeds : Deeds}
    (h : VerifiedBacked component core deeds)
    (hsame : ∀ h', core'.handoff = some h' → h'.phase = .successorVerified ∨ h'.phase = .predecessorRetired →
      ∃ h, core.handoff = some h ∧ h.id = h'.id ∧ (h.phase = .successorVerified ∨ h.phase = .predecessorRetired)) :
    VerifiedBacked component core' deeds := by
  intro h' hh' hphase
  obtain ⟨h₀, hh, hid, hphase⟩ := hsame h' hh' hphase
  exact hid ▸ h h₀ hh hphase

theorem verified_of_retired {phase : HandoffPhase} (h : validateHandoffTransition phase .predecessorRetired = .ok ())
    (hne : phase ≠ .predecessorRetired) : phase = .successorVerified := by
  cases phase <;> first | rfl | exact absurd rfl hne | cases h

theorem evidence_free : FreeRules (evidenceEffects S) (Evidence S) where
  effect o _ := evidence_admits o
  reports _ _ _ _ hp := hp
  phase target htarget := by
    intro core w handoff hp hhandoff hvalid hne
    refine ⟨hp.1.of_phase fun h' hh' hphase => ⟨handoff, hhandoff, ?_⟩, hp.2⟩
    simp only [ControllerCore.inPhase, hhandoff, Option.map_some, Option.some.injEq] at hh'
    subst hh'
    refine ⟨rfl, .inl ?_⟩
    rcases hphase with rfl | rfl
    · exact absurd rfl htarget
    · exact verified_of_retired hvalid hne
  aborted core w hp := by
    refine ⟨hp.1.of_phase fun h' hh' hphase => ?_, hp.2⟩
    obtain ⟨h, -, rfl⟩ := Option.map_eq_some_iff.mp hh'
    rcases hphase with hphase | hphase <;> cases hphase
  state _ _ _ hp := ⟨hp.1, hp.2⟩
  rewound core w _ _ target htarget hp := by
    refine ⟨hp.1.of_phase fun h' hh' hphase => ?_, hp.2⟩
    obtain ⟨h, -, rfl⟩ := Option.map_eq_some_iff.mp hh'
    rcases hphase with hphase | hphase <;> subst hphase <;> exact absurd htarget (by decide)
  rebound core w _ hp := by
    refine ⟨hp.1.of_phase fun h' hh' hphase => ?_, hp.2⟩
    obtain ⟨h, hh, rfl⟩ := Option.map_eq_some_iff.mp hh'
    exact ⟨h, hh, rfl, hphase⟩

/-! ## The verify step -/

/-- The probe adds refusals at most. -/
theorem verifying_quiet {o : ControllerOp} (ho : o.isQuiet = true) {c : Controller} {choice : Choice}
    {w w' : World × Deeds} {x : o.Answer} (hexec : (deedMachine S).exec o c choice w = some (x, w')) {core : ControllerCore}
    (h : Verifying S.source.component core w.2) : Verifying S.source.component core w'.2 := by
  obtain ⟨h₀, before, between, lease, hh, hclaim, hdeeds, hbetween, hlast⟩ := h
  rw [(Machine.record_exec.mp hexec).2, noteDeeds, hdeeds]
  rcases deedOf_quiet ho c x with hnone | ⟨claim, hrefused⟩
  · exact ⟨h₀, before, between, lease, hh, hclaim, by simp [hnone], hbetween, hlast⟩
  · refine ⟨h₀, before, between ++ [.refused claim], lease, hh, hclaim, by simp [hrefused], fun deed hdeed => ?_, hlast⟩
    rcases List.mem_append.mp hdeed with hdeed | hdeed
    · exact hbetween deed hdeed
    · exact ⟨claim, List.mem_singleton.mp hdeed⟩

theorem verifying_calm :
    Calm (evidenceEffects S) fun core w => Evidence S core w ∧ Verifying S.source.component core w.2 := by
  intro o ho
  refine Moves.of_step (fun c w hp => hp.1) (fun core e w w' _ hafter hp => ?_) ?_
  · exact ⟨kept_world hafter hp.1, by rw [(Machine.record_world.mp hafter).2]; exact hp.2⟩
  · intro c choice w x w' hpolicy hexec hp
    refine ⟨(evidence_admits o c w hp.1 w .refl).2 x w' ⟨choice, hpolicy, hexec⟩, ?_⟩
    rw [ControllerOp.coreAfter_of_isQuiet ho]
    exact verifying_quiet ho hexec hp.2

/-- The handoff met the refusal. -/
def Proved (S : SystemSetup) : Assertion (World × Deeds) := fun core w =>
  Evidence S core w ∧ ∀ h, core.handoff = some h → Backed S.source.component h.id w.2

theorem proved_calm : Calm (evidenceEffects S) (Proved S) := by
  intro o ho
  refine Moves.of_step (fun c w hp => hp.1) (fun core e w w' _ hafter hp => ?_) ?_
  · exact ⟨kept_world hafter hp.1, by rw [(Machine.record_world.mp hafter).2]; exact hp.2⟩
  · intro c choice w x w' hpolicy hexec hp
    refine ⟨(evidence_admits o c w hp.1 w .refl).2 x w' ⟨choice, hpolicy, hexec⟩, ?_⟩
    rw [ControllerOp.coreAfter_of_isQuiet ho, (Machine.record_exec.mp hexec).2]
    exact fun h hh => (hp.2 h hh).append _

theorem proveFenced_triple (handoff : HandoffRecord) :
    Triple (evidenceEffects S) (Assertion.at fun core w => Evidence S core w ∧ Verifying S.source.component core w.2)
      (proveFenced handoff) (Triple.between (fun _ => (Proved S).at) fun (_ : Except Status Unit) => (Evidence S).at) := by
  unfold proveFenced
  refine Triple.get fun c₀ => ?_
  split
  · rename_i hnone
    refine Triple.pure fun c w hp => ?_
    obtain ⟨rfl, -, h, before, between, lease, -, hclaim, -⟩ := hp
    rw [show c.core.fencedPredecessorClaim = none from hnone] at hclaim
    cases hclaim
  · rename_i claim hclaim
    refine Triple.seq (S := fun stale c w => Except.casesOn (motive := fun _ => Prop) stale (fun _ => (Proved S).at c w)
      fun _ => (Evidence S).at c w) (call_triple fun c w hp w₀ henv => ?_) fun stale => ?_
    · obtain ⟨rfl, hp⟩ := hp
      have hp₀ := (verifying_calm (S := S) .now rfl c w hp w₀ henv).1
      have hverifying : Verifying S.source.component c.core w₀.2 :=
        Machine.env_keeps (I := fun w => Verifying S.source.component c.core w.2)
          (fun e w w' _ hafter hv => by rw [(Machine.record_world.mp hafter).2]; exact hv) henv hp.2
      refine ⟨hp₀, fun x w₁ hx => ?_⟩
      have hkept : Evidence S c.core w₁ := (evidence_admits _ c w₀ hp₀ w₀ .refl).2 x w₁ hx
      obtain ⟨choice, hpolicy, hexec⟩ := hx
      obtain ⟨io, laterMs, rfl⟩ := hpolicy.2 _ rfl
      obtain ⟨hexec, hnote⟩ := Machine.record_exec.mp hexec
      cases x with
      | error failure =>
        change perform S (.call _ _) c (.answered io laterMs) w₀.1 = some (.error failure, w₁.1) at hexec
        simp only [perform] at hexec
        split_ifs at hexec
        split at hexec <;> cases hexec
      | ok answer =>
        cases answer with
        | ok body => exact hkept
        | error refusal =>
          refine ⟨hkept, fun h hh => ?_⟩
          obtain ⟨h₀, before, between, lease, hh₀, hclaim₀, hdeeds, hbetween, hlast⟩ := hverifying
          cases hh₀.symm.trans hh
          rw [show c.core.fencedPredecessorClaim = some claim from hclaim] at hclaim₀
          cases hclaim₀
          exact ⟨before, between, [], lease, by rw [hnote, noteDeeds, hdeeds]; simp [deedOf, probe], hbetween, hlast⟩
    · split
      · exact Triple.pure fun c w hp => hp
      · exact Triple.throw fun c w hp => hp

/-- The verify step ends backed, or where it began. -/
theorem advanceVerify_triple :
    Triple (evidenceEffects S) (Assertion.at fun core w => Evidence S core w ∧ Verifying S.source.component core w.2)
      advanceVerify fun _ => (Evidence S).at := by
  unfold advanceVerify
  refine theManifest_seq (fun manifest => ?_) fun _ c w hp => hp.1
  refine theHandoff_seq (fun handoff => ?_) fun _ c w hp => hp.2.1
  refine Triple.pre (P := Assertion.at fun core w => Evidence S core w ∧ Verifying S.source.component core w.2) ?_
    fun c w hp => hp.2.2
  refine Triple.seq (S := fun _ => Assertion.at fun core w => Evidence S core w ∧ Verifying S.source.component core w.2)
    ((Keeps.attempt (view_calm verifying_calm _)).post fun r c w hp => ?_) fun view => ?_
  · cases r with
    | error refusal => exact hp.1
    | ok view => exact hp
  split
  · exact Triple.throw fun c w hp => hp.1
  · refine Triple.seq (S := fun _ => Assertion.at fun core w => Evidence S core w ∧ Verifying S.source.component core w.2)
      ((reportOf_calm verifying_calm _).post fun r c w hp => ?_) fun target => ?_
    · cases r with
      | error refusal => exact hp.1
      | ok report => exact hp
    split
    · exact Triple.throw fun c w hp => hp.1
    · refine Triple.seq (proveFenced_triple handoff) fun _ => ?_
      refine Triple.seq (S := fun _ => (Proved S).at) ((callOk_calm proved_calm rfl).post fun r c w hp => ?_) fun _ => ?_
      · cases r with
        | error refusal => exact hp.1
        | ok answer => exact hp
      refine recordPhase_triple proved_calm evidence_free.calm (fun _ _ hp => hp.1) ?_ _
      intro core w handoff hp hhandoff _ _
      refine ⟨fun h' hh' _ => ?_, hp.1.2⟩
      simp only [ControllerCore.inPhase, hhandoff, Option.map_some, Option.some.injEq] at hh'
      subst hh'
      exact hp.2 handoff hhandoff

theorem evidence_verify :
    Triple (evidenceEffects S) (fun c w => c.core.handoff.map (·.phase) = some .authorityTransferred ∧ (Evidence S).at c w)
      (enterPhase S.controller .authorityTransferred) fun _ => (Evidence S).at := by
  refine enterPhase_triple (Moves.of_step (fun c w hp => hp.1) (fun core e w w' _ hafter hp => ?_) ?_) advanceVerify_triple
  · exact ⟨kept_world hafter hp.1, hp.2⟩
  · intro c choice w x w' hpolicy hexec hp
    refine ⟨(evidence_admits _ c w hp.1 w .refl).2 x w' ⟨choice, hpolicy, hexec⟩, ?_⟩
    obtain ⟨lease, hlast, hclaim⟩ := hpolicy.1 rfl
    obtain ⟨h, hh, -⟩ := Option.map_eq_some_iff.mp hp.2
    obtain ⟨handoff, hhandoff, rfl⟩ := Option.map_eq_some_iff.mp hh
    refine ⟨handoff.core, w.2, [], lease, hh, hclaim, ?_, fun _ hd => (by cases hd), hlast⟩
    rw [(Machine.record_exec.mp hexec).2]
    simp [noteDeeds, deedOf, hhandoff, HandoffRecord.core]

theorem evidence_migrate (manifest : EvolutionManifest) :
    Keeps (evidenceEffects S) (Evidence S).at (migrateSuccessor manifest) := by
  unfold migrateSuccessor
  refine Keeps.bind theHandoff_keeps fun handoff => Keeps.bind (callOk_keeps (evidence_admits _)) fun migrated => ?_
  split
  · refine Keeps.bind (Keeps.modify fun c w hp => hp) fun _ => ?_
    exact Keeps.bind (now_calm evidence_free.calm) fun atMs => append_calm evidence_free.calm _
  · exact Keeps.pure _

theorem evidence_begin : Keeps (evidenceEffects S) (Evidence S).at (beginHandoff S.controller) := by
  have hsteps : StepRules S.controller (evidenceEffects S) (Evidence S) := evidence_free.steps
  refine beginHandoff_triple (A := fun _ => Evidence S) (R := fun _ => Evidence S) (B := fun _ => Evidence S)
    (N := fun _ => Evidence S) evidence_free.calm (fun _ _ _ hp => hp) (fun _ _ _ hp => hp) (fun _ => evidence_free.calm)
    (fun _ _ _ hp _ _ _ => hp) ?_ (fun _ => hsteps.bindNodes) ?_ (fun _ => hsteps.predecessor) ?_ ?_
  · refine fun _ => (evidence_free.action _).post fun r c w hp => ?_
    cases r <;> exact hp
  · rintro manifest core w source target hp _ _
    refine ⟨?_, hp.2⟩
    rintro h ⟨⟩ (hphase | hphase) <;> cases hphase
  · exact fun manifest => recordPredecessorClaim_triple (T := fun _ _ => True) evidence_free.calm.still manifest
      (fun _ _ _ _ _ _ _ _ => trivial) fun _ _ _ _ _ _ hp _ _ _ _ _ _ => hp
  · exact fun manifest => openWindow_keeps (withHandoff_still evidence_free.calm.still) manifest fun _ _ _ hp => hp

theorem evidence_plan (manifest : EvolutionManifest) :
    Keeps (evidenceEffects S) (Evidence S).at (plan S.controller manifest) :=
  plan_triple (A := fun _ => Evidence S) (B := fun _ => Evidence S) (fun _ => evidence_free.calm)
    (fun _ => evidence_admits _) evidence_free.calm (fun _ _ hp => hp) (fun _ _ _ hp => hp) (fun _ _ _ hp _ _ => hp)
    (fun _ _ _ => evidence_admits _) (fun _ _ _ hp => hp) (fun _ _ _ hp => hp)

theorem evidence_sound : (deedMachine S).Sound (probePolicy S) (fun _ c w => Evidence S c.core w) (Evidence S).at
    (fun w => ∀ d, w.1.disk = some d → VerifiedBacked S.source.component d.core w.2) where
  command op := evidence_free.keeps evidence_begin evidence_migrate evidence_verify (fun _ _ hp => hp.1)
    fun manifest hop => by
      subst hop
      exact (evidence_plan manifest).pre fun _ _ hp => hp.1
  world e w w' _ hafter := by
    refine ⟨fun c hp => kept_world hafter hp, fun hd => ?_⟩
    obtain ⟨hafter, hsame⟩ := Machine.record_world.mp hafter
    rw [hsame, after_disk hafter]
    exact hd
  crash c w _ := ⟨fun hp => hp.2, fun _ hp => hp.2⟩
  boot incarnation w c w' hd hboot := by
    obtain ⟨hboot, hsame⟩ := Machine.record_boot.mp hboot
    have hcore : VerifiedBacked S.source.component c.core w'.2 := by
      obtain ⟨-, ⟨-, rfl⟩ | ⟨durable, authority, hdisk, -, rfl⟩⟩ := openController_cases hboot
      · rintro h ⟨⟩
      · rw [core_opened, hsame]
        exact hd durable hdisk
    obtain ⟨hw, -⟩ := openController_cases hboot
    refine ⟨hcore, fun d hd' => ?_⟩
    rw [hw] at hd'
    cases hd'
    exact hcore

/-- In every run in which the verify step is entered with the last credentials of the predecessor in hand and its probe
is answered: a handoff that is `SuccessorVerified` met the refusal of these credentials in its verify step. -/
theorem verified_backed {clock : Nat} {source target : NodeDisk} {sourceUuid targetUuid : IncarnationUuid}
    {es : List SystemEvent} {s : DeedConfig} {c : Controller} {h : HandoffRecord}
    (hrun : Run ((deedMachine S).step (probePolicy S))
      (.down ((S.start clock source target sourceUuid targetUuid).world, [])) es s)
    (hmemory : s.memory = some c) (hh : c.handoff = some h) (hphase : h.phase = .successorVerified) :
    Backed S.source.component h.id s.world.2 := by
  have hs := evidence_sound.run_holds hrun
    (fun d (hd : (S.start clock source target sourceUuid targetUuid).world.disk = some d) => (by cases hd))
  have hc : (Evidence S).at c s.world := hs.memory (fun _ _ hp => hp) (fun _ _ _ hp => hp) hmemory
  exact hc.1 h.core (by simp [Controller.core, hh]) (.inl hphase)

end

/-! ## Runs of the concrete system -/

namespace Sample

def deedSystem : DeedConfig := .down (system.world, [])

/-- The handoff is verified. -/
def verified (s : DeedConfig) : Bool := s.memory.any fun c => c.handoff.any (·.phase = .successorVerified)

/-- The claim of the last lease of the source is cached. -/
def holdsLast (c : Controller) (deeds : Deeds) : Bool :=
  (lastOf sourceComponent deeds).any fun lease => c.fencedPredecessorClaim = some lease.claim

/-- The verify step is entered with the last credentials, its probe is answered. -/
def probes (s : DeedConfig) (e : SystemEvent) : Bool :=
  match s, e with
  | .running (.op (.enter .authorityTransferred) c _) w, .exec _ => holdsLast c w.2
  | .running (.op (.call .source (.write _)) _ _) _, .exec choice =>
    match choice with
    | .answered .. => true
    | _ => false
  | _, _ => true

theorem allows_of_probes (s : DeedConfig) (e : SystemEvent) (h : probes s e = true) :
    Machine.allows (probePolicy setup) s e := by
  match s, e with
  | .running (.op o c k) w, .exec choice =>
    constructor
    · rintro rfl
      obtain ⟨lease, hlast, hclaim⟩ := (Option.any_eq_true _ _).mp h
      exact ⟨lease, hlast, of_decide_eq_true hclaim⟩
    · rintro body rfl
      cases choice with
      | answered io laterMs => exact ⟨io, laterMs, rfl⟩
      | _ => cases h
  | .running (.ret _) _, .exec _ | .idle _ _, .exec _ | .down _, .exec _ => trivial
  | .idle _ _, .begin _ | .running _ _, .begin _ | .down _, .begin _ | _, .finish | _, .boot _ | _, .world _ => trivial
  | _, .crash => exact fun _ _ => trivial

end Sample

open Sample in
theorem verified_backed_sample : ∃ s c h, (∃ es, Run ((deedMachine setup).step (probePolicy setup)) deedSystem es s) ∧
    s.memory = some c ∧ c.handoff = some h ∧ h.phase = .successorVerified ∧ Backed sourceComponent h.id s.world.2 := by
  obtain ⟨s, hrun, hs⟩ := (deedMachine setup).exists_run allows_of_probes deedSystem
    (transferred ++ stepping ++ [reading, answered, answered, answered] ++ recording) verified (by decide +kernel)
  obtain ⟨c, hc, hs⟩ := (Option.any_eq_true _ _).mp hs
  obtain ⟨h, hh, hphase⟩ := (Option.any_eq_true _ _).mp hs
  exact ⟨s, c, h, ⟨_, hrun⟩, hc, hh, of_decide_eq_true hphase, verified_backed hrun hc hh (of_decide_eq_true hphase)⟩

/-- Without a refusal there is no evidence. -/
theorem not_backed {component : ComponentId} {handoff : Nat} {deeds : Deeds}
    (h : ∀ deed ∈ deeds, ∀ claim, deed ≠ .refused claim) : ¬ Backed component handoff deeds := by
  rintro ⟨before, between, after, lease, rfl, -, -⟩
  exact h (.refused lease.claim) (by simp) lease.claim rfl

namespace Sample

/-- The handoff is verified though no write was ever refused. -/
def verifiedUnasked (s : DeedConfig) : Bool :=
  verified s && s.world.2.all fun
    | .refused _ => false
    | _ => true

end Sample

open Sample in
/-- The probe does not reach the predecessor, and the handoff is declared verified. -/
theorem verified_unasked :
    ¬ ∀ (S : SystemSetup) (clock : Nat) (source target : NodeDisk) (sourceUuid targetUuid : IncarnationUuid)
      (es : List SystemEvent) (s : DeedConfig) (c : Controller) (h : HandoffRecord),
      Run ((deedMachine S).step {}) (.down ((S.start clock source target sourceUuid targetUuid).world, [])) es s →
      s.memory = some c → c.handoff = some h → h.phase = .successorVerified →
      Backed S.source.component h.id s.world.2 := by
  intro hclaim
  obtain ⟨s, hrun, hs⟩ := (deedMachine setup).exists_free_run deedSystem
    (transferred ++ stepping ++ [reading, answered, .exec (.unreachable failure), answered] ++ recording) verifiedUnasked
    (by decide +kernel)
  obtain ⟨hs, hunasked⟩ := Bool.and_eq_true_iff.mp hs
  obtain ⟨c, hc, hs⟩ := (Option.any_eq_true _ _).mp hs
  obtain ⟨h, hh, hphase⟩ := (Option.any_eq_true _ _).mp hs
  refine not_backed ?_ (hclaim setup _ _ _ _ _ _ s c h hrun hc hh (of_decide_eq_true hphase))
  rintro deed hdeed claim rfl
  exact absurd (List.all_eq_true.mp hunasked _ hdeed) (by simp)

end FabricEvolution
