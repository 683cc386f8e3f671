import FabricEvolution.Authority.Account
import FabricEvolution.System.Course
import FabricEvolution.System.Nodes

/-!
# The slot of a fenced predecessor

* `ControllerCore.SlotFree` : in `PredecessorFenced` the predecessor is out of the mutation slot;
* `Guarding` : what registry and handoff say of each other; `Guarding.exec`, `Guarding.inPhase`, ... : what the registry
  and the moves of the records keep of it;
* `ControllerCore.Pending` : the predecessor has no active lease, and what is outstanding is on a list; `Pending.exec` :
  an acknowledgement takes its fence off the list, `Pending.released` : and at its end the slot is free.
-/

namespace FabricEvolution
open Lib Control

namespace ControllerCore

/-- In `PredecessorFenced` the predecessor is out of the mutation slot: no fence of it is outstanding and no mutating lease
of it is effectively active or fencing. -/
def SlotFree (core : ControllerCore) (t : Nat) : Prop :=
  ∀ h, core.handoff = some h → h.phase = .predecessorFenced → ∀ a, core.authority.find h.shard = some a →
    a.Released h.predecessor t

/-- The handoff, if there is one, has not got as far as the transfer. -/
def Undecided (core : ControllerCore) : Prop := ∀ h, core.handoff = some h → core.Open h

end ControllerCore

/-- The fences of every shard account for its slot. -/
structure AuthorityRegistry.Accounts (registry : AuthorityRegistry) (t : Nat) : Prop where
  wellFormed : registry.WellFormed
  shards : ∀ k a, registry.find k = some a → a.Accounts t

/-- Until the transfer, outstanding fences guard the source; in `PredecessorFenced` the slot is free. An open handoff is
on course, between the two components. -/
structure Guarding (S : SystemSetup) (core : ControllerCore) (t : Nat) : Prop where
  accounts : core.authority.Accounts t
  guards : core.Undecided → ∀ k a, core.authority.find k = some a → a.Guards S.source.component t
  free : core.SlotFree t
  course : core.OnCourse
  roles : ∀ h, core.Open h → h.predecessor.component = S.source.component ∧ h.successor.component = S.target.component

/-- A mutating grant that leaves the handoff guarded: before the transfer, the source gets none with a fence outstanding,
and a fenced predecessor none at all. -/
def ControllerCore.MayGrant (S : SystemSetup) (core : ControllerCore) (request : GrantRequest) : Prop :=
  (core.Undecided → request.holder.component = S.source.component → Unfenced request.shard request.holder core) ∧
    ∀ h, core.handoff = some h → h.phase = .predecessorFenced → request.holder ≠ h.predecessor

section
variable {S : SystemSetup} {core core' : ControllerCore} {registry : AuthorityRegistry} {h₀ : HandoffCore} {t t' : Nat}

/-! ## Registries -/

namespace AuthorityRegistry

theorem Accounts.later (h : registry.Accounts t) (hle : t ≤ t') : registry.Accounts t' :=
  ⟨h.wellFormed, fun k a ha => (h.shards k a ha).later hle⟩

theorem Accounts.detach (h : registry.Accounts t) : registry.detach.Accounts t := by
  refine ⟨h.wellFormed.detach, fun k a ha => ?_⟩
  obtain ⟨a₀, ha₀, rfl⟩ := Option.map_eq_some_iff.mp (find_detach.symm.trans ha)
  have hstep : ShardStep k t t default a₀ .reload .done a₀.detach := .detached
  exact hstep.accounts (h.wellFormed.ids k a₀ ha₀) (Nat.le_refl t) (h.shards k a₀ ha₀)

theorem Accounts.exec {op : RegistryOp} (readings : Readings) (h : registry.Accounts readings.nowMs)
    (hle : readings.nowMs ≤ readings.slotNowMs) :
    (op.exec registry readings.nowMs readings.slotNowMs readings.token).1.Accounts readings.slotNowMs := by
  refine ⟨h.wellFormed.exec, fun k a' ha' => ?_⟩
  rcases h.wellFormed.exec_cases ha' with ⟨epoch, rfl⟩ | ⟨a, ha, ⟨rfl, -⟩ | ⟨-, hstep⟩⟩
  · exact ShardAuthority.accounts_fresh _ _ _ _
  · exact (h.shards k _ ha).later hle
  · exact hstep.accounts (h.wellFormed.ids k a ha) hle (h.shards k a ha)

end AuthorityRegistry

/-! ## Cores -/

theorem Guarding.later (h : Guarding S core t) (hle : t ≤ t') : Guarding S core t' where
  accounts := h.accounts.later hle
  guards hu k a ha := (h.guards hu k a ha).later hle
  free h₀ hh hphase a ha := (h.free h₀ hh hphase a ha).later hle
  course := h.course
  roles := h.roles

/-- Of the core, only the registry and what is said of handoff, campaign and manifest count. -/
theorem Guarding.of_same (h : Guarding S core t) (hauthority : core'.authority = core.authority)
    (hhandoff : core'.handoff = core.handoff) (hcourse : core'.OnCourse) : Guarding S core' t where
  accounts := hauthority ▸ h.accounts
  guards hu := by
    rw [hauthority]
    exact h.guards fun h₀ hh => ⟨hh, (hu h₀ (hhandoff.trans hh)).2⟩
  free h₀ hh := by
    rw [hauthority]
    exact h.free h₀ (hhandoff.symm.trans hh)
  course := hcourse
  roles h₀ ho := h.roles h₀ ⟨hhandoff.symm.trans ho.1, ho.2⟩

/-- A closed handoff leaves nothing to guard. -/
theorem Guarding.of_closed (haccounts : core.authority.Accounts t) (hhandoff : core.handoff ≠ none) (hc : core.Closed) :
    Guarding S core t := by
  obtain ⟨h, hh⟩ := Option.ne_none_iff_exists'.mp hhandoff
  refine ⟨haccounts, fun hu => absurd (hu h hh) (hc h), fun h' hh' hphase => ?_, hc.onCourse, fun h' ho => absurd ho (hc h')⟩
  refine absurd ⟨hh', ?_⟩ (hc h')
  rw [hphase]
  decide

theorem Guarding.stored (h : Guarding S core t) : Guarding S core.stored t := h.of_same rfl rfl h.course

theorem Guarding.withReports (h : Guarding S core t) (source target : Option NodeReport) :
    Guarding S (core.withReports source target) t :=
  h.of_same rfl rfl h.course

/-- What an operation on the registry keeps. -/
theorem Guarding.exec {op : RegistryOp} (readings : Readings) (h : Guarding S core readings.nowMs)
    (hle : readings.nowMs ≤ readings.slotNowMs)
    (hgrant : ∀ request, op = .grant request → request.mode = .mutating → core.MayGrant S request) :
    Guarding S { core with
      authority := (op.exec core.authority readings.nowMs readings.slotNowMs readings.token).1 } readings.slotNowMs where
  accounts := h.accounts.exec readings hle
  guards hu k a' ha' := by
    rcases h.accounts.wellFormed.exec_cases ha' with ⟨epoch, rfl⟩ | ⟨a, ha, ⟨rfl, -⟩ | ⟨hconcerns, hstep⟩⟩
    · exact fun fence hf => by cases hf
    · exact (h.guards hu k _ ha).later hle
    · refine hstep.guards (h.accounts.wellFormed.ids k a ha) hle (h.accounts.shards k a ha) ?_ (h.guards hu k a ha)
      rintro request rfl hmode hcomponent
      obtain rfl : request.shard = k := by simpa [RegistryOp.concerns, RegistryOp.shard] using hconcerns
      exact (hgrant request rfl hmode).1 hu hcomponent a ha
  free h₀ hh hphase a' ha' := by
    rcases h.accounts.wellFormed.exec_cases ha' with ⟨epoch, rfl⟩ | ⟨a, ha, ⟨rfl, -⟩ | ⟨-, hstep⟩⟩
    · exact ⟨fun _ hf => absurd hf List.not_mem_nil, fun _ hl => absurd hl List.not_mem_nil⟩
    · exact (h.free h₀ hh hphase _ ha).later hle
    · exact hstep.released (h.accounts.wellFormed.ids _ a ha) hle (h.accounts.shards _ a ha)
        (fun request hop hmode => (hgrant request hop hmode).2 h₀ hh hphase) (h.free h₀ hh hphase a ha)
  course := h.course
  roles := h.roles

/-- A fresh process finds what the state file says. -/
theorem Guarding.opened (h : Guarding S core t) :
    Guarding S { core with authority := core.authority.detach, campaign := core.campaign.map (·.replanned) } t where
  accounts := h.accounts.detach
  guards hu k a ha := by
    obtain ⟨a₀, ha₀, rfl⟩ := Option.map_eq_some_iff.mp (AuthorityRegistry.find_detach.symm.trans ha)
    have hstep : ShardStep k t t default a₀ .reload .done a₀.detach := .detached
    exact hstep.guards (h.accounts.wellFormed.ids k a₀ ha₀) (Nat.le_refl t) (h.accounts.shards k a₀ ha₀)
      (fun _ hop => by cases hop) (h.guards hu k a₀ ha₀)
  free h₀ hh hphase a ha := by
    obtain ⟨a₀, ha₀, rfl⟩ := Option.map_eq_some_iff.mp (AuthorityRegistry.find_detach.symm.trans ha)
    have hstep : ShardStep h₀.shard t t default a₀ .reload .done a₀.detach := .detached
    exact hstep.released (h.accounts.wellFormed.ids _ a₀ ha₀) (Nat.le_refl t) (h.accounts.shards _ a₀ ha₀)
      (fun _ hop => by cases hop) (h.free h₀ hh hphase a₀ ha₀)
  course := h.course.replanned _
  roles := h.roles

/-! ## Records that move -/

/-- Entering a phase; `PredecessorFenced` is entered with the predecessor out of the slot. -/
theorem Guarding.inPhase {target : HandoffPhase} (h : Guarding S core t) (hh : core.handoff = some h₀)
    (hvalid : validateHandoffTransition h₀.phase target = .ok ())
    (hfree : target = .predecessorFenced → ∀ a, core.authority.find h₀.shard = some a → a.Released h₀.predecessor t) :
    Guarding S (core.inPhase target) t := by
  have hopen : target.value < HandoffPhase.authorityTransferred.value → core.Open h₀ := fun hlt =>
    ⟨hh, Nat.lt_of_le_of_lt (ControllerCore.value_of_validate hvalid hlt) hlt⟩
  refine ⟨h.accounts, fun hu => h.guards fun h' hh' => ?_, fun h' hh' hphase a ha => ?_, h.course.inPhase hh hvalid,
    fun h' ho => ?_⟩
  · cases hh.symm.trans hh'
    exact hopen (hu { h₀ with phase := target } (by simp [ControllerCore.inPhase, hh])).2
  · simp only [ControllerCore.inPhase, hh, Option.map_some, Option.some.injEq] at hh'
    subst hh'
    exact hfree hphase a ha
  · obtain ⟨rfl, hlt⟩ := ControllerCore.open_inPhase hh ho
    exact h.roles h₀ (hopen hlt)

/-- A rewound handoff is between the same components. -/
theorem Guarding.rewound {predecessor successor : IncarnationId} {target : HandoffPhase} (h : Guarding S core t)
    (ho : core.Open h₀) (htarget : target ≠ .predecessorFenced)
    (hpredecessor : predecessor.component = h₀.predecessor.component)
    (hsuccessor : successor.component = h₀.successor.component) :
    Guarding S (core.rewound predecessor successor target) t := by
  refine ⟨h.accounts, fun _ => h.guards fun h' hh' => ?_, fun h' hh' hphase => ?_, h.course.rewound ho, fun h' ho' => ?_⟩
  · cases ho.1.symm.trans hh'
    exact ho
  · simp only [ControllerCore.rewound, ho.1, Option.map_some, Option.some.injEq] at hh'
    subst hh'
    exact absurd hphase htarget
  · rw [ControllerCore.open_rewound ho.1 ho']
    exact ⟨hpredecessor.trans (h.roles h₀ ho).1, hsuccessor.trans (h.roles h₀ ho).2⟩

/-- The successor of a closed handoff is re-bound. -/
theorem Guarding.rebound {successor : IncarnationId} (h : Guarding S core t) (hh : core.handoff = some h₀)
    (hle : HandoffPhase.authorityTransferred.value ≤ h₀.phase.value) : Guarding S (core.rebound successor) t :=
  .of_closed h.accounts (by simp [ControllerCore.rebound, hh]) (ControllerCore.Closed.rebound hh hle)

/-- A handoff begins between the two components. -/
theorem Guarding.begun {manifest : EvolutionManifest} {source target : NodeReport} (h : Guarding S core t)
    (hnone : core.handoff = none) (hcourse : (core.begun manifest source target).OnCourse)
    (hsource : source.incarnation.component = S.source.component)
    (htarget : target.incarnation.component = S.target.component) : Guarding S (core.begun manifest source target) t := by
  refine ⟨h.accounts, fun _ => h.guards fun h' hh' => ?_, fun h' hh' hphase => ?_, hcourse, ?_⟩
  · cases hnone.symm.trans hh'
  · cases hh'
    cases hphase
  · rintro h' ⟨⟨⟩, -⟩
    exact ⟨hsource, htarget⟩

/-! ## Fences that are acknowledged -/

/-- The predecessor has no active lease, and every outstanding fence of it is on the list. -/
structure ControllerCore.Pending (core : ControllerCore) (h : HandoffCore) (rest : List FenceRecord) (t : Nat) : Prop where
  isOpen : core.Open h
  inactive : ∀ a, core.authority.find h.shard = some a → a.Inactive h.predecessor t
  outstanding : ∀ a, core.authority.find h.shard = some a → ∀ fence ∈ a.fences, fence.acknowledged = false →
    fence.target = h.predecessor → fence ∈ rest

namespace ControllerCore
variable {fence : FenceRecord} {rest : List FenceRecord}

theorem Pending.later (h : core.Pending h₀ rest t) (hle : t ≤ t') : core.Pending h₀ rest t' :=
  ⟨h.isOpen, fun a ha => (h.inactive a ha).later hle, h.outstanding⟩

/-- A record that is acknowledged, or of someone else, need not be on the list. -/
theorem Pending.skip (h : core.Pending h₀ (fence :: rest) t)
    (hskip : ¬ (fence.acknowledged = false ∧ fence.target = h₀.predecessor)) : core.Pending h₀ rest t := by
  refine ⟨h.isOpen, h.inactive, fun a ha f hf hack htarget => ?_⟩
  rcases List.mem_cons.mp (h.outstanding a ha f hf hack htarget) with rfl | hrest
  · exact absurd ⟨hack, htarget⟩ hskip
  · exact hrest

/-- An acknowledgement takes its fence off the list. -/
theorem Pending.exec (readings : Readings) {holder : IncarnationId} (h : core.Pending h₀ (fence :: rest) readings.nowMs)
    (haccounts : core.authority.Accounts readings.nowMs) (hle : readings.nowMs ≤ readings.slotNowMs)
    (hdone : ∀ refusal, ((RegistryOp.acknowledgeFence h₀.shard holder fence.id).exec core.authority readings.nowMs
      readings.slotNowMs readings.token).2 ≠ .refused refusal) :
    { core with authority := ((RegistryOp.acknowledgeFence h₀.shard holder fence.id).exec core.authority readings.nowMs
      readings.slotNowMs readings.token).1 }.Pending h₀ rest readings.slotNowMs := by
  refine ⟨h.isOpen, fun a' ha' => ?_, fun a' ha' f hf hack htarget => ?_⟩
  · rcases haccounts.wellFormed.exec_cases ha' with ⟨epoch, rfl⟩ | ⟨a, ha, ⟨rfl, -⟩ | ⟨-, hstep⟩⟩
    · exact fun l hl => absurd hl List.not_mem_nil
    · exact (h.inactive _ ha).later hle
    · exact hstep.inactive (haccounts.wellFormed.ids _ a ha) hle (fun _ hop => by cases hop) (h.inactive a ha)
  · rcases haccounts.wellFormed.exec_cases ha' with ⟨epoch, rfl⟩ | ⟨a, ha, ⟨-, hno⟩ | ⟨-, hstep⟩⟩
    · cases hf
    · simp [RegistryOp.concerns, RegistryOp.shard] at hno
    · obtain ⟨hold, hid⟩ := hstep.outstanding_acknowledged (haccounts.shards _ a ha).ids hdone hf hack
      rcases List.mem_cons.mp (h.outstanding a ha f hold hack htarget) with rfl | hrest
      · exact absurd rfl hid
      · exact hrest

/-- With nothing on the list the predecessor is out of the slot. -/
theorem Pending.released (h : core.Pending h₀ [] t) (haccounts : core.authority.Accounts t) :
    ∀ a, core.authority.find h₀.shard = some a → a.Released h₀.predecessor t := fun a ha =>
  (haccounts.shards _ a ha).released (fun fence hf htarget => by
    by_contra hack
    exact absurd (h.outstanding a ha fence hf (Bool.not_eq_true _ ▸ hack) htarget) List.not_mem_nil) (h.inactive a ha)

end ControllerCore

end

end FabricEvolution
