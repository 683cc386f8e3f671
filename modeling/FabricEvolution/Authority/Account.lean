import FabricEvolution.Authority.Fence

/-!
# Fences that account for the slot

* `ShardAuthority.Accounts` : a lease that is being fenced has its fence on record, and an incarnation has one fence
  outstanding at most; `ShardStep.accounts` : every operation keeps that;
* `ShardAuthority.Guards` : an incarnation with a fence outstanding has no active mutating lease;
* `ShardAuthority.Released` : nothing is outstanding and no lease is in the slot, `Accounts.released` : which is what
  a guarded fence leaves behind once it is acknowledged.
-/

namespace FabricEvolution
open Lib AuthorityLease

namespace ShardAuthority

/-- No fence of the incarnation is outstanding. -/
def Unfenced (a : ShardAuthority) (holder : IncarnationId) : Prop :=
  ∀ fence ∈ a.fences, fence.target = holder → fence.acknowledged = true

/-- The incarnation has no active mutating lease. -/
def Inactive (a : ShardAuthority) (holder : IncarnationId) (t : Nat) : Prop :=
  ∀ l ∈ a.leases, l.mode = .mutating → l.holder = holder → l.effectiveState t ≠ .active

/-- The incarnation is out of the slot: nothing is outstanding and no lease is active or being fenced. -/
structure Released (a : ShardAuthority) (holder : IncarnationId) (t : Nat) : Prop where
  unfenced : a.Unfenced holder
  free : ∀ l ∈ a.leases, l.mode = .mutating → l.holder = holder → l.effectiveState t ≠ .active ∧ l.effectiveState t ≠ .fencing

/-- An incarnation of the component with a fence outstanding has no active mutating lease. -/
def Guards (component : ComponentId) (a : ShardAuthority) (t : Nat) : Prop :=
  ∀ fence ∈ a.fences, fence.acknowledged = false → fence.target.component = component → a.Inactive fence.target t

/-- Records track, they have ids of their own, no two are outstanding for one incarnation, and a lease that is being
fenced has one. -/
structure Accounts (a : ShardAuthority) (t : Nat) : Prop where
  track : a.FencesTrack t
  ids : (a.fences.map (·.id)).Nodup
  below : ∀ fence ∈ a.fences, fence.id < a.nextFenceId
  single : ∀ f ∈ a.fences, ∀ g ∈ a.fences, f.acknowledged = false → g.acknowledged = false → f.target = g.target → f = g
  marked : ∀ l ∈ a.leases, l.mode = .mutating → l.effectiveState t = .fencing →
    ∃ fence ∈ a.fences, fence.fencedLease = l.id ∧ fence.target = l.holder

theorem accounts_fresh (k : ShardId) (epoch generation t : Nat) :
    ({ shard := k, epoch := epoch, generation := generation } : ShardAuthority).Accounts t where
  track := ⟨by simp [SlotUnique], by simp, List.nodup_nil⟩
  ids := List.nodup_nil
  below := by simp
  single := by simp
  marked := by simp

variable {a : ShardAuthority} {holder : IncarnationId} {component : ComponentId} {t t' : Nat}

/-! ## Time -/

theorem Inactive.later (h : a.Inactive holder t) (hle : t ≤ t') : a.Inactive holder t' := fun l hl hmode hholder hactive =>
  h l hl hmode hholder (effectiveState_active_anti hle hactive)

theorem Guards.later (h : Guards component a t) (hle : t ≤ t') : Guards component a t' := fun fence hf hack hc =>
  (h fence hf hack hc).later hle

theorem Released.later (h : a.Released holder t) (hle : t ≤ t') : a.Released holder t' := by
  refine ⟨h.unfenced, fun l hl hmode hholder => ⟨fun hactive => ?_, fun hfencing => ?_⟩⟩
  · exact (h.free l hl hmode hholder).1 (effectiveState_active_anti hle hactive)
  · exact (h.free l hl hmode hholder).2 (effectiveState_fencing_anti hle hfencing)

theorem Accounts.later (h : a.Accounts t) (hle : t ≤ t') : a.Accounts t' where
  track := ⟨h.track.slot.later hle, fun f hf => (h.track.tracks f hf).later hle, h.track.nodup⟩
  ids := h.ids
  below := h.below
  single := h.single
  marked l hl hmode hfencing := h.marked l hl hmode (effectiveState_fencing_anti hle hfencing)

/-! ## Out of the slot -/

theorem Released.inactive (h : a.Released holder t) : a.Inactive holder t := fun l hl hmode hholder =>
  (h.free l hl hmode hholder).1

/-- A lease that is being fenced has a fence outstanding. -/
theorem Accounts.outstanding (h : a.Accounts t) {l : AuthorityLease} (hl : l ∈ a.leases) (hmode : l.mode = .mutating)
    (hfencing : l.effectiveState t = .fencing) :
    ∃ fence ∈ a.fences, fence.acknowledged = false ∧ fence.fencedLease = l.id ∧ fence.target = l.holder := by
  obtain ⟨fence, hf, hid, htarget⟩ := h.marked l hl hmode hfencing
  refine ⟨fence, hf, ?_, hid, htarget⟩
  by_contra hack
  have hstate := ((h.track.tracks fence hf).fenced l hl hid.symm).2 (Bool.not_eq_false _ ▸ hack)
  exact hstate (effectiveState_eq_fencing.mp hfencing).1

/-- Without a fence outstanding and without an active lease, an incarnation is out of the slot. -/
theorem Accounts.released (h : a.Accounts t) (hunfenced : a.Unfenced holder) (hinactive : a.Inactive holder t) :
    a.Released holder t := by
  refine ⟨hunfenced, fun l hl hmode hholder => ⟨hinactive l hl hmode hholder, fun hfencing => ?_⟩⟩
  obtain ⟨fence, hf, hack, -, htarget⟩ := h.outstanding hl hmode hfencing
  rw [hunfenced fence hf (htarget.trans hholder)] at hack
  cases hack

end ShardAuthority

/-! ## Steps -/

section
variable {k : ShardId} {nowMs slotNowMs : Nat} {token : AuthorityToken} {a a' : ShardAuthority} {op : RegistryOp}
  {outcome : RegistryOutcome} {holder : IncarnationId} {component : ComponentId}

/-- An incarnation without an active lease gets none unless it is granted one. -/
theorem ShardStep.inactive (hids : a.IdsAscend) (hle : nowMs ≤ slotNowMs)
    (h : ShardStep k nowMs slotNowMs token a op outcome a')
    (hgrant : ∀ request, op = .grant request → request.mode = .mutating → request.holder ≠ holder)
    (hi : a.Inactive holder nowMs) : a'.Inactive holder slotNowMs := by
  intro l' hl' hmode hholder hactive
  obtain ⟨hstate, hlive⟩ := effectiveState_eq_active.mp (effectiveState_active_anti hle hactive)
  rcases h.backward hids.nodup hl' with ⟨l, hl, hs⟩ | hout
  · refine hi l hl (hs.mode_eq ▸ hmode) (hs.holder_eq ▸ hholder) ?_
    exact effectiveState_eq_active.mpr (hs.active_of_active hstate hlive)
  · subst hout
    cases h with
    | issued request => exact hgrant request rfl hmode hholder

/-- An acknowledgement leaves the other records as they are. -/
theorem mem_of_unacknowledged {pre post : List FenceRecord} {f fence : FenceRecord}
    (hf : f ∈ pre ++ { fence with acknowledged := true, acknowledgedAtMs := nowMs } :: post) (hack : f.acknowledged = false) :
    f ∈ pre ++ fence :: post := by
  rcases List.mem_append.mp hf with hpre | hpost
  · exact List.mem_append_left _ hpre
  · rcases List.mem_cons.mp hpost with rfl | hpost
    · cases hack
    · exact List.mem_append_right _ (List.mem_cons_of_mem _ hpost)

/-- An outstanding fence was outstanding before, or it has just been put out for the incarnation in the slot. -/
theorem ShardStep.outstanding_backward (h : ShardStep k nowMs slotNowMs token a op outcome a') {fence : FenceRecord}
    (hf : fence ∈ a'.fences) (hack : fence.acknowledged = false) : fence ∈ a.fences ∨
      (∃ reason, op = .requestFence k fence.target reason) ∧ a.Unfenced fence.target ∧ ∃ l ∈ a.leases, l.id = fence.fencedLease ∧ l.holder = fence.target ∧
        l.mode = .mutating ∧ l.effectiveState nowMs = .active := by
  cases h with
  | fenced target reason pre post lease _ _ hfresh hleases hholder hmode hactive =>
    rcases mem_of_mem_pushBounded hf with hold | rfl
    · exact .inl hold
    · obtain ⟨hl, hlive⟩ := ShardAuthority.mem_of_flushed_active hleases hactive
      exact .inr ⟨⟨reason, rfl⟩, hfresh, lease, hl, rfl, hholder, hmode, effectiveState_eq_active.mpr ⟨hactive, hlive⟩⟩
  | acknowledged holder pre post acknowledged hfences =>
    rw [hfences]
    exact .inl (mem_of_unacknowledged hf hack)
  | _ => exact .inl hf

/-- A lease that is being fenced was so before, unless a fence has just been requested. -/
theorem ShardStep.fencing_backward (hids : a.IdsAscend) (h : ShardStep k nowMs slotNowMs token a op outcome a')
    (hno : ∀ target reason, op = .requestFence k target reason → outcome ≠ .done) {l' : AuthorityLease}
    (hl' : l' ∈ a'.leases) (hs : l'.state = .fencing) : ∃ l ∈ a.leases, l.id = l'.id ∧ l.holder = l'.holder ∧
      l.mode = l'.mode ∧ l.expiresAtMs = l'.expiresAtMs ∧ l.state = .fencing := by
  have hflushed : l' ∈ a.leases.map (·.expireAt nowMs) → ∃ l ∈ a.leases, l.id = l'.id ∧ l.holder = l'.holder ∧
      l.mode = l'.mode ∧ l.expiresAtMs = l'.expiresAtMs ∧ l.state = .fencing := by
    intro hmem
    obtain ⟨l, hl, rfl⟩ := List.mem_map.mp hmem
    unfold AuthorityLease.expireAt at hs ⊢
    split_ifs at hs ⊢
    exact ⟨l, hl, rfl, rfl, rfl, rfl, hs⟩
  have hstep : (∃ l ∈ a.leases, LeaseStep k a op outcome nowMs l l') → (∀ target reason, op ≠ .requestFence k target reason) →
      ∃ l ∈ a.leases, l.id = l'.id ∧ l.holder = l'.holder ∧ l.mode = l'.mode ∧ l.expiresAtMs = l'.expiresAtMs ∧
        l.state = .fencing := by
    rintro ⟨l, hl, hls⟩ hop
    cases hls with
    | kept => exact ⟨_, hl, rfl, rfl, rfl, rfl, hs⟩
    | detached => exact ⟨_, hl, rfl, rfl, rfl, rfl, hs⟩
    | fenced reason hreq => exact absurd hreq (hop _ _)
    | extended _ _ _ _ _ hactive => exact absurd (hactive.symm.trans hs) (by decide)
    | reattested _ hactive => exact absurd (hactive.symm.trans hs) (by decide)
    | expired | acknowledged | revoked | advanced => cases hs
  have hback := h.backward hids.nodup hl'
  cases h with
  | refused => exact ⟨l', hl', rfl, rfl, rfl, rfl, hs⟩
  | flushed => exact hflushed hl'
  | bumped => exact hflushed hl'
  | expired => exact hflushed hl'
  | fenced => exact absurd rfl (hno _ _ rfl)
  | issued =>
    rcases hback with hback | hout
    · exact hstep hback (by simp)
    · cases hout
      cases hs
  | extended | renewed | reacknowledged | acknowledged | revoked | reattested | advanced | detached =>
    exact hstep (hback.resolve_right (by simp)) (by simp)

theorem ShardStep.accounts (hids : a.IdsAscend) (hle : nowMs ≤ slotNowMs) (ha : a.Accounts nowMs)
    (h : ShardStep k nowMs slotNowMs token a op outcome a') : a'.Accounts slotNowMs := by
  have htrack := h.fencesTrack hids hle ha.track
  have hmarked : (∀ target reason, op = .requestFence k target reason → outcome ≠ .done) →
      ∀ l' ∈ a'.leases, l'.mode = .mutating → l'.effectiveState slotNowMs = .fencing →
        ∃ fence ∈ a.fences, fence.fencedLease = l'.id ∧ fence.target = l'.holder := by
    intro hno l' hl' hmode hfencing
    obtain ⟨hstate, hlive⟩ := effectiveState_eq_fencing.mp hfencing
    obtain ⟨l, hl, hid, hholder, hm, hexp, hs⟩ := h.fencing_backward hids hno hl' hstate
    rw [← hid, ← hholder]
    exact ha.marked l hl (hm.trans hmode) (effectiveState_eq_fencing.mpr ⟨hs, by omega⟩)
  have hstep := h
  cases h with
  | fenced target reason pre post lease _ nextFenceId hfresh hleases hholder hmode hactive _ hid =>
    have hnext : nextFenceId = a.nextFenceId + 1 := eq_succ_of_nextId hid
    obtain ⟨hl, hlive⟩ := ShardAuthority.mem_of_flushed_active hleases hactive
    refine ⟨htrack, ?_, fun f hf => ?_, fun f hf g hg hf₀ hg₀ htarget => ?_, fun l' hl' hm hfencing => ?_⟩
    · refine List.Nodup.sublist ((pushBounded_sublist _ _ _).map _) ?_
      rw [List.map_append]
      refine List.nodup_append.mpr ⟨ha.ids, by simp, fun i hi j hj => ?_⟩
      obtain ⟨g, hg, rfl⟩ := List.mem_map.mp hi
      simp only [List.map_cons, List.map_nil, List.mem_singleton] at hj
      exact Nat.ne_of_lt (hj ▸ ha.below g hg)
    · rcases mem_of_mem_pushBounded hf with hold | rfl
      · have := ha.below f hold
        dsimp only
        omega
      · dsimp only
        omega
    · -- The record that is added finds none outstanding for its target.
      rcases mem_of_mem_pushBounded hf with hold | rfl
      · rcases mem_of_mem_pushBounded hg with hold' | rfl
        · exact ha.single f hold g hold' hf₀ hg₀ htarget
        · exact absurd ((hfresh f hold htarget).symm.trans hf₀) (by decide)
      · rcases mem_of_mem_pushBounded hg with hold' | rfl
        · exact absurd ((hfresh g hold' htarget.symm).symm.trans hg₀) (by decide)
        · rfl
    · -- The lease in the slot was the one that is now being fenced.
      refine ⟨_, mem_pushBounded_self (by decide) _ _, ?_⟩
      have hback := (hstep.backward hids.nodup hl').resolve_right (by simp)
      obtain ⟨l, hmem, hs⟩ := hback
      have hblocks := blocksMutationSlot_iff.mpr ⟨hm, .inr hfencing⟩
      have hsame := ha.track.slot l hmem lease hl (hs.blocks_of_blocks (blocksMutationSlot_anti hle hblocks))
        (blocksMutationSlot_iff_stored.mpr ⟨hmode, .inl hactive, hlive⟩)
      rw [hsame] at hs
      exact ⟨hs.id_eq.symm, hholder.symm.trans hs.holder_eq.symm⟩
  | acknowledged holder pre post fence hfences =>
    have hmap : ∀ {β : Type} (f : FenceRecord → β), f { fence with acknowledged := true, acknowledgedAtMs := nowMs } = f fence →
        (pre ++ { fence with acknowledged := true, acknowledgedAtMs := nowMs } :: post).map f = a.fences.map f := by
      intro β f hf
      rw [hfences, List.map_append, List.map_append, List.map_cons, List.map_cons, hf]
    refine ⟨htrack, ?_, fun f hf => ?_, fun f hf g hg hf₀ hg₀ htarget => ?_, fun l' hl' hm hfencing => ?_⟩
    · rw [hmap _ rfl]
      exact ha.ids
    · have hid : f.id ∈ a.fences.map (·.id) := by
        rw [← hmap _ rfl]
        exact List.mem_map_of_mem hf
      obtain ⟨g, hg, heq⟩ := List.mem_map.mp hid
      exact heq ▸ ha.below g hg
    · refine ha.single f ?_ g ?_ hf₀ hg₀ htarget <;> rw [hfences]
      · exact mem_of_unacknowledged hf hf₀
      · exact mem_of_unacknowledged hg hg₀
    · obtain ⟨f, hf, hid, htarget⟩ := hmarked (by simp) l' hl' hm hfencing
      have hpair : (f.fencedLease, f.target) ∈ a.fences.map fun f => (f.fencedLease, f.target) := List.mem_map_of_mem hf
      rw [← hmap _ rfl] at hpair
      obtain ⟨g, hg, heq⟩ := List.mem_map.mp hpair
      obtain ⟨hlease, htarget'⟩ := Prod.mk.inj heq
      exact ⟨g, hg, hlease.trans hid, htarget'.trans htarget⟩
  | _ => exact ⟨htrack, ha.ids, ha.below, ha.single, hmarked (by simp)⟩

/-- A guard lasts while no incarnation with a fence outstanding is granted a lease. -/
theorem ShardStep.guards (hids : a.IdsAscend) (hle : nowMs ≤ slotNowMs) (ha : a.Accounts nowMs)
    (h : ShardStep k nowMs slotNowMs token a op outcome a')
    (hgrant : ∀ request, op = .grant request → request.mode = .mutating → request.holder.component = component →
      a.Unfenced request.holder)
    (hg : a.Guards component nowMs) : a'.Guards component slotNowMs := by
  intro fence hf hack hcomponent
  rcases h.outstanding_backward hf hack with hold | ⟨⟨reason, hop⟩, -, lease, hlease, hid, -, hmode, hactive⟩
  · refine h.inactive hids hle (fun request hop hmode hholder => ?_) (hg fence hold hack hcomponent)
    have hunfenced := hgrant request hop hmode (by rw [hholder]; exact hcomponent)
    exact Bool.false_ne_true (hack.symm.trans (hunfenced fence hold hholder.symm))
  · -- The lease in the slot is being fenced now, and it was the only one.
    have ha' := h.accounts hids hle ha
    intro l' hl' hmode' hholder' hactive'
    have hbars := ((ha'.track.tracks fence hf).bars ha'.track.slot).upTo l' hl' hmode' hactive'
    rcases h.backward hids.nodup hl' with ⟨l, hl, hs⟩ | hout
    · have hblocks := blocksMutationSlot_iff.mpr ⟨hmode', .inl hactive'⟩
      have hsame := ha.track.slot l hl lease hlease (hs.blocks_of_blocks (blocksMutationSlot_anti hle hblocks))
        (blocksMutationSlot_iff.mpr ⟨hmode, .inl hactive⟩)
      have := hs.id_eq
      rw [hsame] at this
      omega
    · subst hout
      cases h with
      | issued => cases hop

/-- An incarnation out of the slot stays out unless it is granted a lease. -/
theorem ShardStep.released (hids : a.IdsAscend) (hle : nowMs ≤ slotNowMs) (ha : a.Accounts nowMs)
    (h : ShardStep k nowMs slotNowMs token a op outcome a')
    (hgrant : ∀ request, op = .grant request → request.mode = .mutating → request.holder ≠ holder)
    (hr : a.Released holder nowMs) : a'.Released holder slotNowMs := by
  refine (h.accounts hids hle ha).released (fun fence hf htarget => ?_) (h.inactive hids hle hgrant hr.inactive)
  by_contra hack
  rcases h.outstanding_backward hf (Bool.not_eq_true _ ▸ hack) with hold | ⟨-, -, l, hl, -, hholder, hmode, hactive⟩
  · exact hack (hr.unfenced fence hold htarget)
  · exact (hr.free l hl hmode (hholder.trans htarget)).1 hactive

/-! ## Acknowledgements -/

/-- After an acknowledgement what is outstanding was so before, under another id. -/
theorem ShardStep.outstanding_acknowledged {target : IncarnationId} {id : Nat} (hids : (a.fences.map (·.id)).Nodup)
    (h : ShardStep k nowMs slotNowMs token a (.acknowledgeFence k target id) outcome a')
    (hdone : ∀ refusal, outcome ≠ .refused refusal) {fence : FenceRecord}
    (hf : fence ∈ a'.fences) (hack : fence.acknowledged = false) : fence ∈ a.fences ∧ fence.id ≠ id := by
  generalize hop : RegistryOp.acknowledgeFence k target id = op at h
  cases h with
  | refused _ refusal => exact absurd rfl (hdone refusal)
  | flushed _ refusal => exact absurd rfl (hdone refusal)
  | reacknowledged holder acknowledged hmem _ hack' =>
    cases hop
    refine ⟨hf, fun hid => ?_⟩
    obtain rfl := List.inj_on_of_nodup_map hids hf hmem hid
    exact Bool.false_ne_true (hack.symm.trans hack')
  | acknowledged holder pre post acknowledged hfences =>
    cases hop
    have hold := mem_of_unacknowledged hf hack
    rw [← hfences] at hold
    refine ⟨hold, fun hid => ?_⟩
    -- The record is one of those beside the acknowledged one.
    have hbeside : fence ∈ pre ∨ fence ∈ post := by
      rcases List.mem_append.mp hf with hpre | hpost
      · exact .inl hpre
      · rcases List.mem_cons.mp hpost with rfl | hpost
        · cases hack
        · exact .inr hpost
    rw [hfences, List.map_append, List.map_cons] at hids
    obtain ⟨-, hpost, hdisjoint⟩ := List.nodup_append.mp hids
    rcases hbeside with hpre | hmem
    · exact hdisjoint _ (List.mem_map_of_mem hpre) _ List.mem_cons_self hid
    · exact (List.nodup_cons.mp hpost).1 (hid ▸ List.mem_map_of_mem hmem)
  | _ => cases hop

end

end FabricEvolution
