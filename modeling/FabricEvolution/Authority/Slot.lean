import FabricEvolution.Authority.Run

/-!
# One mutating lease per shard

* `ShardAuthority.SlotUnique` : at most one lease occupies the mutation slot at a clock reading;
* `slotUnique` : it is an invariant of shards;
* `ShardAuthority.view_slotHolder`, `view_mutating` : the view reports exactly the lease the slot
  check finds;
* `single_mutation_slot` : both in every reachable state, at every later instant.
-/

namespace FabricEvolution
open Lib AuthorityLease

namespace ShardAuthority

/-- At most one lease occupies the mutation slot. -/
def SlotUnique (a : ShardAuthority) (t : Nat) : Prop :=
  ∀ l ∈ a.leases, ∀ l' ∈ a.leases, l.blocksMutationSlot t = true → l'.blocksMutationSlot t = true → l = l'

variable {a a' : ShardAuthority} {t t' : Nat}

theorem SlotUnique.later (h : a.SlotUnique t) (ht : t ≤ t') : a.SlotUnique t' := fun l hl l' hl' hb hb' =>
  h l hl l' hl' (blocksMutationSlot_anti ht hb) (blocksMutationSlot_anti ht hb')

end ShardAuthority

/-- A lease occupying the slot at `nowMs` after a step occupied it before. -/
theorem LeaseStep.blocks_of_blocks {k : ShardId} {a : ShardAuthority} {op : RegistryOp}
    {outcome : RegistryOutcome} {nowMs : Nat} {l l' : AuthorityLease} (h : LeaseStep k a op outcome nowMs l l') (hb : l'.blocksMutationSlot nowMs = true) :
    l.blocksMutationSlot nowMs = true := by
  rw [blocksMutationSlot_iff_stored] at hb ⊢
  obtain ⟨hmode, hstate, hlive⟩ := hb
  obtain ⟨hs, ht⟩ := h.live_of_live hstate hlive
  exact ⟨h.mode_eq ▸ hmode, hs, ht⟩

theorem ShardStep.slotUnique {k : ShardId} {nowMs slotNowMs : Nat} {token : AuthorityToken} {a a' : ShardAuthority}
    {op : RegistryOp} {outcome : RegistryOutcome} (hids : a.IdsAscend) (hle : nowMs ≤ slotNowMs)
    (hu : a.SlotUnique nowMs) (h : ShardStep k nowMs slotNowMs token a op outcome a') : a'.SlotUnique slotNowMs := by
  have hids' := h.idsAscend hids
  -- Two leases that were both there already come from one lease.
  have hold : ∀ {l₁ l₂ m₁ m₂ : AuthorityLease}, l₁ ∈ a.leases → l₂ ∈ a.leases → LeaseStep k a op outcome nowMs l₁ m₁ →
      LeaseStep k a op outcome nowMs l₂ m₂ → m₁.blocksMutationSlot slotNowMs = true →
      m₂.blocksMutationSlot slotNowMs = true → m₁.id = m₂.id := by
    intro l₁ l₂ m₁ m₂ hl₁ hl₂ hs₁ hs₂ hb₁ hb₂
    have hb₁' := hs₁.blocks_of_blocks (blocksMutationSlot_anti hle hb₁)
    have hb₂' := hs₂.blocks_of_blocks (blocksMutationSlot_anti hle hb₂)
    rw [hs₁.id_eq, hs₂.id_eq, hu l₁ hl₁ l₂ hl₂ hb₁' hb₂']
  -- A new mutating lease is issued only into a free slot.
  have hnew : ∀ {lease m : AuthorityLease}, outcome = .issued lease → lease.mode = .mutating → m ∈ a'.leases →
      m.blocksMutationSlot slotNowMs = true → m = lease := by
    intro lease m hout hmode hm hb
    cases h with
    | issued request generation _ hreach _ _ =>
      simp only [RegistryOutcome.issued.injEq] at hout
      have hmode' : request.mode = .mutating := by rw [← hmode, ← hout]; rfl
      rcases mem_of_mem_pushBounded hm with hmem | rfl
      · exact absurd hb (List.find?_eq_none.mp (ShardAuthority.slot_free_of_reachesIssue hreach hmode') m hmem)
      · exact hout
    | _ => simp at hout
  intro m₁ hm₁ m₂ hm₂ hb₁ hb₂
  rcases h.backward hids.nodup hm₁ with ⟨l₁, hl₁, hs₁⟩ | hout
  · rcases h.backward hids.nodup hm₂ with ⟨l₂, hl₂, hs₂⟩ | hout
    · exact hids'.eq_of_id hm₁ hm₂ (hold hl₁ hl₂ hs₁ hs₂ hb₁ hb₂)
    · exact hnew hout (blocksMutationSlot_iff.mp hb₂).1 hm₁ hb₁
  · exact (hnew hout (blocksMutationSlot_iff.mp hb₁).1 hm₂ hb₂).symm

theorem slotUnique (source : Nat → AuthorityToken) :
    ShardInvariant source fun clockMs _ _ a => a.SlotUnique clockMs where
  fresh _ _ _ _ _ _ := by simp [ShardAuthority.SlotUnique]
  later hle _ h := h.later hle
  step hids hle hle' h hstep := hstep.slotUnique hids hle' (h.later hle)

/-! ## The view -/

namespace ShardAuthority
variable {a : ShardAuthority} {t : Nat} (out : AuthorityView) {l : AuthorityLease} {leases : List AuthorityLease}

theorem viewLease_of_not_blocks (h : l.blocksMutationSlot t = false) :
    (viewLease t out l).slotHolder = out.slotHolder ∧ (viewLease t out l).mutating = out.mutating := by
  have hno := fun hc => Bool.false_ne_true (h.symm.trans (blocksMutationSlot_iff.mpr hc))
  unfold viewLease effectiveLease
  dsimp only
  split_ifs with h1 h2
  · exact (hno ⟨h1.1, .inl h1.2⟩).elim
  · exact (hno ⟨h2.1, .inr h2.2⟩).elim
  · exact ⟨rfl, rfl⟩
  · exact ⟨rfl, rfl⟩

theorem viewLease_of_blocks (h : l.blocksMutationSlot t = true) :
    (viewLease t out l).slotHolder = some (effectiveLease l t) ∧
      (viewLease t out l).mutating =
        if l.effectiveState t = .active then some (effectiveLease l t) else out.mutating := by
  obtain ⟨hmode, hstate⟩ := blocksMutationSlot_iff.mp h
  unfold viewLease
  rcases hstate with hs | hs <;> simp [effectiveLease, hmode, hs]

theorem foldl_viewLease_of_not_blocks (h : ∀ l ∈ leases, l.blocksMutationSlot t = false) :
    (leases.foldl (viewLease t) out).slotHolder = out.slotHolder ∧
      (leases.foldl (viewLease t) out).mutating = out.mutating := by
  induction leases generalizing out with
  | nil => exact ⟨rfl, rfl⟩
  | cons l leases ih =>
    obtain ⟨hs, hm⟩ := ih (viewLease t out l) fun l' hl' => h l' (List.mem_cons_of_mem _ hl')
    obtain ⟨hs', hm'⟩ := viewLease_of_not_blocks out (h l List.mem_cons_self)
    exact ⟨hs.trans hs', hm.trans hm'⟩

/-- With one lease in the slot, the view reports it. -/
theorem view_of_activeMutating (hnodup : a.leases.Nodup) (hu : a.SlotUnique t) (k : ShardId) :
    (a.view k t).slotHolder = (a.activeMutating t).map (effectiveLease · t) ∧
      (a.view k t).mutating =
        ((a.activeMutating t).filter (·.effectiveState t = .active)).map (effectiveLease · t) := by
  unfold view
  cases hfind : a.activeMutating t with
  | none =>
    have hno : ∀ l ∈ a.leases, l.blocksMutationSlot t = false := fun l hl => by
      simpa using List.find?_eq_none.mp hfind l hl
    exact foldl_viewLease_of_not_blocks _ hno
  | some l =>
    have hb : l.blocksMutationSlot t = true := by simpa using List.find?_some hfind
    obtain ⟨pre, post, hl⟩ := List.append_of_mem (List.mem_of_find?_eq_some hfind)
    have hmem : l ∈ a.leases := List.mem_of_find?_eq_some hfind
    rw [hl] at hnodup
    obtain ⟨-, hpost, hdisj⟩ := List.nodup_append.mp hnodup
    have hother : ∀ l' ∈ a.leases, l' ≠ l → l'.blocksMutationSlot t = false := by
      intro l' hl' hne
      by_contra hb'
      exact hne (hu l' hl' l hmem (by simpa using hb') hb)
    have hpre' : ∀ l' ∈ pre, l'.blocksMutationSlot t = false := fun l' hl' =>
      hother l' (by rw [hl]; simp [hl']) (hdisj l' hl' l List.mem_cons_self)
    have hpost' : ∀ l' ∈ post, l'.blocksMutationSlot t = false := fun l' hl' =>
      hother l' (by rw [hl]; simp [hl']) fun he => (List.nodup_cons.mp hpost).1 (he ▸ hl')
    simp only [hl, List.foldl_append, List.foldl_cons]
    obtain ⟨-, hm₁⟩ := foldl_viewLease_of_not_blocks ⟨k, a.epoch, a.generation, none, none, [], []⟩ hpre'
    obtain ⟨hs₂, hm₂⟩ := viewLease_of_blocks
      (pre.foldl (viewLease t) ⟨k, a.epoch, a.generation, none, none, [], []⟩) hb
    obtain ⟨hs₃, hm₃⟩ := foldl_viewLease_of_not_blocks
      (viewLease t (pre.foldl (viewLease t) ⟨k, a.epoch, a.generation, none, none, [], []⟩) l) hpost'
    refine ⟨hs₃.trans hs₂, hm₃.trans (hm₂.trans ?_)⟩
    by_cases hact : l.effectiveState t = .active
    · simp [Option.filter_some, hact]
    · simp [Option.filter_some, hact, hm₁]

/-- A lease is what the slot check finds exactly when it occupies the slot. -/
theorem activeMutating_eq_some_iff (hu : a.SlotUnique t) :
    a.activeMutating t = some l ↔ l ∈ a.leases ∧ l.blocksMutationSlot t = true := by
  unfold activeMutating
  constructor
  · exact fun h => ⟨List.mem_of_find?_eq_some h, by simpa using List.find?_some h⟩
  · rintro ⟨hl, hb⟩
    cases hfind : a.leases.find? (·.blocksMutationSlot t) with
    | none => exact absurd hb (List.find?_eq_none.mp hfind l hl)
    | some l' =>
      have hb' : l'.blocksMutationSlot t = true := by simpa using List.find?_some hfind
      rw [hu l' (List.mem_of_find?_eq_some hfind) l hl hb' hb]

end ShardAuthority

/-! ## Every reachable state -/

/-- In every reachable state and at every later instant a shard has at most one mutating lease that is
effectively active or fencing; it is the view's slot holder, and the view's mutating lease iff active. -/
theorem single_mutation_slot {source : Nat → AuthorityToken} {clockMs : Nat} {es : List RegistryEvent}
    {s : RegistryState} (h : Run (RegistryStep source) (.start clockMs) es s) {t : Nat} (ht : s.clockMs ≤ t)
    {k : ShardId} {a : ShardAuthority} (hfind : s.registry.find k = some a) :
    a.leases.countP (fun l => l.mode = .mutating &&
        (l.effectiveState t = .active || l.effectiveState t = .fencing)) ≤ 1 ∧
      ∃ v, s.registry.view k t = .ok v ∧
        (∀ x, v.slotHolder = some x ↔ ∃ l ∈ a.leases, l.mode = .mutating ∧
          (l.effectiveState t = .active ∨ l.effectiveState t = .fencing) ∧
          x = ShardAuthority.effectiveLease l t) ∧
        ∀ x, v.mutating = some x ↔ v.slotHolder = some x ∧ x.state = .active := by
  obtain ⟨hwf, hall⟩ := (slotUnique source).reachable h
  have hu : a.SlotUnique t := (hall k a hfind).later ht
  have hnodup : a.leases.Nodup := List.Nodup.of_map _ (hwf.ids k a hfind).nodup
  obtain ⟨hslot, hmut⟩ := ShardAuthority.view_of_activeMutating hnodup hu k
  refine ⟨?_, a.view k t, by rw [AuthorityRegistry.view, hfind], fun x => ?_, fun x => ?_⟩
  · refine countP_le_one hnodup fun l hl l' hl' hb hb' => hu l hl l' hl' ?_ ?_
    · exact blocksMutationSlot_iff.mpr (by simpa using hb)
    · exact blocksMutationSlot_iff.mpr (by simpa using hb')
  · rw [hslot, Option.map_eq_some_iff]
    constructor
    · rintro ⟨l, hl, rfl⟩
      obtain ⟨hmem, hb⟩ := (ShardAuthority.activeMutating_eq_some_iff hu).mp hl
      obtain ⟨hmode, hstate⟩ := blocksMutationSlot_iff.mp hb
      exact ⟨l, hmem, hmode, hstate, rfl⟩
    · rintro ⟨l, hmem, hmode, hstate, rfl⟩
      exact ⟨l, (ShardAuthority.activeMutating_eq_some_iff hu).mpr
        ⟨hmem, blocksMutationSlot_iff.mpr ⟨hmode, hstate⟩⟩, rfl⟩
  · rw [hslot, hmut]
    cases a.activeMutating t with
    | none => simp
    | some l =>
      by_cases hact : l.effectiveState t = .active
      · have hstate : (ShardAuthority.effectiveLease l t).state = .active := hact
        simp only [Option.filter_some, hact, decide_true, if_true, Option.map_some, Option.some.injEq]
        exact ⟨fun hx => ⟨hx, hx ▸ hstate⟩, And.left⟩
      · have hstate : (ShardAuthority.effectiveLease l t).state ≠ .active := hact
        simp only [Option.filter_some, hact, decide_false, Option.map_some, Option.some.injEq]
        constructor
        · simp
        · rintro ⟨rfl, hx⟩
          exact absurd hx hstate

theorem single_mutation_slot_sample :
    Sample.authority.leases.countP (fun l => l.mode = .mutating &&
        (l.effectiveState 7 = .active || l.effectiveState 7 = .fencing)) ≤ 1 ∧
      ∃ v, Sample.state.registry.view Sample.shard 7 = .ok v ∧
        ∀ x, v.mutating = some x ↔ v.slotHolder = some x ∧ x.state = .active := by
  obtain ⟨hcount, v, hv, -, hmut⟩ :=
    single_mutation_slot Sample.run_state (t := 7) (by decide) Sample.find_state
  exact ⟨hcount, v, hv, hmut⟩

end FabricEvolution
