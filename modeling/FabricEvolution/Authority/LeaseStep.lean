import FabricEvolution.Authority.Step

/-!
# What one registry operation can do to a lease

* `AuthorityLease.terms` : the part of a lease fixed when it is minted;
* `LeaseStep` : every change an operation can make to a lease that stays in the list;
* `ShardStep.leases` : the leases of a shard change pointwise by `LeaseStep`, and then one may be pushed;
* `ShardStep.forward`, `ShardStep.backward` : the same, lease by lease;
* `ShardStep.axis` : how epoch and generation move.
-/

namespace FabricEvolution
open Lib

/-- The part of a lease fixed when it is minted (the rest is blanked). -/
def AuthorityLease.terms (lease : AuthorityLease) : AuthorityLease :=
  { lease with state := .active, expiresAtMs := 0, attested := false, attestationSeq := 0, reason := "" }

/-- What `op` on shard `k` can do to the lease `l` of its authority `a`. -/
inductive LeaseStep (k : ShardId) (a : ShardAuthority) (op : RegistryOp) (outcome : RegistryOutcome) (nowMs : Nat)
    (l : AuthorityLease) : AuthorityLease → Prop
  | kept : LeaseStep k a op outcome nowMs l l
  | expired (hstate : l.state = .active ∨ l.state = .fencing) (hdue : l.expiresAtMs ≤ nowMs) :
      LeaseStep k a op outcome nowMs l { l with state := .expired }
  | extended (expiresAtMs attestationSeq : Nat) (attested : Bool) (reason : String)
      (hop : (∃ request, op = .grant request ∧
          outcome = .renewed { l with expiresAtMs, attestationSeq, attested, reason }) ∨
        ∃ ttlMs, op = .renew k l.id ttlMs ∧ outcome = .done ∧ expiresAtMs = wrapAdd nowMs ttlMs)
      (hactive : l.state = .active) (hlive : nowMs < l.expiresAtMs) (hattested : l.attested = true → attested = true) :
      LeaseStep k a op outcome nowMs l { l with expiresAtMs, attestationSeq, attested, reason }
  | fenced (reason : String) (hop : op = .requestFence k l.holder reason) (hmode : l.mode = .mutating)
      (hactive : l.state = .active) (hlive : nowMs < l.expiresAtMs) :
      LeaseStep k a op outcome nowMs l { l with state := .fencing }
  | acknowledged (holder : IncarnationId) (fence : FenceRecord) (hop : op = .acknowledgeFence k holder fence.id)
      (hout : outcome = .done) (hfind : a.fences.find? (·.id = fence.id) = some fence)
      (hfenced : fence.fencedLease = l.id) (hfencing : l.state = .fencing) : LeaseStep k a op outcome nowMs l { l with state := .fenced }
  | revoked (reason : String) (hop : op = .revoke k l.id reason) (hout : outcome = .done) :
      LeaseStep k a op outcome nowMs l { l with state := .revoked, reason := reason }
  | reattested (hop : op = .reattest k l.holder l.token) (hactive : l.state = .active)
      (hlive : nowMs < l.expiresAtMs) (attestationSeq : Nat) :
      LeaseStep k a op outcome nowMs l { l with attested := true, attestationSeq }
  | advanced (epoch : Nat) (hop : op = .advanceEpoch k epoch) (hout : outcome = .done) (reason : String)
      (hstate : l.state = .active ∨ l.state = .fencing) :
      LeaseStep k a op outcome nowMs l { l with state := .revoked, reason := reason }
  | detached (hop : op = .reload) : LeaseStep k a op outcome nowMs l l.detach

namespace LeaseStep
variable {k : ShardId} {a : ShardAuthority} {op : RegistryOp} {outcome : RegistryOutcome} {nowMs t : Nat}
  {l l' : AuthorityLease}

theorem terms_eq (h : LeaseStep k a op outcome nowMs l l') : l'.terms = l.terms := by
  cases h <;> rfl

theorem id_eq (h : LeaseStep k a op outcome nowMs l l') : l'.id = l.id :=
  show l'.terms.id = l.terms.id from congrArg _ h.terms_eq

theorem mode_eq (h : LeaseStep k a op outcome nowMs l l') : l'.mode = l.mode :=
  show l'.terms.mode = l.terms.mode from congrArg _ h.terms_eq

theorem holder_eq (h : LeaseStep k a op outcome nowMs l l') : l'.holder = l.holder :=
  show l'.terms.holder = l.terms.holder from congrArg _ h.terms_eq

theorem token_eq (h : LeaseStep k a op outcome nowMs l l') : l'.token = l.token :=
  show l'.terms.token = l.terms.token from congrArg _ h.terms_eq

theorem expireAt (l : AuthorityLease) :
    LeaseStep k a op outcome nowMs l (l.expireAt nowMs) := by
  unfold AuthorityLease.expireAt
  split_ifs with h
  · exact .expired h.1 h.2
  · exact .kept

/-- No operation brings a lease back: live after it (at `nowMs`) means live before it. -/
theorem live_of_live (h : LeaseStep k a op outcome nowMs l l') (hs : l'.state = .active ∨ l'.state = .fencing)
    (hlive : nowMs < l'.expiresAtMs) :
    (l.state = .active ∨ l.state = .fencing) ∧ nowMs < l.expiresAtMs := by
  cases h with
  | kept => exact ⟨hs, hlive⟩
  | extended _ _ _ _ _ hactive hl => exact ⟨.inl hactive, hl⟩
  | fenced _ _ _ hactive hl => exact ⟨.inl hactive, hl⟩
  | reattested _ hactive hl => exact ⟨.inl hactive, hl⟩
  | detached => exact ⟨hs, hlive⟩
  | expired | acknowledged | revoked | advanced => simp at hs

/-- Nor does it make a lease active again. -/
theorem active_of_active (h : LeaseStep k a op outcome nowMs l l') (hs : l'.state = .active)
    (hlive : nowMs < l'.expiresAtMs) : l.state = .active ∧ nowMs < l.expiresAtMs := by
  cases h with
  | kept => exact ⟨hs, hlive⟩
  | extended _ _ _ _ _ hactive hl => exact ⟨hactive, hl⟩
  | reattested _ hactive hl => exact ⟨hactive, hl⟩
  | detached => exact ⟨hs, hlive⟩
  | expired | fenced | acknowledged | revoked | advanced => simp at hs

end LeaseStep

/-! ## The leases of a shard -/

theorem AuthorityLease.expireAt_id (lease : AuthorityLease) (nowMs : Nat) : (lease.expireAt nowMs).id = lease.id := by
  unfold expireAt
  split_ifs <;> rfl

theorem ShardAuthority.expireInPlace_ids (a : ShardAuthority) (nowMs : Nat) :
    (a.expireInPlace nowMs).leases.map (·.id) = a.leases.map (·.id) := by
  unfold expireInPlace
  rw [List.map_map]
  exact List.map_congr_left fun lease _ => lease.expireAt_id nowMs

theorem AuthorityLease.expireAt_eq_of_live {lease : AuthorityLease} {nowMs : Nat}
    (h : (lease.expireAt nowMs).state = .active) :
    lease.expireAt nowMs = lease ∧ lease.state = .active ∧ nowMs < lease.expiresAtMs := by
  unfold expireAt at h ⊢
  split_ifs at h ⊢ with hc
  exact ⟨rfl, h, by by_contra hge; exact hc ⟨.inl h, by omega⟩⟩

/-- A lease active after the flush is one the flush left alone. -/
theorem ShardAuthority.mem_of_flushed_active {a : ShardAuthority} {nowMs : Nat} {pre post : List AuthorityLease}
    {lease : AuthorityLease} (hleases : (a.expireInPlace nowMs).leases = pre ++ lease :: post)
    (hactive : lease.state = .active) : lease ∈ a.leases ∧ nowMs < lease.expiresAtMs := by
  have hmem : lease ∈ a.leases.map (·.expireAt nowMs) := by
    rw [show a.leases.map (·.expireAt nowMs) = _ from hleases]
    exact List.mem_append_right _ List.mem_cons_self
  obtain ⟨l, hl, rfl⟩ := List.mem_map.mp hmem
  obtain ⟨heq, -, hlive⟩ := AuthorityLease.expireAt_eq_of_live hactive
  rw [heq]
  exact ⟨hl, hlive⟩

namespace ShardStep
variable {k : ShardId} {nowMs slotNowMs : Nat} {token : AuthorityToken} {a a' : ShardAuthority}
  {op : RegistryOp} {outcome : RegistryOutcome}

/-- The flush, and then one active lease changed. -/
theorem replaced {pre post : List AuthorityLease} {lease lease' : AuthorityLease}
    (hl : (a.expireInPlace nowMs).leases = pre ++ lease :: post) (hactive : lease.state = .active)
    (hstep : lease.state = .active → nowMs < lease.expiresAtMs → LeaseStep k a op outcome nowMs lease lease') :
    Pointwise (LeaseStep k a op outcome nowMs) a.leases (pre ++ lease' :: post) := by
  refine Pointwise.replace hl (fun z _ => .expireAt z) fun z _ hz => ?_
  subst hz
  obtain ⟨he, hs, ht⟩ := AuthorityLease.expireAt_eq_of_live hactive
  rw [he] at hstep
  exact hstep hs ht

theorem pointwise_flush : Pointwise (LeaseStep k a op outcome nowMs) a.leases (a.expireInPlace nowMs).leases :=
  Pointwise.map _ fun l _ => .expireAt l

/-- The lease a grant extends is the incumbent, as ids are unique. -/
theorem incumbent_eq {leases pre post : List AuthorityLease} {lease incumbent : AuthorityLease}
    (hids : (leases.map (·.id)).Nodup) (hl : leases = pre ++ lease :: post) (hmem : incumbent ∈ leases)
    (hid : lease.id = incumbent.id) : lease = incumbent := by
  have hlease : lease ∈ leases := by rw [hl]; simp
  exact List.inj_on_of_nodup_map hids hlease hmem hid

/-- The leases change pointwise, or a newly issued one is pushed and the oldest may go. -/
theorem leases (hids : (a.leases.map (·.id)).Nodup) (h : ShardStep k nowMs slotNowMs token a op outcome a') :
    Pointwise (LeaseStep k a op outcome nowMs) a.leases a'.leases ∧ a'.nextLeaseId = a.nextLeaseId ∧
        (∀ lease, outcome ≠ .issued lease) ∨
      ∃ request lease, op = .grant request ∧ outcome = .issued lease ∧ lease.id = a.nextLeaseId ∧
        lease.token = token ∧ a'.nextLeaseId = a.nextLeaseId + 1 ∧
        a'.leases = pushBounded maxLeaseHistoryPerShard (a.expireInPlace nowMs).leases lease := by
  have hkept : Pointwise (LeaseStep k a op outcome nowMs) a.leases a.leases := Pointwise.refl (fun _ => .kept) _
  cases h with
  | refused => exact .inl ⟨hkept, rfl, by simp⟩
  | flushed => exact .inl ⟨pointwise_flush, rfl, by simp⟩
  | bumped => exact .inl ⟨pointwise_flush, rfl, by simp⟩
  | extended request pre post lease incumbent _ hl hmem hid _ _ hactive =>
    have hids' : ((a.expireInPlace nowMs).leases.map (·.id)).Nodup := by
      rw [ShardAuthority.expireInPlace_ids]
      exact hids
    have hlease := incumbent_eq hids' hl hmem hid
    have hstate : lease.state = .active := (AuthorityLease.effectiveState_eq_active.mp (hlease ▸ hactive)).1
    exact .inl ⟨replaced hl hstate fun hs ht =>
      .extended _ _ _ _ (.inl ⟨request, rfl, rfl⟩) hs ht fun _ => rfl, rfl, by simp⟩
  | issued request => exact .inr ⟨request, _, rfl, rfl, rfl, rfl, rfl, rfl⟩
  | renewed leaseId ttlMs pre post lease hl hid hactive =>
    subst hid
    exact .inl ⟨replaced hl hactive fun hs ht =>
      .extended _ _ _ _ (.inr ⟨ttlMs, rfl, rfl, rfl⟩) hs ht id, rfl, by simp⟩
  | fenced target reason pre post lease _ _ _ hl hholder hmode hactive =>
    subst hholder
    exact .inl ⟨replaced hl hactive fun hs ht => .fenced reason rfl hmode hs ht, rfl, by simp⟩
  | reacknowledged => exact .inl ⟨hkept, rfl, by simp⟩
  | acknowledged holder pre post fence _ hfind =>
    refine .inl ⟨Pointwise.map _ fun l _ => ?_, rfl, by simp⟩
    split_ifs with hc
    · exact .acknowledged holder fence rfl rfl hfind hc.1.symm hc.2
    · exact .kept
  | revoked reason pre post lease hl =>
    refine .inl ⟨Pointwise.replace (f := id) (by rw [List.map_id]; exact hl) (fun z _ => .kept)
      fun z _ hz => ?_, rfl, by simp⟩
    have hz' : z = lease := hz
    subst hz'
    exact .revoked reason rfl rfl
  | expired => exact .inl ⟨pointwise_flush, rfl, by simp⟩
  | reattested holder presented pre post lease hl hholder htoken hactive =>
    subst hholder; subst htoken
    exact .inl ⟨replaced hl hactive fun hs ht => .reattested rfl hs ht _, rfl, by simp⟩
  | advanced epoch =>
    refine .inl ⟨Pointwise.map _ fun l _ => ?_, rfl, by simp⟩
    split_ifs with hc
    · exact .advanced epoch rfl rfl _ hc
    · exact .kept
  | detached => exact .inl ⟨Pointwise.map _ fun l _ => .detached rfl, rfl, by simp⟩

/-- Every lease after the step was there before it, or has just been issued. -/
theorem backward (hids : (a.leases.map (·.id)).Nodup) (h : ShardStep k nowMs slotNowMs token a op outcome a')
    {l' : AuthorityLease} (hl' : l' ∈ a'.leases) :
    (∃ l ∈ a.leases, LeaseStep k a op outcome nowMs l l') ∨ outcome = .issued l' := by
  rcases h.leases hids with ⟨hp, -, -⟩ | ⟨request, lease, -, hout, -, -, -, hl⟩
  · exact .inl (hp.exists_left hl')
  · rw [hl] at hl'
    rcases mem_of_mem_pushBounded hl' with hmem | rfl
    · exact .inl (pointwise_flush.exists_left hmem)
    · exact .inr hout

/-- Every lease before the step is still there, unless it was the oldest of a full list. -/
theorem forward (hids : (a.leases.map (·.id)).Nodup) (h : ShardStep k nowMs slotNowMs token a op outcome a')
    {l : AuthorityLease} (hl : l ∈ a.leases) :
    (∃ l' ∈ a'.leases, LeaseStep k a op outcome nowMs l l') ∨
      (∃ lease, outcome = .issued lease) ∧ maxLeaseHistoryPerShard ≤ a.leases.length ∧
        a.leases.head? = some l := by
  rcases h.leases hids with ⟨hp, -, -⟩ | ⟨request, lease, -, hout, -, -, -, hleases⟩
  · exact .inl (hp.exists_right hl)
  · have hmem : l.expireAt nowMs ∈ (a.expireInPlace nowMs).leases := List.mem_map_of_mem hl
    have hlen : (a.expireInPlace nowMs).leases.length = a.leases.length := List.length_map _
    by_cases hkeep : (a.expireInPlace nowMs).leases.length < maxLeaseHistoryPerShard ∨
        (a.expireInPlace nowMs).leases.head? ≠ some (l.expireAt nowMs)
    · rw [hleases]
      exact .inl ⟨_, mem_pushBounded_of_mem hmem hkeep, .expireAt l⟩
    · obtain ⟨hfull, hhead⟩ := not_or.mp hkeep
      refine .inr ⟨⟨lease, hout⟩, by omega, ?_⟩
      have hhead' : (a.leases.map (·.expireAt nowMs)).head? = some (l.expireAt nowMs) := not_not.mp hhead
      rw [List.head?_map, Option.map_eq_some_iff] at hhead'
      obtain ⟨x, hx, hxl⟩ := hhead'
      have hxid : x.id = l.id := by
        rw [← x.expireAt_id nowMs, hxl, l.expireAt_id nowMs]
      rw [hx, List.inj_on_of_nodup_map hids (List.mem_of_mem_head? hx) hl hxid]

/-! ## Epoch and generation -/

/-- Epoch and generation never go back, and every lease that moves them on is minted under the new pair. -/
theorem axis_le (h : ShardStep k nowMs slotNowMs token a op outcome a') :
    a.epoch < a'.epoch ∨ a.epoch = a'.epoch ∧ a.generation ≤ a'.generation := by
  have hgen : ∀ {mode generation}, (a.expireInPlace nowMs).nextGeneration mode = some generation →
      a.generation ≤ generation := by
    intro mode generation hg
    unfold ShardAuthority.nextGeneration at hg
    split_ifs at hg
    · simp only [Option.some.injEq] at hg
      exact hg ▸ Nat.le_refl _
    · have := eq_succ_of_nextId hg
      have hflush : (a.expireInPlace nowMs).generation = a.generation := rfl
      omega
  cases h with
  | bumped _ _ _ _ _ hg => exact .inr ⟨rfl, hgen hg⟩
  | issued _ _ _ _ hg => exact .inr ⟨rfl, hgen hg⟩
  | fenced _ _ _ _ _ _ _ _ _ _ _ _ hg =>
    have := eq_succ_of_nextId hg
    exact .inr ⟨rfl, by dsimp only; omega⟩
  | advanced _ hepoch => exact .inl hepoch
  | _ => exact .inr ⟨rfl, Nat.le_refl _⟩

theorem shard_eq (h : ShardStep k nowMs slotNowMs token a op outcome a') : a'.shard = a.shard := by
  cases h <;> rfl

theorem nextLeaseId_le (h : ShardStep k nowMs slotNowMs token a op outcome a') :
    a.nextLeaseId ≤ a'.nextLeaseId := by
  cases h with
  | issued => exact Nat.le_succ _
  | _ => exact Nat.le_refl _

end ShardStep

end FabricEvolution
