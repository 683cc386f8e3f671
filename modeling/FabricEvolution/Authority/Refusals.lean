import FabricEvolution.Authority.Run

/-!
# Operations that are refused

* `UpToExpiry` : a lease, a shard, a registry as it was, but for leases that have run out;
* `upToExpiry_of_refused` : so is a shard after a refusal, a grant apart that moves the generation on;
* `ExhaustsLeaseIds` : such a grant; `upToExpiry_of_exec` : every other refusal leaves the registry as it was;
* `registry_atomic_iff` : an operation fails cleanly exactly if it is no such grant, and so does every load.
-/

namespace FabricEvolution
open Lib

/-- The lease is as it was, or it has run out and is marked so. -/
def AuthorityLease.UpToExpiry (nowMs : Nat) (lease lease' : AuthorityLease) : Prop :=
  lease' = lease ∨ lease.expiresAtMs ≤ nowMs ∧ lease' = { lease with state := .expired }

/-- Epoch, generation, id counters, leases and fences are as they were, but for leases that have run out. -/
structure ShardAuthority.UpToExpiry (nowMs : Nat) (a a' : ShardAuthority) : Prop where
  shard : a'.shard = a.shard
  epoch : a'.epoch = a.epoch
  generation : a'.generation = a.generation
  nextLeaseId : a'.nextLeaseId = a.nextLeaseId
  nextFenceId : a'.nextFenceId = a.nextFenceId
  fences : a'.fences = a.fences
  leases : Pointwise (AuthorityLease.UpToExpiry nowMs) a.leases a'.leases

/-- No shard comes or goes, and every shard is as it was up to expiry. -/
structure AuthorityRegistry.UpToExpiry (nowMs : Nat) (registry registry' : AuthorityRegistry) : Prop where
  nextLeaseId : registry'.nextLeaseId = registry.nextLeaseId
  nextFenceId : registry'.nextFenceId = registry.nextFenceId
  shards : ∀ k, Option.Rel (ShardAuthority.UpToExpiry nowMs) (registry.find k) (registry'.find k)

namespace RegistryOp

/-- If the operation is refused, the registry is as it was up to expiry. -/
def FailsCleanly (op : RegistryOp) (registry : AuthorityRegistry) (nowMs slotNowMs : Nat) (token : AuthorityToken) : Prop :=
  ∀ refusal, (op.exec registry nowMs slotNowMs token).2 = .refused refusal →
    registry.UpToExpiry nowMs (op.exec registry nowMs slotNowMs token).1

/-- A grant that passes every check, and the one of the generation, on a shard whose lease ids are used up. -/
def ExhaustsLeaseIds (op : RegistryOp) (registry : AuthorityRegistry) (nowMs slotNowMs : Nat) : Prop :=
  ∃ request a, op = .grant request ∧ registry.find request.shard = some a ∧
    a.reachesIssue request nowMs slotNowMs = true ∧ request.mode ≠ .readOnlyShared ∧
    (nextId a.generation).isSome ∧ nextId a.nextLeaseId = none

end RegistryOp

/-! ## One shard -/

theorem AuthorityLease.upToExpiry_expireAt (nowMs : Nat) (lease : AuthorityLease) :
    lease.UpToExpiry nowMs (lease.expireAt nowMs) := by
  unfold AuthorityLease.expireAt
  split_ifs with hdue
  · exact .inr ⟨hdue.2, rfl⟩
  · exact .inl rfl

namespace ShardAuthority
variable {nowMs slotNowMs : Nat} {token : AuthorityToken} {k : ShardId} {a a' : ShardAuthority} {op : RegistryOp}
  {refusal : Status}

@[refl] theorem UpToExpiry.refl (nowMs : Nat) (a : ShardAuthority) : a.UpToExpiry nowMs a :=
  ⟨rfl, rfl, rfl, rfl, rfl, rfl, Pointwise.refl (fun _ => .inl rfl) a.leases⟩

theorem upToExpiry_expireInPlace (nowMs : Nat) (a : ShardAuthority) : a.UpToExpiry nowMs (a.expireInPlace nowMs) :=
  ⟨rfl, rfl, rfl, rfl, rfl, rfl, Pointwise.map _ fun lease _ => lease.upToExpiry_expireAt nowMs⟩

/-- A refusal leaves the shard as it was up to expiry; only a grant can have moved the generation on. -/
theorem upToExpiry_of_refused (h : ShardStep k nowMs slotNowMs token a op (.refused refusal) a')
    (hop : ∀ request, op ≠ .grant request) : a.UpToExpiry nowMs a' := by
  cases h with
  | refused => exact .refl nowMs a
  | flushed => exact upToExpiry_expireInPlace nowMs a
  | bumped request => exact absurd rfl (hop request)

/-- A grant that reaches its end ends in `issue`. -/
theorem grant_of_reachesIssue {request : GrantRequest} (token : AuthorityToken)
    (h : a.reachesIssue request nowMs slotNowMs = true) :
    a.grant request nowMs slotNowMs token = (a.expireInPlace nowMs).issue request nowMs token := by
  simp only [reachesIssue, Bool.and_eq_true, decide_eq_true_eq] at h
  obtain ⟨⟨⟨hholder, hzero⟩, hmax⟩, hslot⟩ := h
  unfold grant
  rw [if_neg (by rw [hholder]; decide), if_neg hzero, if_neg (Nat.not_lt.2 hmax)]
  dsimp only
  by_cases hmode : request.mode = .mutating
  · rw [if_pos hmode, Option.isNone_iff_eq_none] at hslot
    rw [if_pos hmode, hslot]
  · rw [if_neg hmode, Bool.and_eq_true, Option.isNone_iff_eq_none] at hslot
    rw [if_neg hmode, hslot.1]
    dsimp only
    have hroom : ¬ (request.mode = .readOnlyShared ∧
        (a.expireInPlace nowMs).activeReadOnly nowMs ≥ maxReadOnlyLeasesPerShard) := by
      have hfree := hslot.2
      rw [Bool.not_eq_true', Bool.and_eq_false_iff, decide_eq_false_iff_not, decide_eq_false_iff_not] at hfree
      exact not_and_or.2 hfree
    rw [if_neg hroom]

/-- The grant moves the generation on and then finds that no lease id is left. -/
theorem grant_exhausted {request : GrantRequest} (token : AuthorityToken)
    (hreach : a.reachesIssue request nowMs slotNowMs = true) (hmode : request.mode ≠ .readOnlyShared)
    (hgeneration : (nextId a.generation).isSome) (hid : nextId a.nextLeaseId = none) :
    (∃ refusal, (a.grant request nowMs slotNowMs token).2 = .refused refusal) ∧
      (a.grant request nowMs slotNowMs token).1.generation = a.generation + 1 := by
  obtain ⟨generation, hnext⟩ := Option.isSome_iff_exists.1 hgeneration
  have hgen : (a.expireInPlace nowMs).nextGeneration request.mode = some generation := by
    rw [nextGeneration, if_neg hmode]
    exact hnext
  have hlease : nextId (a.expireInPlace nowMs).nextLeaseId = none := hid
  rw [grant_of_reachesIssue token hreach, issue, hgen]
  dsimp only
  rw [hlease]
  exact ⟨⟨_, rfl⟩, eq_succ_of_nextId hnext⟩

/-- A refused grant leaves the shard as it was up to expiry, if it does not find the lease ids exhausted. -/
theorem grant_refused {request : GrantRequest} (h : (a.grant request nowMs slotNowMs token).2 = .refused refusal)
    (hleft : ¬ (a.reachesIssue request nowMs slotNowMs = true ∧ request.mode ≠ .readOnlyShared ∧
      (nextId a.generation).isSome ∧ nextId a.nextLeaseId = none)) :
    a.UpToExpiry nowMs (a.grant request nowMs slotNowMs token).1 := by
  have hstep : ShardStep request.shard nowMs slotNowMs token a (.grant request) (.refused refusal)
      (a.grant request nowMs slotNowMs token).1 := by
    have hgrant : ShardStep request.shard nowMs slotNowMs token a (.grant request)
        (.ofGrant (a.grant request nowMs slotNowMs token).2) (a.grant request nowMs slotNowMs token).1 := grant_step rfl
    rwa [h] at hgrant
  by_cases hreach : a.reachesIssue request nowMs slotNowMs = true
  · rw [grant_of_reachesIssue token hreach] at h ⊢
    unfold issue at h ⊢
    cases hgen : (a.expireInPlace nowMs).nextGeneration request.mode with
    | none => exact upToExpiry_expireInPlace nowMs a
    | some generation =>
      rw [hgen] at h
      dsimp only at h ⊢
      cases hid : nextId (a.expireInPlace nowMs).nextLeaseId with
      | some nextLeaseId =>
        rw [hid] at h
        cases h
      | none =>
        dsimp only
        have hmode : request.mode = .readOnlyShared := by
          by_contra hmode
          rw [nextGeneration, if_neg hmode] at hgen
          exact hleft ⟨hreach, hmode, Option.isSome_iff_exists.2 ⟨generation, hgen⟩, hid⟩
        rw [nextGeneration, if_pos hmode] at hgen
        obtain rfl := Option.some.inj hgen
        exact upToExpiry_expireInPlace nowMs a
  · generalize (a.grant request nowMs slotNowMs token).1 = a' at hstep
    cases hstep with
    | refused => exact .refl nowMs a
    | flushed => exact upToExpiry_expireInPlace nowMs a
    | bumped _ _ _ _ hreached _ => exact absurd hreached hreach

end ShardAuthority

/-! ## The registry -/

namespace AuthorityRegistry
variable {nowMs : Nat} {registry : AuthorityRegistry} {shard : ShardId} {a a' : ShardAuthority} {refusal : Status}

@[refl] theorem UpToExpiry.refl (nowMs : Nat) (registry : AuthorityRegistry) : registry.UpToExpiry nowMs registry := by
  refine ⟨rfl, rfl, fun k => ?_⟩
  cases registry.find k with
  | none => exact .none
  | some a => exact .some (.refl nowMs a)

/-- One shard written back as it was up to expiry. -/
theorem upToExpiry_put (hfind : registry.find shard = some a) (h : a.UpToExpiry nowMs a') :
    registry.UpToExpiry nowMs (registry.put shard a') := by
  refine ⟨rfl, rfl, fun k => ?_⟩
  rw [find_put]
  by_cases hk : shard = k
  · rw [if_pos hk, ← hk, hfind]
    exact .some h
  · rw [if_neg hk]
    exact (UpToExpiry.refl nowMs registry).shards k

theorem upToExpiry_onShard (slotNowMs : Nat) (token : AuthorityToken) {op : RegistryOp}
    {f : ShardAuthority → ShardAuthority × Result Unit}
    (hstep : ∀ a, ShardStep shard nowMs slotNowMs token a op (.ofResult (f a).2) (f a).1) (hop : ∀ request, op ≠ .grant request)
    (h : RegistryOutcome.ofResult (registry.onShard shard f).2 = .refused refusal) :
    registry.UpToExpiry nowMs (registry.onShard shard f).1 := by
  unfold onShard at h ⊢
  cases hfind : registry.find shard with
  | none => exact .refl nowMs registry
  | some a =>
    rw [hfind] at h
    dsimp only at h ⊢
    cases hresult : (f a).2 with
    | ok u =>
      rw [hresult] at h
      cases h
    | error refusal' =>
      have hrefused := hstep a
      rw [hresult] at hrefused
      exact upToExpiry_put hfind (ShardAuthority.upToExpiry_of_refused hrefused hop)

end AuthorityRegistry

open AuthorityRegistry in
/-- A refused operation leaves the registry as it was up to expiry, if it is no grant that finds the lease ids exhausted. -/
theorem upToExpiry_of_exec {op : RegistryOp} {registry : AuthorityRegistry} {nowMs slotNowMs : Nat} {token : AuthorityToken}
    {refusal : Status} (h : (op.exec registry nowMs slotNowMs token).2 = .refused refusal)
    (hleft : ¬ op.ExhaustsLeaseIds registry nowMs slotNowMs) :
    registry.UpToExpiry nowMs (op.exec registry nowMs slotNowMs token).1 := by
  cases op with
  | establish shard epoch =>
    simp only [RegistryOp.exec, establish] at h ⊢
    split_ifs at h ⊢
    · exact .refl nowMs registry
    · exact .refl nowMs registry
    · cases hfind : registry.find shard with
      | none =>
        rw [hfind] at h
        cases h
      | some a => exact .refl nowMs registry
  | grant request =>
    simp only [RegistryOp.exec, grant] at h ⊢
    cases hfind : registry.find request.shard with
    | none => exact .refl nowMs registry
    | some a =>
      rw [hfind] at h
      dsimp only at h ⊢
      have hrefused : ∃ refusal, (a.grant request nowMs slotNowMs token).2 = .refused refusal := by
        cases hresult : (a.grant request nowMs slotNowMs token).2 with
        | refused refusal' => exact ⟨refusal', rfl⟩
        | renewed lease =>
          rw [hresult] at h
          cases h
        | issued lease =>
          rw [hresult] at h
          cases h
      obtain ⟨refusal', hrefused⟩ := hrefused
      refine upToExpiry_put hfind (ShardAuthority.grant_refused hrefused fun hexhausted => ?_)
      exact hleft ⟨request, a, rfl, hfind, hexhausted⟩
  | renew shard leaseId ttlMs =>
    exact upToExpiry_onShard slotNowMs token (fun _ => ShardAuthority.renew_step) (fun _ hop => by cases hop) h
  | requestFence shard target reason =>
    exact upToExpiry_onShard slotNowMs token (fun _ => ShardAuthority.requestFence_step) (fun _ hop => by cases hop) h
  | acknowledgeFence shard holder fenceId =>
    exact upToExpiry_onShard slotNowMs token (fun _ => ShardAuthority.acknowledgeFence_step) (fun _ hop => by cases hop) h
  | revoke shard leaseId reason =>
    exact upToExpiry_onShard slotNowMs token (fun _ => ShardAuthority.revoke_step) (fun _ hop => by cases hop) h
  | expireDue => cases h
  | reattest shard holder presented =>
    exact upToExpiry_onShard slotNowMs token (fun _ => ShardAuthority.reattest_step) (fun _ hop => by cases hop) h
  | advanceEpoch shard epoch =>
    exact upToExpiry_onShard slotNowMs token (fun _ => ShardAuthority.advanceEpoch_step) (fun _ hop => by cases hop) h
  | reload =>
    simp only [RegistryOp.exec, load] at h ⊢
    cases hread : registryFromJson registry.toJson with
    | error refusal' => exact .refl nowMs registry
    | ok restored =>
      rw [hread] at h
      cases h

/-- For every registry, operation, readings and token: a refusal leaves the registry as it was up to expiry exactly if the
operation is no grant that finds the lease ids exhausted; a failed load of anything leaves it as it was. -/
theorem registry_atomic_iff (op : RegistryOp) (registry : AuthorityRegistry) (nowMs slotNowMs : Nat) (token : AuthorityToken) :
    (op.FailsCleanly registry nowMs slotNowMs token ↔ ¬ op.ExhaustsLeaseIds registry nowMs slotNowMs) ∧
      ∀ value refusal, (registry.load value).2 = .error refusal → (registry.load value).1 = registry := by
  refine ⟨⟨?_, fun hleft refusal h => upToExpiry_of_exec h hleft⟩, fun value refusal h => ?_⟩
  · rintro hclean ⟨request, a, rfl, hfind, hreach, hmode, hgeneration, hid⟩
    obtain ⟨⟨refusal, hrefused⟩, hmoved⟩ := ShardAuthority.grant_exhausted token hreach hmode hgeneration hid
    have hexec : (RegistryOp.grant request).exec registry nowMs slotNowMs token =
        (registry.put request.shard (a.grant request nowMs slotNowMs token).1, .refused refusal) := by
      simp only [RegistryOp.exec, AuthorityRegistry.grant, hfind, hrefused, RegistryOutcome.ofGrant]
    have hsame := hclean refusal (congrArg Prod.snd hexec)
    have hshard := hsame.shards request.shard
    rw [hexec, hfind, AuthorityRegistry.find_put, if_pos rfl] at hshard
    cases hshard with
    | some h =>
      have hkept := h.generation
      rw [hmoved] at hkept
      exact absurd hkept (Nat.succ_ne_self a.generation)
  · unfold AuthorityRegistry.load at h ⊢
    cases hread : registryFromJson value with
    | error refusal' => rfl
    | ok restored =>
      rw [hread] at h
      cases h

namespace Sample

/-- A registry that a snapshot with the greatest lease id restores. -/
def usedUp : AuthorityRegistry :=
  { shards := SortedMap.empty.insert shard { shard := shard, epoch := 1, generation := 1, nextLeaseId := maxU64 } }

def lateGrant : RegistryOp := .grant { shard := shard, holder := incarnation 1 }

end Sample

open Sample in
/-- The grant is refused for want of a lease id, and the generation is 2. -/
theorem refused_grant_moves_generation : ¬ ∀ (op : RegistryOp) (registry : AuthorityRegistry) (nowMs slotNowMs : Nat)
    (token : AuthorityToken), op.FailsCleanly registry nowMs slotNowMs token := by
  intro hall
  have hsame := (hall lateGrant usedUp 1 1 (tokens 0) _ rfl).shards shard
  cases hsame with
  | some h => exact absurd h.generation (by decide +kernel)

end FabricEvolution
