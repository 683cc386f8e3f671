import FabricEvolution.Authority.Codec

/-!
# What one registry operation can do to a shard

* `RegistryOp` : the operations, `RegistryOp.exec` : one operation with its readings and the token it
  may mint;
* `ShardStep` : everything an operation can do to the authority of one shard, guards included;
* `exec_step` : the inversion lemma of `exec`, from which every invariant is derived;
* `LeaseStep` : the same for a single lease, `ShardStep.backward` and `ShardStep.forward`.
-/

namespace FabricEvolution
open Lib

/-! ## Operations -/

inductive RegistryOp where
  | establish (shard : ShardId) (epoch : Nat)
  | grant (request : GrantRequest)
  | renew (shard : ShardId) (leaseId ttlMs : Nat)
  | requestFence (shard : ShardId) (target : IncarnationId) (reason : String)
  | acknowledgeFence (shard : ShardId) (holder : IncarnationId) (fenceId : Nat)
  | revoke (shard : ShardId) (leaseId : Nat) (reason : String)
  | expireDue
  | reattest (shard : ShardId) (holder : IncarnationId) (token : AuthorityToken)
  | advanceEpoch (shard : ShardId) (epoch : Nat)
  /-- `load` of the registry's own `to_json`. -/
  | reload

/-- What an operation reports: a refusal, success, or the lease a grant extended or issued. -/
inductive RegistryOutcome where
  | refused (refusal : Status)
  | done
  | renewed (lease : AuthorityLease)
  | issued (lease : AuthorityLease)

def RegistryOutcome.ofResult : Result Unit → RegistryOutcome
  | .ok () => done
  | .error refusal => refused refusal

def RegistryOutcome.ofGrant : GrantOutcome → RegistryOutcome
  | .refused refusal => refused refusal
  | .renewed lease => renewed lease
  | .issued lease => issued lease

/-- One operation, with the clock readings it takes and the token it mints if it issues a lease. -/
def RegistryOp.exec (op : RegistryOp) (registry : AuthorityRegistry) (nowMs slotNowMs : Nat)
    (token : AuthorityToken) : AuthorityRegistry × RegistryOutcome :=
  let report (r : AuthorityRegistry × Result Unit) := (r.1, RegistryOutcome.ofResult r.2)
  match op with
  | establish shard epoch => report (registry.establish shard epoch)
  | grant request =>
    let r := registry.grant request nowMs slotNowMs token
    (r.1, .ofGrant r.2)
  | renew shard leaseId ttlMs => report (registry.renew shard leaseId ttlMs nowMs)
  | requestFence shard target reason => report (registry.requestFence shard target reason nowMs)
  | acknowledgeFence shard holder fenceId => report (registry.acknowledgeFence shard holder fenceId nowMs)
  | revoke shard leaseId reason => report (registry.revoke shard leaseId reason)
  | expireDue => report (registry.expireDue nowMs)
  | reattest shard holder token => report (registry.reattest shard holder token nowMs)
  | advanceEpoch shard epoch => report (registry.advanceEpoch shard epoch)
  | reload => report (registry.load registry.toJson)

/-! ## One shard -/

/-- Whether a grant passes every check before the one of the generation: it neither is refused nor finds a
lease to extend. -/
def ShardAuthority.reachesIssue (a : ShardAuthority) (request : GrantRequest) (nowMs slotNowMs : Nat) : Bool :=
  let flushed := a.expireInPlace nowMs
  request.holder.isValid && request.ttlMs ≠ 0 && request.ttlMs ≤ maxLeaseTtlMs &&
    if request.mode = .mutating then (flushed.activeMutating slotNowMs).isNone
    else (flushed.leases.find? (request.heldBy nowMs)).isNone &&
      !(request.mode = .readOnlyShared && maxReadOnlyLeasesPerShard ≤ flushed.activeReadOnly nowMs)

/-- What an operation on shard `k` can do to its authority `a`. -/
inductive ShardStep (k : ShardId) (nowMs slotNowMs : Nat) (token : AuthorityToken) (a : ShardAuthority) :
    RegistryOp → RegistryOutcome → ShardAuthority → Prop
  /-- Refused before anything changed. -/
  | refused (op : RegistryOp) (refusal : Status) : ShardStep k nowMs slotNowMs token a op (.refused refusal) a
  /-- Refused after the expired leases were flushed. -/
  | flushed (op : RegistryOp) (refusal : Status) :
      ShardStep k nowMs slotNowMs token a op (.refused refusal) (a.expireInPlace nowMs)
  /-- A grant that moved the generation on and then found the lease ids exhausted. -/
  | bumped (request : GrantRequest) (refusal : Status) (generation : Nat) (hshard : request.shard = k)
      (hreach : a.reachesIssue request nowMs slotNowMs = true)
      (hgen : (a.expireInPlace nowMs).nextGeneration request.mode = some generation) :
      ShardStep k nowMs slotNowMs token a (.grant request) (.refused refusal)
        { a.expireInPlace nowMs with generation := generation }
  /-- A grant to the incumbent of its mode: the lease found by the id of `incumbent` is extended. -/
  | extended (request : GrantRequest) (pre post : List AuthorityLease) (lease incumbent : AuthorityLease)
      (hshard : request.shard = k)
      (hleases : (a.expireInPlace nowMs).leases = pre ++ lease :: post)
      (hmem : incumbent ∈ (a.expireInPlace nowMs).leases) (hid : lease.id = incumbent.id)
      (hholder : incumbent.holder = request.holder) (hmode : incumbent.mode = request.mode)
      (hactive : incumbent.effectiveState nowMs = .active) :
      ShardStep k nowMs slotNowMs token a (.grant request) (.renewed (lease.renewedBy request nowMs))
        { a.expireInPlace nowMs with leases := pre ++ lease.renewedBy request nowMs :: post }
  /-- A grant that issued a new lease. -/
  | issued (request : GrantRequest) (generation : Nat) (hshard : request.shard = k)
      (hreach : a.reachesIssue request nowMs slotNowMs = true)
      (hgen : (a.expireInPlace nowMs).nextGeneration request.mode = some generation)
      (hid : nextId a.nextLeaseId = some (a.nextLeaseId + 1)) :
      ShardStep k nowMs slotNowMs token a (.grant request)
        (.issued ({ a.expireInPlace nowMs with generation := generation }.mint request nowMs token))
        { a.expireInPlace nowMs with
          generation := generation
          nextLeaseId := a.nextLeaseId + 1
          leases := pushBounded maxLeaseHistoryPerShard (a.expireInPlace nowMs).leases
            ({ a.expireInPlace nowMs with generation := generation }.mint request nowMs token) }
  | renewed (leaseId ttlMs : Nat) (pre post : List AuthorityLease) (lease : AuthorityLease)
      (hleases : (a.expireInPlace nowMs).leases = pre ++ lease :: post) (hid : lease.id = leaseId)
      (hactive : lease.state = .active) :
      ShardStep k nowMs slotNowMs token a (.renew k leaseId ttlMs) .done
        { a.expireInPlace nowMs with
          leases := pre ++ { lease with
            expiresAtMs := wrapAdd nowMs ttlMs
            attestationSeq := wrapAdd lease.attestationSeq 1 } :: post }
  | fenced (target : IncarnationId) (reason : String) (pre post : List AuthorityLease) (lease : AuthorityLease)
      (generation nextFenceId : Nat)
      (hfresh : ∀ fence ∈ a.fences, fence.target = target → fence.acknowledged = true)
      (hleases : (a.expireInPlace nowMs).leases = pre ++ lease :: post)
      (hholder : lease.holder = target) (hmode : lease.mode = .mutating) (hactive : lease.state = .active)
      (hgen : nextId a.generation = some generation) (hid : nextId a.nextFenceId = some nextFenceId) :
      ShardStep k nowMs slotNowMs token a (.requestFence k target reason) .done
        { a.expireInPlace nowMs with
          generation := generation
          nextFenceId := nextFenceId
          leases := pre ++ { lease with state := .fencing } :: post
          fences := pushBounded maxFenceHistoryPerShard a.fences
            { id := a.nextFenceId, shard := k, target := target, epoch := a.epoch, generation := generation,
              fencedLease := lease.id, issuedAtMs := nowMs, acknowledgedAtMs := 0, acknowledged := false,
              reason := reason } }
  /-- A repeated acknowledgement. -/
  | reacknowledged (holder : IncarnationId) (fence : FenceRecord) (hfence : fence ∈ a.fences)
      (hholder : fence.target = holder) (hack : fence.acknowledged = true) :
      ShardStep k nowMs slotNowMs token a (.acknowledgeFence k holder fence.id) .done a
  | acknowledged (holder : IncarnationId) (pre post : List FenceRecord) (fence : FenceRecord)
      (hfences : a.fences = pre ++ fence :: post) (hfind : a.fences.find? (·.id = fence.id) = some fence)
      (hholder : fence.target = holder) (hack : fence.acknowledged = false) :
      ShardStep k nowMs slotNowMs token a (.acknowledgeFence k holder fence.id) .done
        { a with
          fences := pre ++ { fence with acknowledged := true, acknowledgedAtMs := nowMs } :: post
          leases := a.leases.map fun lease =>
            if lease.id = fence.fencedLease ∧ lease.state = .fencing then { lease with state := .fenced }
            else lease }
  | revoked (reason : String) (pre post : List AuthorityLease) (lease : AuthorityLease)
      (hleases : a.leases = pre ++ lease :: post) :
      ShardStep k nowMs slotNowMs token a (.revoke k lease.id reason) .done
        { a with leases := pre ++ { lease with state := .revoked, reason := reason } :: post }
  | expired : ShardStep k nowMs slotNowMs token a .expireDue .done (a.expireInPlace nowMs)
  | reattested (holder : IncarnationId) (presented : AuthorityToken) (pre post : List AuthorityLease)
      (lease : AuthorityLease) (hleases : (a.expireInPlace nowMs).leases = pre ++ lease :: post)
      (hholder : lease.holder = holder) (htoken : lease.token = presented) (hactive : lease.state = .active) :
      ShardStep k nowMs slotNowMs token a (.reattest k holder presented) .done
        { a.expireInPlace nowMs with
          leases := pre ++ { lease with
            attested := true
            attestationSeq := wrapAdd lease.attestationSeq 1 } :: post }
  | advanced (epoch : Nat) (hepoch : a.epoch < epoch) :
      ShardStep k nowMs slotNowMs token a (.advanceEpoch k epoch) .done
        { a with
          epoch := epoch
          generation := 1
          leases := a.leases.map fun lease =>
            if lease.state = .active ∨ lease.state = .fencing then
              { lease with state := .revoked, reason := "revoked by epoch advance" }
            else lease }
  | detached : ShardStep k nowMs slotNowMs token a .reload .done a.detach

/-! ## The operations take these steps -/

namespace ShardAuthority
variable {a : ShardAuthority} {k : ShardId} {nowMs slotNowMs : Nat} {token : AuthorityToken}

@[simp] theorem expireInPlace_fences : (a.expireInPlace nowMs).fences = a.fences := rfl

/-- A grant of mutation authority reaches the issue of a new lease only when the slot is free. -/
theorem slot_free_of_reachesIssue {request : GrantRequest} (h : a.reachesIssue request nowMs slotNowMs = true)
    (hmode : request.mode = .mutating) : (a.expireInPlace nowMs).activeMutating slotNowMs = none := by
  unfold reachesIssue at h
  simpa [hmode] using (Bool.and_eq_true_iff.mp h).2

theorem holder_valid_of_reachesIssue {request : GrantRequest} (h : a.reachesIssue request nowMs slotNowMs = true) :
    request.holder.isValid = true := by
  simp only [reachesIssue, Bool.and_eq_true] at h
  exact h.1.1.1

theorem issue_step {request : GrantRequest} (hshard : request.shard = k)
    (hreach : a.reachesIssue request nowMs slotNowMs = true) :
    ShardStep k nowMs slotNowMs token a (.grant request)
      (.ofGrant ((a.expireInPlace nowMs).issue request nowMs token).2)
      ((a.expireInPlace nowMs).issue request nowMs token).1 := by
  unfold issue
  cases hgen : (a.expireInPlace nowMs).nextGeneration request.mode with
  | none => exact .flushed _ _
  | some generation =>
    cases hid : nextId (a.expireInPlace nowMs).nextLeaseId with
    | none => simpa only [hid] using .bumped request _ generation hshard hreach hgen
    | some nextLeaseId =>
      have hnext := eq_succ_of_nextId hid
      subst hnext
      simpa only [hid] using .issued request generation hshard hreach hgen hid

theorem grant_step {request : GrantRequest} (hshard : request.shard = k) :
    ShardStep k nowMs slotNowMs token a (.grant request)
      (.ofGrant (a.grant request nowMs slotNowMs token).2) (a.grant request nowMs slotNowMs token).1 := by
  unfold grant
  split_ifs with hholder hzero hmax hmode
  · exact .refused _ _
  · exact .refused _ _
  · exact .refused _ _
  · dsimp only
    cases hslot : (a.expireInPlace nowMs).activeMutating slotNowMs with
    | none => exact issue_step hshard (by simp_all [reachesIssue])
    | some blocker =>
      dsimp only
      split_ifs with hown
      · cases hfind : (a.expireInPlace nowMs).leases.find? fun lease => lease.id = blocker.id with
        | none => exact .flushed _ _
        | some lease =>
          have hblocker := List.mem_of_find?_eq_some hslot
          have hblocks := List.find?_some hslot
          obtain ⟨pre, post, hl, hm, hid, -⟩ := exists_modifyFirst hfind (·.renewedBy request nowMs)
          have hid' : lease.id = blocker.id := by simpa using hid
          have hmode' : blocker.mode = request.mode :=
            (AuthorityLease.blocksMutationSlot_iff.mp hblocks).1.trans hmode.symm
          rw [renewFirst, hm]
          exact .extended request pre post lease blocker hshard hl hblocker hid' hown.1 hmode' hown.2
      · exact .flushed _ _
  · dsimp only
    split
    · rename_i lease hfind
      obtain ⟨pre, post, hl, hm, hheld, -⟩ := exists_modifyFirst hfind (·.renewedBy request nowMs)
      have hheld' : (lease.holder = request.holder ∧ lease.mode = request.mode) ∧
          lease.effectiveState nowMs = .active := by simpa [GrantRequest.heldBy] using hheld
      rw [renewFirst, hm]
      exact .extended request pre post lease lease hshard hl (List.mem_of_find?_eq_some hfind) rfl hheld'.1.1
        hheld'.1.2 hheld'.2
    · rename_i hnone
      split_ifs with hlimit
      · exact .flushed _ _
      · refine issue_step hshard ?_
        simp_all [reachesIssue]
        exact Decidable.not_or_of_imp hlimit

theorem renew_step {leaseId ttlMs : Nat} :
    ShardStep k nowMs slotNowMs token a (.renew k leaseId ttlMs)
      (.ofResult (a.renew leaseId ttlMs nowMs).2) (a.renew leaseId ttlMs nowMs).1 := by
  unfold renew
  split_ifs
  · exact .refused _ _
  · dsimp only
    split
    · exact .flushed _ _
    · rename_i lease hfind
      split_ifs with hstate
      · exact .flushed _ _
      · obtain ⟨pre, post, hl, hm, hid, -⟩ := exists_modifyFirst hfind fun lease =>
          { lease with
            expiresAtMs := wrapAdd nowMs ttlMs
            attestationSeq := wrapAdd lease.attestationSeq 1 }
        rw [hm]
        exact .renewed leaseId ttlMs pre post lease hl (by simpa using hid) (not_not.mp hstate)

theorem requestFence_step {target : IncarnationId} {reason : String} :
    ShardStep k nowMs slotNowMs token a (.requestFence k target reason)
      (.ofResult (a.requestFence k target reason nowMs).2) (a.requestFence k target reason nowMs).1 := by
  unfold requestFence
  split_ifs
  · exact .refused _ _
  · dsimp only
    split
    · exact .flushed _ _
    · rename_i hnone
      split
      · exact .flushed _ _
      · rename_i lease hfind
        split
        · exact .flushed _ _
        · rename_i generation hgen
          split
          · exact .flushed _ _
          · rename_i nextFenceId hid
            obtain ⟨pre, post, hl, hm, hheld, -⟩ :=
              exists_modifyFirst hfind fun lease => { lease with state := .fencing }
            have hheld' : (lease.holder = target ∧ lease.mode = .mutating) ∧
                lease.effectiveState nowMs = .active := by simpa using hheld
            have hfresh : ∀ fence ∈ a.fences, fence.target = target → fence.acknowledged = true := by
              intro fence hfence ht
              have := List.find?_eq_none.mp hnone fence hfence
              simpa [ht] using this
            rw [hm]
            exact .fenced target reason pre post lease generation nextFenceId hfresh hl hheld'.1.1 hheld'.1.2
              (AuthorityLease.effectiveState_eq_active.mp hheld'.2).1 hgen hid

theorem acknowledgeFence_step {holder : IncarnationId} {fenceId : Nat} :
    ShardStep k nowMs slotNowMs token a (.acknowledgeFence k holder fenceId)
      (.ofResult (a.acknowledgeFence holder fenceId nowMs).2) (a.acknowledgeFence holder fenceId nowMs).1 := by
  unfold acknowledgeFence
  split
  · exact .refused _ _
  · rename_i fence hfind
    have hid : fence.id = fenceId := by simpa using List.find?_some hfind
    subst hid
    split_ifs with hholder hack
    · exact .refused _ _
    · exact .reacknowledged holder fence (List.mem_of_find?_eq_some hfind) (not_not.mp hholder) hack
    · obtain ⟨pre, post, hf, hm, -, -⟩ := exists_modifyFirst hfind fun fence =>
        { fence with acknowledged := true, acknowledgedAtMs := nowMs }
      rw [hm]
      exact .acknowledged holder pre post fence hf hfind (not_not.mp hholder) (by simpa using hack)

theorem revoke_step {leaseId : Nat} {reason : String} :
    ShardStep k nowMs slotNowMs token a (.revoke k leaseId reason)
      (.ofResult (a.revoke leaseId reason).2) (a.revoke leaseId reason).1 := by
  unfold revoke
  split
  · exact .refused _ _
  · rename_i lease hfind
    obtain ⟨pre, post, hl, hm, hid, -⟩ := exists_modifyFirst hfind fun lease =>
      { lease with state := .revoked, reason := reason }
    have hid' : lease.id = leaseId := by simpa using hid
    subst hid'
    rw [hm]
    exact .revoked reason pre post lease hl

theorem reattest_step {holder : IncarnationId} {presented : AuthorityToken} :
    ShardStep k nowMs slotNowMs token a (.reattest k holder presented)
      (.ofResult (a.reattest k holder presented nowMs).2) (a.reattest k holder presented nowMs).1 := by
  unfold reattest
  dsimp only
  split
  · exact .flushed _ _
  · rename_i lease hfind
    split_ifs with hstate hdue
    · exact .flushed _ _
    · exact .flushed _ _
    · obtain ⟨pre, post, hl, hm, hheld, -⟩ := exists_modifyFirst hfind fun lease =>
        { lease with attested := true, attestationSeq := wrapAdd lease.attestationSeq 1 }
      have hheld' : lease.holder = holder ∧ lease.token = presented := by simpa using hheld
      rw [hm]
      exact .reattested holder presented pre post lease hl hheld'.1 hheld'.2 (not_not.mp hstate)

theorem advanceEpoch_step {epoch : Nat} :
    ShardStep k nowMs slotNowMs token a (.advanceEpoch k epoch)
      (.ofResult (a.advanceEpoch epoch).2) (a.advanceEpoch epoch).1 := by
  unfold advanceEpoch
  split_ifs with h
  · exact .refused _ _
  · exact .advanced epoch (by omega)

end ShardAuthority

/-! ## The registry -/

/-- The shard an operation is about; `none` for the operations on the whole registry. -/
def RegistryOp.shard : RegistryOp → Option ShardId
  | establish shard _ | renew shard _ _ | requestFence shard _ _ | acknowledgeFence shard _ _
  | revoke shard _ _ | reattest shard _ _ | advanceEpoch shard _ => some shard
  | grant request => some request.shard
  | expireDue | reload => none

/-- Whether an operation works on the shard `k`. -/
def RegistryOp.concerns (op : RegistryOp) (k : ShardId) : Bool := op.shard = none || op.shard = some k

namespace AuthorityRegistry
variable {registry : AuthorityRegistry} {k shard : ShardId} {a : ShardAuthority}
  {nowMs slotNowMs : Nat} {token : AuthorityToken}

theorem find_onShard (f : ShardAuthority → ShardAuthority × Result Unit) :
    (registry.onShard shard f).1.find k =
      if shard = k then (registry.find k).map (fun a => (f a).1) else registry.find k := by
  unfold onShard
  split_ifs with hk
  · subst hk
    cases h : registry.find shard <;> simp [h]
  · cases registry.find shard <;> simp [hk]

theorem onShard_result (f : ShardAuthority → ShardAuthority × Result Unit) (h : registry.find shard = some a) :
    (registry.onShard shard f).2 = (f a).2 := by
  rw [onShard, h]

/-- An operation on one shard leaves the others alone and steps its own. -/
theorem onShard_step {op : RegistryOp} {f : ShardAuthority → ShardAuthority × Result Unit}
    (hstep : ∀ a, ShardStep shard nowMs slotNowMs token a op (.ofResult (f a).2) (f a).1)
    (hop : op.shard = some shard) (h : registry.find k = some a) :
    ∃ a', (registry.onShard shard f).1.find k = some a' ∧
      (a' = a ∧ op.concerns k = false ∨ op.concerns k = true ∧
        ShardStep k nowMs slotNowMs token a op (.ofResult (registry.onShard shard f).2) a') := by
  rw [find_onShard]
  by_cases hk : shard = k
  · subst hk
    rw [if_pos rfl, h, onShard_result f h]
    exact ⟨_, rfl, .inr ⟨by simp [RegistryOp.concerns, hop], hstep a⟩⟩
  · rw [if_neg hk]
    exact ⟨a, h, .inl ⟨rfl, by simp [RegistryOp.concerns, hop, hk]⟩⟩

end AuthorityRegistry

open AuthorityRegistry in
/-- Inversion of `exec`: what happens to an established shard. -/
theorem exec_step (op : RegistryOp) {registry : AuthorityRegistry} {k : ShardId} {a : ShardAuthority}
    (nowMs slotNowMs : Nat) (token : AuthorityToken) (hkeyed : registry.Keyed) (h : registry.find k = some a) :
    ∃ a', (op.exec registry nowMs slotNowMs token).1.find k = some a' ∧
      (a' = a ∧ op.concerns k = false ∨ op.concerns k = true ∧
        ShardStep k nowMs slotNowMs token a op (op.exec registry nowMs slotNowMs token).2 a') := by
  cases op with
  | establish shard epoch =>
    by_cases hk : shard = k
    · subst hk
      simp only [RegistryOp.exec, establish, h]
      split_ifs
      · exact ⟨a, h, .inr ⟨by simp [RegistryOp.concerns, RegistryOp.shard], .refused _ _⟩⟩
      · exact ⟨a, h, .inr ⟨by simp [RegistryOp.concerns, RegistryOp.shard], .refused _ _⟩⟩
      · exact ⟨a, h, .inr ⟨by simp [RegistryOp.concerns, RegistryOp.shard], .refused _ _⟩⟩
    · refine ⟨a, ?_, .inl ⟨rfl, by simp [RegistryOp.concerns, RegistryOp.shard, hk]⟩⟩
      simp only [RegistryOp.exec, establish]
      split_ifs
      · exact h
      · exact h
      · cases registry.find shard <;> simp [hk, h]
  | grant request =>
    by_cases hk : request.shard = k
    · subst hk
      simp only [RegistryOp.exec, grant, h, find_put, if_true]
      exact ⟨_, rfl, .inr ⟨by simp [RegistryOp.concerns, RegistryOp.shard], ShardAuthority.grant_step rfl⟩⟩
    · refine ⟨a, ?_, .inl ⟨rfl, by simp [RegistryOp.concerns, RegistryOp.shard, hk]⟩⟩
      simp only [RegistryOp.exec, grant]
      cases registry.find request.shard <;> simp [hk, h]
  | renew shard leaseId ttlMs => exact onShard_step (fun _ => ShardAuthority.renew_step) rfl h
  | requestFence shard target reason => exact onShard_step (fun _ => ShardAuthority.requestFence_step) rfl h
  | acknowledgeFence shard holder fenceId =>
    exact onShard_step (fun _ => ShardAuthority.acknowledgeFence_step) rfl h
  | revoke shard leaseId reason => exact onShard_step (fun _ => ShardAuthority.revoke_step) rfl h
  | expireDue =>
    refine ⟨a.expireInPlace nowMs, ?_, .inr ⟨rfl, .expired⟩⟩
    change (registry.shards.mapValues _).find k = _
    rw [SortedMap.find_mapValues, show registry.shards.find k = some a from h]
    rfl
  | reattest shard holder presented => exact onShard_step (fun _ => ShardAuthority.reattest_step) rfl h
  | advanceEpoch shard epoch => exact onShard_step (fun _ => ShardAuthority.advanceEpoch_step) rfl h
  | reload =>
    simp only [RegistryOp.exec]
    rcases reload_cases hkeyed with hl | ⟨refusal, hl⟩ <;> rw [hl]
    · refine ⟨a.detach, ?_, .inr ⟨rfl, .detached⟩⟩
      change (registry.shards.mapValues _).find k = _
      rw [SortedMap.find_mapValues, show registry.shards.find k = some a from h]
      rfl
    · exact ⟨a, h, .inr ⟨by simp [RegistryOp.concerns, RegistryOp.shard], .refused _ _⟩⟩

open AuthorityRegistry in
/-- Only `establish` creates a shard. -/
theorem exec_fresh {op : RegistryOp} {registry : AuthorityRegistry} {k : ShardId} {a' : ShardAuthority}
    {nowMs slotNowMs : Nat} {token : AuthorityToken} (hkeyed : registry.Keyed) (h : registry.find k = none)
    (h' : (op.exec registry nowMs slotNowMs token).1.find k = some a') :
    ∃ epoch, op = .establish k epoch ∧ epoch ≠ 0 ∧ k.isValid = true ∧
      a' = { shard := k, epoch := epoch, generation := 1 } := by
  have honShard : ∀ {shard : ShardId} {f : ShardAuthority → ShardAuthority × Result Unit},
      (registry.onShard shard f).1.find k ≠ some a' := by
    intro shard f
    rw [find_onShard, h]
    split_ifs <;> simp
  cases op with
  | establish shard epoch =>
    simp only [RegistryOp.exec, establish] at h'
    split_ifs at h' with hvalid hepoch
    · exact absurd (h.symm.trans h') (by simp)
    · exact absurd (h.symm.trans h') (by simp)
    · cases hs : registry.find shard with
      | some _ => exact absurd (h.symm.trans (by simpa [hs] using h')) (by simp)
      | none =>
        by_cases hk : shard = k
        · subst hk
          simp only [hs, find_put, if_true, Option.some.injEq] at h'
          exact ⟨epoch, rfl, hepoch, by simpa using hvalid, h'.symm⟩
        · simp [hs, hk, h] at h'
  | grant request =>
    simp only [RegistryOp.exec, grant] at h'
    cases hs : registry.find request.shard with
    | none => simp [hs, h] at h'
    | some _ =>
      have hk : request.shard ≠ k := by
        intro hk
        simp [hk, h] at hs
      simp [hs, hk, h] at h'
  | renew shard leaseId ttlMs => exact absurd h' honShard
  | requestFence shard target reason => exact absurd h' honShard
  | acknowledgeFence shard holder fenceId => exact absurd h' honShard
  | revoke shard leaseId reason => exact absurd h' honShard
  | reattest shard holder presented => exact absurd h' honShard
  | advanceEpoch shard epoch => exact absurd h' honShard
  | expireDue =>
    change (registry.shards.mapValues _).find k = _ at h'
    rw [SortedMap.find_mapValues, show registry.shards.find k = none from h] at h'
    simp at h'
  | reload =>
    simp only [RegistryOp.exec] at h'
    rcases reload_cases hkeyed with hl | ⟨refusal, hl⟩ <;> rw [hl] at h'
    · change (registry.shards.mapValues _).find k = _ at h'
      rw [SortedMap.find_mapValues, show registry.shards.find k = none from h] at h'
      simp at h'
    · exact absurd (h.symm.trans h') (by simp)

/-- Only a grant issues a lease, to a shard that is established. -/
theorem exec_issued {op : RegistryOp} {registry : AuthorityRegistry} {nowMs slotNowMs : Nat} {token : AuthorityToken}
    {lease : AuthorityLease} (hkeyed : registry.Keyed)
    (hout : (op.exec registry nowMs slotNowMs token).2 = .issued lease) :
    ∃ a a', registry.find lease.shard = some a ∧
      (op.exec registry nowMs slotNowMs token).1.find lease.shard = some a' ∧
      ShardStep lease.shard nowMs slotNowMs token a op (.issued lease) a' := by
  cases op with
  | grant request =>
    cases hfind : registry.find request.shard with
    | none => simp [RegistryOp.exec, AuthorityRegistry.grant, hfind, RegistryOutcome.ofGrant] at hout
    | some a =>
      obtain ⟨a', hfind', hstep⟩ := exec_step (.grant request) nowMs slotNowMs token hkeyed hfind
      rcases hstep with ⟨-, hne⟩ | ⟨-, hstep⟩
      · simp [RegistryOp.concerns, RegistryOp.shard] at hne
      · rw [hout] at hstep
        have hshard : lease.shard = request.shard := by
          cases hstep with
          | issued => rfl
        rw [hshard]
        exact ⟨a, a', hfind, hfind', hstep⟩
  | _ =>
    simp only [RegistryOp.exec] at hout
    exact absurd hout (by unfold RegistryOutcome.ofResult; split <;> simp)

end FabricEvolution
