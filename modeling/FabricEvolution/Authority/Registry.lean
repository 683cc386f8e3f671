import FabricEvolution.Authority.Lease
import FabricEvolution.Lib.ListUpdate

/-!
# The authority registry

`AuthorityRegistry` decides who may mutate a shard. Every operation finds the shard and works on its
`ShardAuthority`; the clock readings an operation takes and the token it may mint are arguments
(`slotNowMs` is the second reading of `grant`, taken by the slot check).

* `ShardAuthority.grant`, `renew`, `requestFence`, `acknowledgeFence`, `revoke`, `reattest`,
  `advanceEpoch` : the operations on one shard;
* `AuthorityRegistry.*` : the same on the registry, with `establish` and `expireDue`;
* `validateClaim`, `view` : the two readers.
-/

namespace FabricEvolution
open Lib

def maxLeaseTtlMs : Nat := 24 * 60 * 60 * 1000
def maxLeaseHistoryPerShard : Nat := 256
def maxFenceHistoryPerShard : Nat := 256
def maxReadOnlyLeasesPerShard : Nat := 8

/-! ## One shard -/

structure ShardAuthority where
  shard : ShardId
  epoch : Nat
  generation : Nat
  leases : List AuthorityLease := []
  fences : List FenceRecord := []
  nextLeaseId : Nat := 1
  nextFenceId : Nat := 1

/-- What a grant did: refuse, extend a lease that exists, or issue a new one. -/
inductive GrantOutcome where
  | refused (refusal : Status)
  | renewed (lease : AuthorityLease)
  | issued (lease : AuthorityLease)

def GrantOutcome.result : GrantOutcome → Result AuthorityLease
  | refused refusal => .error refusal
  | renewed lease => .ok lease
  | issued lease => .ok lease

def AuthorityLease.expireAt (lease : AuthorityLease) (nowMs : Nat) : AuthorityLease :=
  if (lease.state = .active ∨ lease.state = .fencing) ∧ nowMs ≥ lease.expiresAtMs then
    { lease with state := .expired }
  else lease

/-- The lease as a grant to its holder extends it. -/
def AuthorityLease.renewedBy (lease : AuthorityLease) (request : GrantRequest) (nowMs : Nat) :
    AuthorityLease :=
  { lease with
    expiresAtMs := wrapAdd nowMs request.ttlMs
    attestationSeq := wrapAdd lease.attestationSeq 1
    attested := true
    reason := request.reason }

/-- The refusal of a lease restored from storage and not re-attested yet. -/
def unattested (claim : AuthorityClaim) : Status :=
  ⟨.staleAuthority, "authority lease has not been re-attested since recovery",
    .ofPairs [("holder", .string claim.incarnation.toString)]⟩

/-- The test by which a claim finds its lease. -/
def presentedBy (claim : AuthorityClaim) (lease : AuthorityLease) : Bool :=
  lease.holder = claim.incarnation && lease.token = claim.token

/-- The test by which a grant in a non-mutating mode finds the lease its holder has. -/
def GrantRequest.heldBy (request : GrantRequest) (nowMs : Nat) (lease : AuthorityLease) : Bool :=
  lease.holder = request.holder && lease.mode = request.mode && lease.effectiveState nowMs = .active

namespace ShardAuthority

def activeMutating (authority : ShardAuthority) (nowMs : Nat) : Option AuthorityLease :=
  authority.leases.find? (·.blocksMutationSlot nowMs)

def expireInPlace (authority : ShardAuthority) (nowMs : Nat) : ShardAuthority :=
  { authority with leases := authority.leases.map (·.expireAt nowMs) }

def activeReadOnly (authority : ShardAuthority) (nowMs : Nat) : Nat :=
  authority.leases.countP fun lease => lease.mode = .readOnlyShared && lease.effectiveState nowMs = .active

/-- A new lease under the current epoch, generation and lease id of the shard. -/
def mint (authority : ShardAuthority) (request : GrantRequest) (nowMs : Nat) (token : AuthorityToken) :
    AuthorityLease :=
  { id := authority.nextLeaseId
    shard := request.shard
    holder := request.holder
    epoch := authority.epoch
    generation := authority.generation
    token := token
    mode := request.mode
    state := .active
    issuedAtMs := nowMs
    expiresAtMs := wrapAdd nowMs request.ttlMs
    attested := true
    attestationSeq := 1
    campaign := request.campaign
    handoff := request.handoff
    reason := request.reason }

/-- The generation a new lease is minted under: every mode but read-only shared moves it on. -/
def nextGeneration (authority : ShardAuthority) (mode : AuthorityMode) : Option Nat :=
  if mode = .readOnlyShared then some authority.generation else nextId authority.generation

/-- The tail of `grant`: generation and lease id move on, the lease is minted and stored. -/
def issue (authority : ShardAuthority) (request : GrantRequest) (nowMs : Nat) (token : AuthorityToken) :
    ShardAuthority × GrantOutcome :=
  match authority.nextGeneration request.mode with
  | none =>
    (authority, .refused ⟨.boundsExceeded, "generation counter exhausted for shard",
      .ofPairs [("shard", .string request.shard.str)]⟩)
  | some generation =>
    let authority := { authority with generation := generation }
    match nextId authority.nextLeaseId with
    | none =>
      (authority, .refused ⟨.boundsExceeded, "lease id space exhausted for shard",
        .ofPairs [("shard", .string request.shard.str)]⟩)
    | some nextLeaseId =>
      let lease := authority.mint request nowMs token
      ({ authority with
          nextLeaseId := nextLeaseId
          leases := pushBounded maxLeaseHistoryPerShard authority.leases lease }, .issued lease)

/-- Extend the first lease satisfying `p`. -/
def renewFirst (authority : ShardAuthority) (p : AuthorityLease → Bool) (request : GrantRequest) (nowMs : Nat) :
    ShardAuthority :=
  { authority with leases := modifyFirst p (·.renewedBy request nowMs) authority.leases }

def conflict (request : GrantRequest) (blocker : AuthorityLease) (nowMs : Nat) : Status :=
  ⟨.authorityConflict, "shard already has a mutating authority; fence or expire the incumbent before granting",
    .ofPairs [("shard", .string request.shard.str), ("current_holder", .string blocker.holder.toString),
      ("current_state", .string (blocker.effectiveState nowMs).name),
      ("current_generation", .uint blocker.generation),
      ("requested_holder", .string request.holder.toString)]⟩

def grant (authority : ShardAuthority) (request : GrantRequest) (nowMs slotNowMs : Nat)
    (token : AuthorityToken) : ShardAuthority × GrantOutcome :=
  if !request.holder.isValid then
    (authority, .refused (invalidArgument "lease holder incarnation must be valid"))
  else if request.ttlMs = 0 then
    (authority, .refused (invalidArgument "lease ttl must be positive"))
  else if request.ttlMs > maxLeaseTtlMs then
    (authority, .refused ⟨.boundsExceeded, "lease ttl exceeds the configured maximum",
      .ofPairs [("requested_ms", .uint request.ttlMs), ("max_ms", .uint maxLeaseTtlMs)]⟩)
  else
    let authority := authority.expireInPlace nowMs
    if request.mode = .mutating then
      match authority.activeMutating slotNowMs with
      | some blocker =>
        -- A lease that is being fenced can never be renewed.
        if blocker.holder = request.holder ∧ blocker.effectiveState nowMs = .active then
          match authority.leases.find? (·.id = blocker.id) with
          | some lease =>
            (authority.renewFirst (·.id = blocker.id) request nowMs, .renewed (lease.renewedBy request nowMs))
          | none => (authority, .refused (conflict request blocker nowMs))
        else (authority, .refused (conflict request blocker nowMs))
      | none => authority.issue request nowMs token
    else
      match authority.leases.find? (request.heldBy nowMs) with
      | some lease =>
        (authority.renewFirst (request.heldBy nowMs) request nowMs, .renewed (lease.renewedBy request nowMs))
      | none =>
        if request.mode = .readOnlyShared ∧ authority.activeReadOnly nowMs ≥ maxReadOnlyLeasesPerShard then
          (authority, .refused ⟨.resourceExhausted, "read-only shared authority lease limit reached for shard",
            .ofPairs [("shard", .string request.shard.str), ("limit", .uint maxReadOnlyLeasesPerShard)]⟩)
        else authority.issue request nowMs token

def renew (authority : ShardAuthority) (leaseId ttlMs nowMs : Nat) : ShardAuthority × Result Unit :=
  if ttlMs = 0 ∨ ttlMs > maxLeaseTtlMs then
    (authority, .error (.plain .boundsExceeded "lease ttl outside permitted range"))
  else
    let authority := authority.expireInPlace nowMs
    match authority.leases.find? (·.id = leaseId) with
    | none => (authority, .error (notFound "lease not found"))
    | some lease =>
      if lease.state ≠ .active then
        (authority, .error ⟨.staleAuthority, "lease is no longer active",
          .ofPairs [("state", .string lease.state.name)]⟩)
      else
        ({ authority with
            leases := modifyFirst (·.id = leaseId) (fun lease =>
              { lease with
                expiresAtMs := wrapAdd nowMs ttlMs
                attestationSeq := wrapAdd lease.attestationSeq 1 }) authority.leases }, .ok ())

def requestFence (authority : ShardAuthority) (shard : ShardId) (target : IncarnationId) (reason : String)
    (nowMs : Nat) : ShardAuthority × Result Unit :=
  if !target.isValid then
    (authority, .error (invalidArgument "fence target incarnation must be valid"))
  else
    let authority := authority.expireInPlace nowMs
    match authority.fences.find? fun fence => !fence.acknowledged && fence.target = target with
    | some fence =>
      (authority, .error ⟨.duplicateFrame, "fence already outstanding for this incarnation",
        .ofPairs [("fence_id", .uint fence.id), ("generation", .uint fence.generation)]⟩)
    | none =>
      let held : AuthorityLease → Bool := fun lease =>
        lease.holder = target && lease.mode = .mutating && lease.effectiveState nowMs = .active
      match authority.leases.find? held with
      | none =>
        (authority, .error ⟨.notFound, "no active mutating lease held by the fence target",
          .ofPairs [("shard", .string shard.str), ("target", .string target.toString)]⟩)
      | some holder =>
        match nextId authority.generation with
        | none => (authority, .error (.plain .boundsExceeded "generation counter exhausted for shard"))
        | some generation =>
          match nextId authority.nextFenceId with
          | none => (authority, .error (.plain .boundsExceeded "fence id space exhausted for shard"))
          | some nextFenceId =>
            let fence : FenceRecord :=
              { id := authority.nextFenceId
                shard := shard
                target := target
                epoch := authority.epoch
                generation := generation
                fencedLease := holder.id
                issuedAtMs := nowMs
                acknowledgedAtMs := 0
                acknowledged := false
                reason := reason }
            ({ authority with
                generation := generation
                nextFenceId := nextFenceId
                leases := modifyFirst held ({ · with state := .fencing }) authority.leases
                fences := pushBounded maxFenceHistoryPerShard authority.fences fence }, .ok ())

def acknowledgeFence (authority : ShardAuthority) (holder : IncarnationId) (fenceId nowMs : Nat) :
    ShardAuthority × Result Unit :=
  match authority.fences.find? (·.id = fenceId) with
  | none => (authority, .error ⟨.notFound, "fence record not found", .ofPairs [("fence_id", .uint fenceId)]⟩)
  | some fence =>
    if fence.target ≠ holder then
      (authority, .error ⟨.staleIncarnation,
        "fence acknowledgement came from a different incarnation than the target",
        .ofPairs [("expected", .string fence.target.toString), ("presented", .string holder.toString)]⟩)
    else if fence.acknowledged then (authority, .ok ())
    else
      ({ authority with
          fences := modifyFirst (·.id = fenceId)
            ({ · with acknowledged := true, acknowledgedAtMs := nowMs }) authority.fences
          leases := authority.leases.map fun lease =>
            if lease.id = fence.fencedLease ∧ lease.state = .fencing then { lease with state := .fenced }
            else lease }, .ok ())

def revoke (authority : ShardAuthority) (leaseId : Nat) (reason : String) : ShardAuthority × Result Unit :=
  match authority.leases.find? (·.id = leaseId) with
  | none => (authority, .error (notFound "lease not found"))
  | some _ =>
    ({ authority with
        leases := modifyFirst (·.id = leaseId) ({ · with state := .revoked, reason := reason })
          authority.leases }, .ok ())

def reattest (authority : ShardAuthority) (shard : ShardId) (holder : IncarnationId) (token : AuthorityToken)
    (nowMs : Nat) : ShardAuthority × Result Unit :=
  let authority := authority.expireInPlace nowMs
  let held : AuthorityLease → Bool := fun lease => lease.holder = holder && lease.token = token
  match authority.leases.find? held with
  | none =>
    (authority, .error ⟨.staleAuthority, "no lease matches the presented token for this incarnation",
      .ofPairs [("shard", .string shard.str), ("holder", .string holder.toString)]⟩)
  | some lease =>
    if lease.state ≠ .active then
      (authority, .error ⟨.staleAuthority, "cannot re-attest a lease that is not active",
        .ofPairs [("state", .string lease.state.name)]⟩)
    else if nowMs ≥ lease.expiresAtMs then
      (authority, .error ⟨.staleAuthority, "cannot re-attest an expired lease",
        .ofPairs [("expired_at_ms", .uint lease.expiresAtMs), ("now_ms", .uint nowMs)]⟩)
    else
      ({ authority with
          leases := modifyFirst held (fun lease =>
            { lease with attested := true, attestationSeq := wrapAdd lease.attestationSeq 1 })
            authority.leases }, .ok ())

def advanceEpoch (authority : ShardAuthority) (epoch : Nat) : ShardAuthority × Result Unit :=
  if epoch = 0 ∨ epoch ≤ authority.epoch then
    (authority, .error ⟨.staleEpoch, "new epoch must be strictly greater than the current epoch",
      .ofPairs [("current", .uint authority.epoch), ("requested", .uint epoch)]⟩)
  else
    ({ authority with
        epoch := epoch
        generation := 1
        leases := authority.leases.map fun lease =>
          if lease.state = .active ∨ lease.state = .fencing then
            { lease with state := .revoked, reason := "revoked by epoch advance" }
          else lease }, .ok ())

/-- `validate_claim` once the shard is found. -/
def validateClaim (authority : ShardAuthority) (claim : AuthorityClaim) (required : AuthorityMode) (nowMs : Nat) :
    Result Unit :=
  if !claim.isValid then .error (invalidArgument "authority claim is incomplete")
  else if claim.epoch ≠ authority.epoch then
    .error ⟨.staleEpoch, "authority claim carries a stale epoch",
      .ofPairs [("presented", .uint claim.epoch), ("current", .uint authority.epoch)]⟩
  else if claim.generation ≠ authority.generation then
    .error ⟨.staleGeneration, "authority claim carries a stale generation",
      .ofPairs [("presented", .uint claim.generation), ("current", .uint authority.generation)]⟩
  else
    match authority.leases.find? (presentedBy claim) with
    | none =>
      .error ⟨.staleAuthority, "no lease matches the presented authority token for this incarnation",
        .ofPairs [("shard", .string claim.shard.str), ("holder", .string claim.incarnation.toString),
          ("generation", .uint claim.generation)]⟩
    | some lease =>
      if lease.effectiveState nowMs ≠ .active then
        .error ⟨.staleAuthority, "authority lease is not active",
          .ofPairs [("state", .string (lease.effectiveState nowMs).name),
            ("holder", .string claim.incarnation.toString)]⟩
      else if !lease.attested then .error (unattested claim)
      else if required.allowsMutation && !lease.mode.allowsMutation then
        .error ⟨.notAuthoritative, "lease does not permit mutation",
          .ofPairs [("lease_mode", .string lease.mode.name), ("required", .string required.name)]⟩
      else if required.allowsRead && !lease.mode.allowsRead then
        .error ⟨.notAuthoritative, "lease does not permit reads",
          .ofPairs [("lease_mode", .string lease.mode.name)]⟩
      else .ok ()

/-- The lease as the view shows it. -/
def effectiveLease (lease : AuthorityLease) (nowMs : Nat) : AuthorityLease :=
  { lease with state := lease.effectiveState nowMs }

/-- One step of the loop of `view`. -/
def viewLease (nowMs : Nat) (out : AuthorityView) (lease : AuthorityLease) : AuthorityView :=
  let copy := effectiveLease lease nowMs
  if copy.mode = .mutating ∧ copy.state = .active then
    { out with mutating := some copy, slotHolder := some copy }
  else if copy.mode = .mutating ∧ copy.state = .fencing then { out with slotHolder := some copy }
  else if copy.mode = .readOnlyShared ∧ copy.state = .active then
    { out with readOnly := out.readOnly ++ [copy] }
  else out

def view (authority : ShardAuthority) (shard : ShardId) (nowMs : Nat) : AuthorityView :=
  { authority.leases.foldl (viewLease nowMs)
      { shard := shard, epoch := authority.epoch, generation := authority.generation } with
    fences := authority.fences }

end ShardAuthority

/-! ## The registry -/

structure AuthorityRegistry where
  shards : SortedMap ShardId ShardAuthority
  nextLeaseId : Nat := 1
  nextFenceId : Nat := 1

namespace AuthorityRegistry

/-- The registry of a fresh process. -/
def empty : AuthorityRegistry := { shards := .empty }

def find (registry : AuthorityRegistry) (shard : ShardId) : Option ShardAuthority := registry.shards.find shard

/-- Write the authority of a shard back. -/
def put (registry : AuthorityRegistry) (shard : ShardId) (authority : ShardAuthority) : AuthorityRegistry :=
  { registry with shards := registry.shards.insert shard authority }

def notEstablished : Status := notFound "shard authority is not established"

def notEstablishedFor (shard : ShardId) : Status :=
  ⟨.notFound, "shard authority is not established", .ofPairs [("shard", .string shard.str)]⟩

/-- Run an operation on the authority of an established shard. -/
def onShard (registry : AuthorityRegistry) (shard : ShardId) (op : ShardAuthority → ShardAuthority × Result Unit) :
    AuthorityRegistry × Result Unit :=
  match registry.find shard with
  | none => (registry, .error notEstablished)
  | some authority =>
    let (authority, result) := op authority
    (registry.put shard authority, result)

def establish (registry : AuthorityRegistry) (shard : ShardId) (epoch : Nat) : AuthorityRegistry × Result Unit :=
  if !shard.isValid then (registry, .error (invalidArgument "shard id must be valid"))
  else if epoch = 0 then (registry, .error (invalidArgument "epoch must be a positive integer"))
  else
    match registry.find shard with
    | some _ =>
      (registry, .error ⟨.alreadyExists, "shard authority already established",
        .ofPairs [("shard", .string shard.str)]⟩)
    | none => (registry.put shard { shard := shard, epoch := epoch, generation := 1 }, .ok ())

def grant (registry : AuthorityRegistry) (request : GrantRequest) (nowMs slotNowMs : Nat) (token : AuthorityToken) :
    AuthorityRegistry × GrantOutcome :=
  match registry.find request.shard with
  | none => (registry, .refused (notEstablishedFor request.shard))
  | some authority =>
    let (authority, outcome) := authority.grant request nowMs slotNowMs token
    (registry.put request.shard authority, outcome)

def renew (registry : AuthorityRegistry) (shard : ShardId) (leaseId ttlMs nowMs : Nat) :
    AuthorityRegistry × Result Unit :=
  registry.onShard shard (·.renew leaseId ttlMs nowMs)

def requestFence (registry : AuthorityRegistry) (shard : ShardId) (target : IncarnationId) (reason : String)
    (nowMs : Nat) : AuthorityRegistry × Result Unit :=
  registry.onShard shard (·.requestFence shard target reason nowMs)

def acknowledgeFence (registry : AuthorityRegistry) (shard : ShardId) (holder : IncarnationId)
    (fenceId nowMs : Nat) : AuthorityRegistry × Result Unit :=
  registry.onShard shard (·.acknowledgeFence holder fenceId nowMs)

def revoke (registry : AuthorityRegistry) (shard : ShardId) (leaseId : Nat) (reason : String) :
    AuthorityRegistry × Result Unit :=
  registry.onShard shard (·.revoke leaseId reason)

def expireDue (registry : AuthorityRegistry) (nowMs : Nat) : AuthorityRegistry × Result Unit :=
  ({ registry with shards := registry.shards.mapValues (·.expireInPlace nowMs) }, .ok ())

def reattest (registry : AuthorityRegistry) (shard : ShardId) (holder : IncarnationId) (token : AuthorityToken)
    (nowMs : Nat) : AuthorityRegistry × Result Unit :=
  registry.onShard shard (·.reattest shard holder token nowMs)

def advanceEpoch (registry : AuthorityRegistry) (shard : ShardId) (epoch : Nat) :
    AuthorityRegistry × Result Unit :=
  registry.onShard shard (·.advanceEpoch epoch)

def validateClaim (registry : AuthorityRegistry) (claim : AuthorityClaim) (required : AuthorityMode)
    (nowMs : Nat) : Result Unit :=
  match registry.find claim.shard with
  | none => .error (notEstablishedFor claim.shard)
  | some authority => authority.validateClaim claim required nowMs

def view (registry : AuthorityRegistry) (shard : ShardId) (nowMs : Nat) : Result AuthorityView :=
  match registry.find shard with
  | none => .error (notEstablishedFor shard)
  | some authority => .ok (authority.view shard nowMs)

@[simp] theorem find_empty (shard : ShardId) : empty.find shard = none := rfl

@[simp] theorem find_put (registry : AuthorityRegistry) (shard shard' : ShardId) (authority : ShardAuthority) :
    (registry.put shard authority).find shard' = if shard = shard' then some authority else registry.find shard' :=
  SortedMap.find_insert registry.shards shard shard' authority

end AuthorityRegistry

end FabricEvolution
