import FabricEvolution.Wire.Identity

/-!
# Authority leases and fence records

* `AuthorityMode`, `LeaseState` and their wire names (`fromName_name`);
* `AuthorityLease`, `FenceRecord`, `GrantRequest`, `AuthorityView`;
* `effectiveState` : the stored state with expiry applied, `blocksMutationSlot` : the lease occupies
  the mutation slot of its shard; both only decay with time (`blocksMutationSlot_anti`).
-/

namespace FabricEvolution

/-! ## Modes and states -/

inductive AuthorityMode where
  /-- No authority: the component must refuse every operation. -/
  | none
  /-- May serve reads; may not mutate. -/
  | readOnlyShared
  /-- May mutate replicated state for the shard. -/
  | mutating
deriving DecidableEq, Inhabited

namespace AuthorityMode

def name : AuthorityMode → String
  | none => "none"
  | readOnlyShared => "read_only_shared"
  | mutating => "mutating"

def fromName (text : String) : Option AuthorityMode :=
  if text = "none" then some none
  else if text = "read_only_shared" then some readOnlyShared
  else if text = "mutating" then some mutating
  else .none

theorem fromName_name (mode : AuthorityMode) : fromName mode.name = some mode := by
  cases mode <;> decide

def allowsMutation (mode : AuthorityMode) : Bool := mode = mutating

def allowsRead (mode : AuthorityMode) : Bool := mode = mutating || mode = readOnlyShared

end AuthorityMode

inductive LeaseState where
  /-- Live and usable, subject to attestation. -/
  | active
  /-- Fence issued, not yet acknowledged: the slot stays busy. -/
  | fencing
  /-- Fence acknowledged: the holder may no longer act. -/
  | fenced
  /-- Time to live elapsed without renewal. -/
  | expired
  /-- Withdrawn by an epoch change or an explicit revocation. -/
  | revoked
deriving DecidableEq, Inhabited

namespace LeaseState

def name : LeaseState → String
  | active => "active"
  | fencing => "fencing"
  | fenced => "fenced"
  | expired => "expired"
  | revoked => "revoked"

def fromName (text : String) : Option LeaseState :=
  if text = "active" then some active
  else if text = "fencing" then some fencing
  else if text = "fenced" then some fenced
  else if text = "expired" then some expired
  else if text = "revoked" then some revoked
  else none

theorem fromName_name (state : LeaseState) : fromName state.name = some state := by
  cases state <;> decide

end LeaseState

/-! ## Records -/

structure AuthorityLease where
  id : Nat
  shard : ShardId
  holder : IncarnationId
  epoch : Nat
  generation : Nat
  token : AuthorityToken
  mode : AuthorityMode
  state : LeaseState
  issuedAtMs : Nat
  expiresAtMs : Nat
  /-- False for a lease restored from durable storage until its holder re-attests. -/
  attested : Bool
  attestationSeq : Nat
  campaign : CampaignId
  handoff : Nat
  reason : String
deriving DecidableEq, Inhabited

structure FenceRecord where
  id : Nat
  shard : ShardId
  target : IncarnationId
  epoch : Nat
  generation : Nat
  fencedLease : Nat
  issuedAtMs : Nat
  acknowledgedAtMs : Nat
  acknowledged : Bool
  reason : String
deriving DecidableEq, Inhabited

structure GrantRequest where
  shard : ShardId
  holder : IncarnationId
  mode : AuthorityMode := .mutating
  ttlMs : Nat := 5000
  campaign : CampaignId := default
  handoff : Nat := 0
  reason : String := ""
deriving DecidableEq

structure AuthorityView where
  shard : ShardId
  epoch : Nat
  generation : Nat
  /-- The lease that currently permits mutation. -/
  mutating : Option AuthorityLease := none
  /-- The lease occupying the mutation slot, also while a fence is outstanding. -/
  slotHolder : Option AuthorityLease := none
  readOnly : List AuthorityLease := []
  fences : List FenceRecord := []

/-! ## Effective state -/

namespace AuthorityLease

def isLive (lease : AuthorityLease) (nowMs : Nat) : Bool :=
  lease.state = .active && nowMs < lease.expiresAtMs

def authorizesMutation (lease : AuthorityLease) (nowMs : Nat) : Bool :=
  lease.isLive nowMs && lease.attested && lease.mode = .mutating

/-- A lease past its expiry counts as expired for every decision, flushed or not. -/
def effectiveState (lease : AuthorityLease) (nowMs : Nat) : LeaseState :=
  if (lease.state = .active ∨ lease.state = .fencing) ∧ nowMs ≥ lease.expiresAtMs then .expired
  else lease.state

def blocksMutationSlot (lease : AuthorityLease) (nowMs : Nat) : Bool :=
  lease.mode = .mutating && lease.effectiveState nowMs ≠ .fenced &&
    lease.effectiveState nowMs ≠ .expired && lease.effectiveState nowMs ≠ .revoked

/-- The claim a holder presents for its lease. -/
def claim (lease : AuthorityLease) : AuthorityClaim :=
  { shard := lease.shard, incarnation := lease.holder, epoch := lease.epoch,
    generation := lease.generation, token := lease.token }

variable {lease lease' : AuthorityLease} {t t' : Nat}

theorem effectiveState_eq_active :
    lease.effectiveState t = .active ↔ lease.state = .active ∧ t < lease.expiresAtMs := by
  unfold effectiveState
  split_ifs with h
  · simp only [false_iff]
    omega
  · constructor
    · intro hs
      exact ⟨hs, by by_contra hc; exact h ⟨.inl hs, by omega⟩⟩
    · exact And.left

theorem effectiveState_eq_fencing :
    lease.effectiveState t = .fencing ↔ lease.state = .fencing ∧ t < lease.expiresAtMs := by
  unfold effectiveState
  split_ifs with h
  · simp only [false_iff]
    omega
  · constructor
    · intro hs
      exact ⟨hs, by by_contra hc; exact h ⟨.inr hs, by omega⟩⟩
    · exact And.left

theorem effectiveState_active_anti (hle : t ≤ t') (h : lease.effectiveState t' = .active) : lease.effectiveState t = .active := by
  rw [effectiveState_eq_active] at h ⊢
  exact ⟨h.1, by omega⟩

theorem effectiveState_fencing_anti (hle : t ≤ t') (h : lease.effectiveState t' = .fencing) :
    lease.effectiveState t = .fencing := by
  rw [effectiveState_eq_fencing] at h ⊢
  exact ⟨h.1, by omega⟩

/-- The slot is occupied by an effectively active or fencing mutating lease. -/
theorem blocksMutationSlot_iff : lease.blocksMutationSlot t = true ↔
    lease.mode = .mutating ∧ (lease.effectiveState t = .active ∨ lease.effectiveState t = .fencing) := by
  unfold blocksMutationSlot
  cases lease.effectiveState t <;> simp

theorem blocksMutationSlot_iff_stored : lease.blocksMutationSlot t = true ↔
    lease.mode = .mutating ∧ (lease.state = .active ∨ lease.state = .fencing) ∧ t < lease.expiresAtMs := by
  rw [blocksMutationSlot_iff, effectiveState_eq_active, effectiveState_eq_fencing, ← or_and_right]

theorem blocksMutationSlot_anti (h : t ≤ t') (hb : lease.blocksMutationSlot t' = true) :
    lease.blocksMutationSlot t = true := by
  rw [blocksMutationSlot_iff_stored] at hb ⊢
  exact ⟨hb.1, hb.2.1, by omega⟩

end AuthorityLease

end FabricEvolution
