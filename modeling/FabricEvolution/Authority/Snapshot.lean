import FabricEvolution.Authority.Run
import FabricEvolution.Wire.Reading
import FabricEvolution.Wire.Size

/-!
# Registry snapshots

* `ShardAuthority.Issuable` : what a decoder asks of a shard, its tokens apart; every shard an operation leaves has it
  (`ShardStep.issuable`, `established_play`);
* `registryFromJson_toJson` : such a registry is read back from its snapshot, with every lease detached;
* `leaseIds`, `fenceIds` : the ids issued along a list of events;
* `Counts` : ids come from a counter of their shard that only moves on, `Counts.nodup` : none is issued twice;
* `snapshot_restores` : both, for the text of the snapshot.
-/

namespace FabricEvolution
open Lib

/-! ## What the operations leave -/

/-- What a decoder asks of a lease of the shard `k`, its token apart. -/
structure AuthorityLease.Issuable (k : ShardId) (lease : AuthorityLease) : Prop where
  id : lease.id ≠ 0
  shard : lease.shard = k
  holder : lease.holder.isValid = true
  epoch : lease.epoch ≠ 0
  generation : lease.generation ≠ 0

/-- What it asks of a fence record. -/
structure FenceRecord.Issuable (k : ShardId) (fence : FenceRecord) : Prop where
  id : fence.id ≠ 0
  shard : fence.shard = k
  target : fence.target.isValid = true
  epoch : fence.epoch ≠ 0
  generation : fence.generation ≠ 0

structure ShardAuthority.Issuable (k : ShardId) (a : ShardAuthority) : Prop where
  valid : k.isValid = true
  shard : a.shard = k
  epoch : a.epoch ≠ 0
  generation : a.generation ≠ 0
  nextLeaseId : a.nextLeaseId ≠ 0
  nextFenceId : a.nextFenceId ≠ 0
  leases : ∀ lease ∈ a.leases, lease.Issuable k
  fences : ∀ fence ∈ a.fences, fence.Issuable k

/-- They are settled by the terms of the lease. -/
theorem AuthorityLease.Issuable.of_terms {k : ShardId} {lease lease' : AuthorityLease} (h : lease.Issuable k)
    (hterms : lease'.terms = lease.terms) : lease'.Issuable k := by
  have hid : lease'.id = lease.id := show lease'.terms.id = lease.terms.id from congrArg _ hterms
  have hshard : lease'.shard = lease.shard := show lease'.terms.shard = lease.terms.shard from congrArg _ hterms
  have hholder : lease'.holder = lease.holder := show lease'.terms.holder = lease.terms.holder from congrArg _ hterms
  have hepoch : lease'.epoch = lease.epoch := show lease'.terms.epoch = lease.terms.epoch from congrArg _ hterms
  have hgeneration : lease'.generation = lease.generation :=
    show lease'.terms.generation = lease.terms.generation from congrArg _ hterms
  exact ⟨hid ▸ h.id, hshard.trans h.shard, hholder ▸ h.holder, hepoch ▸ h.epoch, hgeneration ▸ h.generation⟩

theorem AuthorityLease.expireAt_terms (lease : AuthorityLease) (nowMs : Nat) : (lease.expireAt nowMs).terms = lease.terms := by
  unfold expireAt
  split_ifs <;> rfl

section
variable {k : ShardId} {nowMs slotNowMs : Nat} {token : AuthorityToken} {a a' : ShardAuthority} {op : RegistryOp}
  {outcome : RegistryOutcome}

theorem ShardAuthority.Issuable.nextGeneration_ne_zero (h : a.Issuable k) {mode : AuthorityMode} {generation : Nat}
    (hnext : (a.expireInPlace nowMs).nextGeneration mode = some generation) : generation ≠ 0 := by
  have hgen : (a.expireInPlace nowMs).generation ≠ 0 := h.generation
  unfold ShardAuthority.nextGeneration at hnext
  split_ifs at hnext
  · exact Option.some.inj hnext ▸ hgen
  · have := eq_succ_of_nextId hnext
    omega

/-- The counters of a shard stay positive. -/
theorem ShardStep.counters_ne_zero (h : a.Issuable k) (hstep : ShardStep k nowMs slotNowMs token a op outcome a') :
    a'.epoch ≠ 0 ∧ a'.generation ≠ 0 ∧ a'.nextLeaseId ≠ 0 ∧ a'.nextFenceId ≠ 0 := by
  have hsame : a.epoch ≠ 0 ∧ a.generation ≠ 0 ∧ a.nextLeaseId ≠ 0 ∧ a.nextFenceId ≠ 0 :=
    ⟨h.epoch, h.generation, h.nextLeaseId, h.nextFenceId⟩
  cases hstep with
  | bumped _ _ generation _ _ hgen => exact ⟨h.epoch, h.nextGeneration_ne_zero hgen, h.nextLeaseId, h.nextFenceId⟩
  | issued _ generation _ _ hgen => exact ⟨h.epoch, h.nextGeneration_ne_zero hgen, Nat.succ_ne_zero _, h.nextFenceId⟩
  | fenced _ _ _ _ _ generation nextFenceId _ _ _ _ _ hgen hid =>
    have hgeneration := eq_succ_of_nextId hgen
    have hnext := eq_succ_of_nextId hid
    exact ⟨h.epoch, by dsimp only; omega, h.nextLeaseId, by dsimp only; omega⟩
  | advanced epoch hepoch => exact ⟨by dsimp only; omega, Nat.one_ne_zero, h.nextLeaseId, h.nextFenceId⟩
  | _ => exact hsame

theorem ShardStep.leases_issuable (hids : a.IdsAscend) (h : a.Issuable k)
    (hstep : ShardStep k nowMs slotNowMs token a op outcome a') : ∀ lease ∈ a'.leases, lease.Issuable k := by
  intro lease hlease
  rcases hstep.backward hids.nodup hlease with ⟨l, hl, hls⟩ | rfl
  · exact (h.leases l hl).of_terms hls.terms_eq
  · cases hstep with
    | issued request generation hshard hreach hgen =>
      exact ⟨h.nextLeaseId, hshard, ShardAuthority.holder_valid_of_reachesIssue hreach, h.epoch, h.nextGeneration_ne_zero hgen⟩

theorem ShardStep.fences_issuable (h : a.Issuable k) (hstep : ShardStep k nowMs slotNowMs token a op outcome a') :
    ∀ fence ∈ a'.fences, fence.Issuable k := by
  cases hstep with
  | fenced target reason pre post lease generation nextFenceId _ hleases hholder _ hactive hgen =>
    intro fence hfence
    obtain hold | rfl := mem_of_mem_pushBounded hfence
    · exact h.fences fence hold
    · -- The target is the holder of a lease.
      have hlease := h.leases lease (ShardAuthority.mem_of_flushed_active hleases hactive).1
      have hgeneration := eq_succ_of_nextId hgen
      exact ⟨h.nextFenceId, rfl, hholder ▸ hlease.holder, h.epoch, by dsimp only; omega⟩
  | acknowledged holder pre post fence hfences =>
    have hmem : ∀ f, f ∈ pre ∨ f = fence ∨ f ∈ post → f.Issuable k := fun f hf =>
      h.fences f (by rw [hfences]; simpa using hf)
    have hfence := hmem fence (.inr (.inl rfl))
    intro f hf
    obtain hpre | rfl | hpost := by simpa using hf
    · exact hmem f (.inl hpre)
    · exact ⟨hfence.id, hfence.shard, hfence.target, hfence.epoch, hfence.generation⟩
    · exact hmem f (.inr (.inr hpost))
  | _ => exact h.fences

/-- What an operation leaves is read back, but for its tokens. -/
theorem ShardStep.issuable (hids : a.IdsAscend) (h : a.Issuable k)
    (hstep : ShardStep k nowMs slotNowMs token a op outcome a') : a'.Issuable k := by
  obtain ⟨hepoch, hgeneration, hlease, hfence⟩ := hstep.counters_ne_zero h
  exact ⟨h.valid, hstep.shard_eq.trans h.shard, hepoch, hgeneration, hlease, hfence, hstep.leases_issuable hids h,
    hstep.fences_issuable h⟩

end

/-- Every shard of the registry is established under its name, with ascending lease ids. -/
def AuthorityRegistry.Established (registry : AuthorityRegistry) : Prop :=
  ∀ k a, registry.find k = some a → a.Issuable k ∧ a.IdsAscend

theorem AuthorityRegistry.Established.keyed {registry : AuthorityRegistry} (h : registry.Established) : registry.Keyed :=
  fun k a hfind => (h k a hfind).1.shard

theorem established_exec {registry : AuthorityRegistry} (h : registry.Established) (op : RegistryOp) (nowMs slotNowMs : Nat)
    (token : AuthorityToken) : (op.exec registry nowMs slotNowMs token).1.Established := by
  intro k a' hfind'
  cases hfind : registry.find k with
  | none =>
    obtain ⟨epoch, -, hepoch, hvalid, rfl⟩ := exec_fresh h.keyed hfind hfind'
    refine ⟨⟨hvalid, rfl, hepoch, Nat.one_ne_zero, Nat.one_ne_zero, Nat.one_ne_zero, ?_, ?_⟩, List.Pairwise.nil, ?_⟩
    · simp
    · simp
    · simp
  | some a =>
    obtain ⟨hissuable, hids⟩ := h k a hfind
    obtain ⟨a'', hfind'', hstep⟩ := exec_step op nowMs slotNowMs token h.keyed hfind
    have hsame : a'' = a' := Option.some.inj (hfind''.symm.trans hfind')
    subst hsame
    obtain ⟨rfl, -⟩ | ⟨-, hstep⟩ := hstep
    · exact ⟨hissuable, hids⟩
    · exact ⟨hstep.issuable hids hissuable, hstep.idsAscend hids⟩

theorem established_after {source : Nat → AuthorityToken} {s : RegistryState} (h : s.registry.Established) (e : RegistryEvent) :
    (s.after source e).registry.Established := by
  cases e with
  | call op nowMs slotNowMs => exact established_exec h op nowMs slotNowMs _
  | tick => exact h

theorem established_play {source : Nat → AuthorityToken} {s : RegistryState} (h : s.registry.Established)
    (es : List RegistryEvent) : (s.play source es).registry.Established := by
  induction es generalizing s with
  | nil => exact h
  | cons e es ih => exact ih (established_after h e)

theorem established_start (clockMs : Nat) : (RegistryState.start clockMs).registry.Established := by
  intro k a hfind
  simp [RegistryState.start] at hfind

/-! ## What is read back -/

section Reading
variable {k : ShardId}

theorem authorityLeaseFromJson_toJson {lease : AuthorityLease} (hvalid : k.isValid = true) (h : lease.Issuable k)
    (htoken : lease.token.isValid = true) : authorityLeaseFromJson lease.toJson = .ok lease := by
  have hobject : lease.toJson.isObject = true := by simp [AuthorityLease.toJson]
  have hid : jsonPositive lease.toJson "id" = some lease.id :=
    jsonPositive_eq (by simp [AuthorityLease.toJson, Json.tryU64]) h.id
  have hshard : jsonString lease.toJson "shard" = some lease.shard.str := by simp [AuthorityLease.toJson, Json.tryString]
  have hname : TaggedName.parse lease.shard.str = some lease.shard := TaggedName.parse_str (h.shard ▸ hvalid)
  have hholder : lease.toJson.find "holder" = some lease.holder.toJson := by simp [AuthorityLease.toJson]
  have hepoch : jsonPositive lease.toJson "epoch" = some lease.epoch :=
    jsonPositive_eq (by simp [AuthorityLease.toJson, Json.tryU64]) h.epoch
  have hgeneration : jsonPositive lease.toJson "generation" = some lease.generation :=
    jsonPositive_eq (by simp [AuthorityLease.toJson, Json.tryU64]) h.generation
  have htext : jsonString lease.toJson "token" = some lease.token.toCompactString := by
    simp [AuthorityLease.toJson, Json.tryString]
  have hmode : jsonString lease.toJson "mode" = some lease.mode.name := by simp [AuthorityLease.toJson, Json.tryString]
  have hstate : jsonString lease.toJson "state" = some lease.state.name := by simp [AuthorityLease.toJson, Json.tryString]
  obtain ⟨decoded, hdecoded⟩ : ∃ decoded, authorityLeaseFromJson lease.toJson = .ok decoded := by
    simp only [authorityLeaseFromJson, hobject, refuseUnless_true, Result.ok_bind, hid, orRefuse_some, hshard, hname, hholder,
      incarnationFromJson_toJson h.holder, hepoch, hgeneration, htext, parseUuid_toCompactString htoken, hmode,
      AuthorityMode.fromName_name, hstate, LeaseState.fromName_name, leaseCampaignFromJson_toJson]
    exact ⟨_, rfl⟩
  rw [hdecoded, eq_of_authorityLeaseFromJson hdecoded]

theorem fenceRecordFromJson_toJson {fence : FenceRecord} (hvalid : k.isValid = true) (h : fence.Issuable k) :
    fenceRecordFromJson fence.toJson = .ok fence := by
  have hobject : fence.toJson.isObject = true := by simp [FenceRecord.toJson]
  have hid : jsonPositive fence.toJson "id" = some fence.id :=
    jsonPositive_eq (by simp [FenceRecord.toJson, Json.tryU64]) h.id
  have hshard : jsonString fence.toJson "shard" = some fence.shard.str := by simp [FenceRecord.toJson, Json.tryString]
  have hname : TaggedName.parse fence.shard.str = some fence.shard := TaggedName.parse_str (h.shard ▸ hvalid)
  have htarget : fence.toJson.find "target" = some fence.target.toJson := by simp [FenceRecord.toJson]
  have hepoch : jsonPositive fence.toJson "epoch" = some fence.epoch :=
    jsonPositive_eq (by simp [FenceRecord.toJson, Json.tryU64]) h.epoch
  have hgeneration : jsonPositive fence.toJson "generation" = some fence.generation :=
    jsonPositive_eq (by simp [FenceRecord.toJson, Json.tryU64]) h.generation
  obtain ⟨decoded, hdecoded⟩ : ∃ decoded, fenceRecordFromJson fence.toJson = .ok decoded := by
    simp only [fenceRecordFromJson, hobject, refuseUnless_true, Result.ok_bind, hid, orRefuse_some, hshard, hname, htarget,
      incarnationFromJson_toJson h.target, hepoch, hgeneration]
    exact ⟨_, rfl⟩
  rw [hdecoded, eq_of_fenceRecordFromJson hdecoded]

theorem restoreLeases_toJson {leases : List AuthorityLease} (hvalid : k.isValid = true)
    (h : ∀ lease ∈ leases, lease.Issuable k) (htokens : ∀ lease ∈ leases, lease.token.isValid = true) :
    restoreLeases k (leases.map AuthorityLease.toJson) = .ok (leases.map AuthorityLease.detach) := by
  induction leases with
  | nil => rfl
  | cons lease leases ih =>
    have hlease := h lease List.mem_cons_self
    have hread := authorityLeaseFromJson_toJson hvalid hlease (htokens lease List.mem_cons_self)
    have hrest := ih (fun l hl => h l (List.mem_cons_of_mem _ hl)) fun l hl => htokens l (List.mem_cons_of_mem _ hl)
    have hown : decide (lease.shard = k) = true := decide_eq_true hlease.shard
    rw [List.map_cons, restoreLeases, hread, Result.ok_bind, hown, refuseUnless_true, Result.ok_bind, hrest]
    rfl

theorem restoreFences_toJson {fences : List FenceRecord} (hvalid : k.isValid = true) (h : ∀ fence ∈ fences, fence.Issuable k) :
    restoreFences (fences.map FenceRecord.toJson) = .ok fences := by
  induction fences with
  | nil => rfl
  | cons fence fences ih =>
    have hread := fenceRecordFromJson_toJson hvalid (h fence List.mem_cons_self)
    rw [List.map_cons, restoreFences, hread, Result.ok_bind, ih fun f hf => h f (List.mem_cons_of_mem _ hf)]
    rfl

theorem shardAuthorityFromJson_toJson {a : ShardAuthority} (h : a.Issuable k)
    (htokens : ∀ lease ∈ a.leases, lease.token.isValid = true) : shardAuthorityFromJson a.toJson = .ok a.detach := by
  have hobject : a.toJson.isObject = true := by simp [ShardAuthority.toJson]
  have hshard : jsonString a.toJson "shard" = some a.shard.str := by simp [ShardAuthority.toJson, Json.tryString]
  have hname : TaggedName.parse a.shard.str = some a.shard := TaggedName.parse_str (h.shard ▸ h.valid)
  have hepoch : jsonPositive a.toJson "epoch" = some a.epoch :=
    jsonPositive_eq (by simp [ShardAuthority.toJson, Json.tryU64]) h.epoch
  have hgeneration : jsonPositive a.toJson "generation" = some a.generation :=
    jsonPositive_eq (by simp [ShardAuthority.toJson, Json.tryU64]) h.generation
  have hleases (refusal : Status) : arrayMember a.toJson "leases" refusal = .ok (a.leases.map AuthorityLease.toJson) := by
    simp [ShardAuthority.toJson, arrayMember, Json.tryArray]
  have hfences (refusal : Status) : arrayMember a.toJson "fences" refusal = .ok (a.fences.map FenceRecord.toJson) := by
    simp [ShardAuthority.toJson, arrayMember, Json.tryArray]
  have hown : restoreLeases a.shard (a.leases.map AuthorityLease.toJson) = .ok (a.leases.map AuthorityLease.detach) := by
    rw [h.shard]
    exact restoreLeases_toJson h.valid h.leases htokens
  obtain ⟨decoded, hdecoded⟩ : ∃ decoded, shardAuthorityFromJson a.toJson = .ok decoded := by
    simp only [shardAuthorityFromJson, hobject, refuseUnless_true, Result.ok_bind, hshard, orRefuse_some, hname, hepoch,
      hgeneration, hleases, hown, hfences, restoreFences_toJson h.valid h.fences]
    exact ⟨_, rfl⟩
  rw [hdecoded, eq_of_shardAuthorityFromJson hdecoded]

/-- The loop over the shards finds no key twice. -/
theorem exists_restoreShards {entries : List (ShardId × ShardAuthority)} (hascend : KeysAscend entries)
    (hread : ∀ entry ∈ entries, shardAuthorityFromJson entry.2.toJson = .ok entry.2.detach ∧ entry.2.shard = entry.1)
    {restored : SortedMap ShardId ShardAuthority} (hfresh : ∀ entry ∈ entries, restored.find entry.1 = none) :
    ∃ out, restoreShards (entries.map fun entry => entry.2.toJson) restored = .ok out := by
  induction entries generalizing restored with
  | nil => exact ⟨restored, rfl⟩
  | cons entry entries ih =>
    obtain ⟨hdecoded, hkey⟩ := hread entry List.mem_cons_self
    have hkey' : entry.2.detach.shard = entry.1 := hkey
    obtain ⟨hbelow, htail⟩ := List.pairwise_cons.mp hascend
    have hnone : (restored.find entry.2.detach.shard).isNone = true := by
      rw [hkey', hfresh entry List.mem_cons_self]
      rfl
    have hfresh' : ∀ later ∈ entries, (restored.insert entry.2.detach.shard entry.2.detach).find later.1 = none := by
      intro later hlater
      rw [SortedMap.find_insert, hkey', if_neg (hbelow later hlater).ne]
      exact hfresh later (List.mem_cons_of_mem _ hlater)
    obtain ⟨out, hout⟩ := ih htail (fun e he => hread e (List.mem_cons_of_mem _ he)) hfresh'
    refine ⟨out, ?_⟩
    rw [List.map_cons, restoreShards, hdecoded, Result.ok_bind, hnone, refuseUnless_true, Result.ok_bind]
    exact hout

/-- An established registry without nil tokens is read back from its snapshot. -/
theorem registryFromJson_toJson {registry : AuthorityRegistry} (h : registry.Established)
    (htokens : ∀ k a, registry.find k = some a → ∀ lease ∈ a.leases, lease.token.isValid = true) :
    registryFromJson registry.toJson = .ok registry.detach := by
  have hobject : registry.toJson.isObject = true := by simp [AuthorityRegistry.toJson]
  have hshards : (registry.toJson.find "shards").bind Json.tryArray =
      some (registry.shards.entries.map fun entry => entry.2.toJson) := by
    simp [AuthorityRegistry.toJson, Json.tryArray]
  have hread : ∀ entry ∈ registry.shards.entries,
      shardAuthorityFromJson entry.2.toJson = .ok entry.2.detach ∧ entry.2.shard = entry.1 := by
    intro entry hentry
    have hfind : registry.find entry.1 = some entry.2 := registry.shards.ascend.find_of_mem hentry
    exact ⟨shardAuthorityFromJson_toJson (h entry.1 entry.2 hfind).1 (htokens entry.1 entry.2 hfind),
      (h entry.1 entry.2 hfind).1.shard⟩
  obtain ⟨out, hout⟩ := exists_restoreShards registry.shards.ascend hread fun entry _ => SortedMap.find_empty entry.1
  obtain ⟨decoded, hdecoded⟩ : ∃ decoded, registryFromJson registry.toJson = .ok decoded := by
    simp only [registryFromJson, hobject, refuseUnless_true, Result.ok_bind, hshards, orRefuse_some, hout]
    exact ⟨_, rfl⟩
  rw [hdecoded, eq_of_registryFromJson h.keyed hdecoded]

end Reading

/-! ## The ids issued -/

/-- The lease id an event issues, with its shard. -/
def leaseIssued (source : Nat → AuthorityToken) (s : RegistryState) : RegistryEvent → Option (ShardId × Nat)
  | .tick _ => none
  | .call op nowMs slotNowMs =>
    match s.outcome source op nowMs slotNowMs with
    | .issued lease => some (lease.shard, lease.id)
    | _ => none

/-- The fence id an event issues: that of the record a granted request leaves last. -/
def fenceIssued (source : Nat → AuthorityToken) (s : RegistryState) : RegistryEvent → Option (ShardId × Nat)
  | .call (.requestFence shard target reason) nowMs slotNowMs =>
    let r := (RegistryOp.requestFence shard target reason).exec s.registry nowMs slotNowMs (source s.minted)
    match r.2 with
    | .done => ((r.1.find shard).bind fun a => a.fences.getLast?).map fun fence => (shard, fence.id)
    | _ => none
  | _ => none

/-- What the events of a list issue, in order. -/
def RegistryState.collect (source : Nat → AuthorityToken) (issued : RegistryState → RegistryEvent → Option (ShardId × Nat))
    (s : RegistryState) : List RegistryEvent → List (ShardId × Nat)
  | [] => []
  | e :: es => (issued s e).toList ++ (s.after source e).collect source issued es

def leaseIds (source : Nat → AuthorityToken) (s : RegistryState) (es : List RegistryEvent) : List (ShardId × Nat) :=
  s.collect source (leaseIssued source) es

def fenceIds (source : Nat → AuthorityToken) (s : RegistryState) (es : List RegistryEvent) : List (ShardId × Nat) :=
  s.collect source (fenceIssued source) es

/-- Ids are taken from a counter of their shard, which only moves on. -/
structure Counts (source : Nat → AuthorityToken) (counter : ShardAuthority → Nat)
    (issued : RegistryState → RegistryEvent → Option (ShardId × Nat)) : Prop where
  moves : ∀ {s : RegistryState} {k : ShardId} {a : ShardAuthority} (e : RegistryEvent), s.registry.Established →
    s.registry.find k = some a → ∃ a', (s.after source e).registry.find k = some a' ∧ counter a ≤ counter a'
  takes : ∀ {s : RegistryState} {e : RegistryEvent} {k : ShardId} {n : Nat}, s.registry.Established → issued s e = some (k, n) →
    ∃ a a', s.registry.find k = some a ∧ (s.after source e).registry.find k = some a' ∧ n = counter a ∧
      counter a < counter a'

namespace Counts
variable {source : Nat → AuthorityToken} {counter : ShardAuthority → Nat}
  {issued : RegistryState → RegistryEvent → Option (ShardId × Nat)} {s : RegistryState}

theorem play_le (h : Counts source counter issued) (hs : s.registry.Established) {k : ShardId} {a : ShardAuthority}
    (hfind : s.registry.find k = some a) (es : List RegistryEvent) :
    ∃ a', (s.play source es).registry.find k = some a' ∧ counter a ≤ counter a' := by
  induction es generalizing s a with
  | nil => exact ⟨a, hfind, le_rfl⟩
  | cons e es ih =>
    obtain ⟨a₁, hfind₁, hle₁⟩ := h.moves e hs hfind
    obtain ⟨a₂, hfind₂, hle₂⟩ := ih (established_after hs e) hfind₁
    exact ⟨a₂, hfind₂, hle₁.trans hle₂⟩

/-- What is issued from a state on is not below its counters. -/
theorem le_of_mem (h : Counts source counter issued) (hs : s.registry.Established) {k : ShardId} {n : Nat} {a : ShardAuthority}
    (hfind : s.registry.find k = some a) {es : List RegistryEvent} (hmem : (k, n) ∈ s.collect source issued es) :
    counter a ≤ n := by
  induction es generalizing s a with
  | nil => exact absurd hmem List.not_mem_nil
  | cons e es ih =>
    rw [RegistryState.collect, List.mem_append, Option.mem_toList] at hmem
    obtain hnow | hlater := hmem
    · obtain ⟨a₀, -, hfind₀, -, rfl, -⟩ := h.takes hs hnow
      rw [Option.some.inj (hfind.symm.trans hfind₀)]
    · obtain ⟨a₁, hfind₁, hle⟩ := h.moves e hs hfind
      exact hle.trans (ih (established_after hs e) hfind₁ hlater)

/-- What has been issued is below the counters of the state reached. -/
theorem lt_of_mem (h : Counts source counter issued) (hs : s.registry.Established) {k : ShardId} {n : Nat}
    {es : List RegistryEvent} (hmem : (k, n) ∈ s.collect source issued es) :
    ∃ a', (s.play source es).registry.find k = some a' ∧ n < counter a' := by
  induction es generalizing s with
  | nil => exact absurd hmem List.not_mem_nil
  | cons e es ih =>
    rw [RegistryState.collect, List.mem_append, Option.mem_toList] at hmem
    obtain hnow | hlater := hmem
    · obtain ⟨a, a₁, -, hfind₁, rfl, hlt⟩ := h.takes hs hnow
      obtain ⟨a₂, hfind₂, hle⟩ := h.play_le (established_after hs e) hfind₁ es
      exact ⟨a₂, hfind₂, hlt.trans_le hle⟩
    · exact ih (established_after hs e) hlater

/-- No id of a shard is issued twice. -/
theorem nodup (h : Counts source counter issued) (hs : s.registry.Established) (es : List RegistryEvent) :
    (s.collect source issued es).Nodup := by
  induction es generalizing s with
  | nil => exact List.nodup_nil
  | cons e es ih =>
    rw [RegistryState.collect]
    cases hnow : issued s e with
    | none => exact ih (established_after hs e)
    | some id =>
      obtain ⟨k, n⟩ := id
      obtain ⟨a, a₁, -, hfind₁, rfl, hlt⟩ := h.takes hs hnow
      refine List.nodup_cons.mpr ⟨fun hmem => ?_, ih (established_after hs e)⟩
      have hle := h.le_of_mem (established_after hs e) hfind₁ hmem
      omega

/-- Nor is one issued again after a restart that keeps the counters. -/
theorem nodup_append {source' : Nat → AuthorityToken} {issued' : RegistryState → RegistryEvent → Option (ShardId × Nat)}
    (h : Counts source counter issued) (h' : Counts source' counter issued') (hs : s.registry.Established)
    {es : List RegistryEvent} {restored : RegistryState} (hrestored : restored.registry.Established)
    (hkept : ∀ k a, (s.play source es).registry.find k = some a →
      ∃ a', restored.registry.find k = some a' ∧ counter a' = counter a) (es' : List RegistryEvent) :
    (s.collect source issued es ++ restored.collect source' issued' es').Nodup := by
  refine List.nodup_append.mpr ⟨h.nodup hs es, h'.nodup hrestored es', ?_⟩
  rintro ⟨k, n⟩ hbefore _ hafter rfl
  obtain ⟨a, hfind, hlt⟩ := h.lt_of_mem hs hbefore
  obtain ⟨a', hfind', hcounter⟩ := hkept k a hfind
  have hle := h'.le_of_mem hrestored hfind' hafter
  omega

end Counts

section
variable {source : Nat → AuthorityToken}

/-- A counter that no step of a shard moves back is not moved back by an event. -/
theorem counter_moves {counter : ShardAuthority → Nat}
    (hstep : ∀ {k nowMs slotNowMs token a a' op outcome}, ShardStep k nowMs slotNowMs token a op outcome a' →
      counter a ≤ counter a') {s : RegistryState} {k : ShardId} {a : ShardAuthority} (e : RegistryEvent)
    (hs : s.registry.Established) (hfind : s.registry.find k = some a) :
    ∃ a', (s.after source e).registry.find k = some a' ∧ counter a ≤ counter a' := by
  cases e with
  | tick => exact ⟨a, hfind, le_rfl⟩
  | call op nowMs slotNowMs =>
    obtain ⟨a', hfind', hcase⟩ := exec_step op nowMs slotNowMs (source s.minted) hs.keyed hfind
    refine ⟨a', hfind', ?_⟩
    obtain ⟨rfl, -⟩ | ⟨-, hss⟩ := hcase
    · exact le_rfl
    · exact hstep hss

theorem counts_leases : Counts source ShardAuthority.nextLeaseId (leaseIssued source) where
  moves e hs hfind := counter_moves (fun hstep => hstep.nextLeaseId_le) e hs hfind
  takes {s e k n} hs hissued := by
    cases e with
    | tick => exact absurd hissued (by simp [leaseIssued])
    | call op nowMs slotNowMs =>
      cases hout : s.outcome source op nowMs slotNowMs with
      | issued lease =>
        simp only [leaseIssued, hout, Option.some.injEq, Prod.mk.injEq] at hissued
        obtain ⟨rfl, rfl⟩ := hissued
        obtain ⟨a, a', hfind, hfind', hstep⟩ := exec_issued hs.keyed hout
        refine ⟨a, a', hfind, hfind', ?_⟩
        cases hstep with
        | issued => exact ⟨rfl, Nat.lt_succ_self _⟩
      | _ => simp [leaseIssued, hout] at hissued

theorem ShardStep.nextFenceId_le {k : ShardId} {nowMs slotNowMs : Nat} {token : AuthorityToken} {a a' : ShardAuthority}
    {op : RegistryOp} {outcome : RegistryOutcome} (h : ShardStep k nowMs slotNowMs token a op outcome a') :
    a.nextFenceId ≤ a'.nextFenceId := by
  cases h with
  | fenced _ _ _ _ _ _ _ _ _ _ _ _ _ hid =>
    have := eq_succ_of_nextId hid
    dsimp only
    omega
  | _ => exact le_rfl

theorem counts_fences : Counts source ShardAuthority.nextFenceId (fenceIssued source) where
  moves e hs hfind := counter_moves (fun hstep => hstep.nextFenceId_le) e hs hfind
  takes {s e k n} hs hissued := by
    cases e with
    | tick => exact absurd hissued (by simp [fenceIssued])
    | call op nowMs slotNowMs =>
      cases op with
      | requestFence shard target reason =>
        cases hfind : s.registry.find shard with
        | none =>
          exact absurd hissued (by simp [fenceIssued, RegistryOp.exec, AuthorityRegistry.requestFence,
            AuthorityRegistry.onShard, hfind, RegistryOutcome.ofResult])
        | some a =>
          obtain ⟨a', hfind', hcase⟩ :=
            exec_step (.requestFence shard target reason) nowMs slotNowMs (source s.minted) hs.keyed hfind
          obtain ⟨-, hno⟩ | ⟨-, hstep⟩ := hcase
          · exact absurd hno (by simp [RegistryOp.concerns, RegistryOp.shard])
          simp only [fenceIssued] at hissued
          cases hout : (RegistryOp.requestFence shard target reason |>.exec s.registry nowMs slotNowMs (source s.minted)).2 with
          | done =>
            rw [hout] at hissued hstep
            rw [hfind'] at hissued
            cases hstep with
            | fenced _ _ _ _ _ _ _ _ _ _ _ _ _ hid =>
              simp only [Option.bind_some, getLast?_pushBounded (show 0 < maxFenceHistoryPerShard by decide), Option.map_some,
                Option.some.injEq, Prod.mk.injEq] at hissued
              obtain ⟨rfl, rfl⟩ := hissued
              have hnext := eq_succ_of_nextId hid
              exact ⟨a, _, hfind, hfind', rfl, by dsimp only; omega⟩
          | _ => simp [hout] at hissued
      | _ => exact absurd hissued (by simp [fenceIssued])

end

/-! ## After a restart -/

theorem established_detach {registry : AuthorityRegistry} (h : registry.Established) : registry.detach.Established := by
  intro k a' hfind'
  rw [AuthorityRegistry.find_detach, Option.map_eq_some_iff] at hfind'
  obtain ⟨a, hfind, rfl⟩ := hfind'
  obtain ⟨hissuable, hids⟩ := h k a hfind
  have hstep : ShardStep k 0 0 default a .reload .done a.detach := .detached
  exact ⟨hstep.issuable hids hissuable, hstep.idsAscend hids⟩

/-- A fresh process with the registry it restored. -/
def AuthorityRegistry.restart (registry : AuthorityRegistry) (clockMs : Nat) : RegistryState :=
  { registry := registry.detach, clockMs := clockMs, minted := 0 }

/-- The text of the snapshot of a reachable registry without nil tokens loads as that registry with every lease
unattested, and nothing the registry issued or anything that follows the restart issues (a `reload` is a further save
and load) has an id that was issued before. -/
theorem snapshot_restores (floats : FloatText) (limits : JsonParseLimits) (source : Nat → AuthorityToken) (clockMs : Nat)
    (es : List RegistryEvent) {registry : AuthorityRegistry}
    (hreach : ((RegistryState.start clockMs).play source es).registry = registry)
    (htokens : ∀ k a, registry.find k = some a → ∀ lease ∈ a.leases, lease.token.isValid = true)
    (hfits : Json.Fits limits 0 registry.toJson) (hbytes : (registry.toJson.dump floats).length ≤ limits.maxBytes) :
    (∃ value, parseJson floats limits (registry.toJson.dump floats) = .ok value ∧
      ∀ fresh : AuthorityRegistry, fresh.load value = (registry.detach, .ok ())) ∧
    ∀ (source' : Nat → AuthorityToken) (clockMs' : Nat) (es' : List RegistryEvent),
      (leaseIds source (.start clockMs) es ++ leaseIds source' (registry.restart clockMs') es').Nodup ∧
        (fenceIds source (.start clockMs) es ++ fenceIds source' (registry.restart clockMs') es').Nodup := by
  have hestablished : registry.Established := hreach ▸ established_play (established_start clockMs) es
  refine ⟨⟨registry.toJson, parseJson_dump hfits hbytes, fun fresh => ?_⟩, fun source' clockMs' es' => ?_⟩
  · rw [AuthorityRegistry.load, registryFromJson_toJson hestablished htokens]
  · have hrestored : (registry.restart clockMs').registry.Established := established_detach hestablished
    have hkept {counter : ShardAuthority → Nat} (hcounter : ∀ a : ShardAuthority, counter a.detach = counter a) :
        ∀ k a, ((RegistryState.start clockMs).play source es).registry.find k = some a →
          ∃ a', (registry.restart clockMs').registry.find k = some a' ∧ counter a' = counter a := by
      intro k a hfind
      rw [hreach] at hfind
      exact ⟨a.detach, AuthorityRegistry.find_detach.trans (congrArg _ hfind), hcounter a⟩
    exact ⟨counts_leases.nodup_append counts_leases (established_start clockMs) hrestored (hkept fun _ => rfl) es',
      counts_fences.nodup_append counts_fences (established_start clockMs) hrestored (hkept fun _ => rfl) es'⟩

namespace Sample

/-- A writer, the fence that ends it, and its successor. -/
def successionEvents : List RegistryEvent :=
  events ++ [.call (.requestFence shard (incarnation 1) "handoff") 10 10,
    .call (.acknowledgeFence shard (incarnation 1) 1) 20 20,
    .call (.grant { shard := shard, holder := incarnation 2, reason := "successor" }) 30 30]

def succession : AuthorityRegistry := ((RegistryState.start 0).play tokens successionEvents).registry

end Sample

open Sample in
theorem snapshot_restores_sample :
    (∃ value, parseJson ⟨fun _ => none, fun _ => none⟩ {} (succession.toJson.dump ⟨fun _ => none, fun _ => none⟩) = .ok value ∧
      ∀ fresh : AuthorityRegistry, fresh.load value = (succession.detach, .ok ())) ∧
    ∀ (source' : Nat → AuthorityToken) (clockMs' : Nat) (es' : List RegistryEvent),
      (leaseIds tokens (.start 0) successionEvents ++ leaseIds source' (succession.restart clockMs') es').Nodup ∧
        (fenceIds tokens (.start 0) successionEvents ++ fenceIds source' (succession.restart clockMs') es').Nodup := by
  have hentries : ∀ entry ∈ succession.shards.entries, ∀ lease ∈ entry.2.leases, lease.token.isValid = true := by
    decide +kernel
  exact snapshot_restores ⟨fun _ => none, fun _ => none⟩ {} tokens 0 successionEvents rfl
    (fun k a hfind => hentries (k, a) (mem_of_assocFind hfind)) (Json.fits_of_fitsIn (by decide +kernel))
    ((Json.length_dump_le _).trans (by decide +kernel))

end FabricEvolution
