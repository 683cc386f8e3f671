import FabricEvolution.Authority.Registry
import FabricEvolution.Wire.Reading

/-!
# The registry snapshot

* `AuthorityLease.toJson`, `FenceRecord.toJson`, `AuthorityRegistry.toJson` and their decoders;
* `AuthorityRegistry.load` : a registry restored from a snapshot, every lease unattested;
* `reload_cases` : loading the snapshot of a registry detaches its leases or changes nothing.
-/

namespace FabricEvolution
open Lib

/-! ## Leases and fences -/

def AuthorityLease.toJson (lease : AuthorityLease) : Json :=
  (Json.object []).set "id" (.uint lease.id)
    |>.set "shard" (.string lease.shard.str)
    |>.set "holder" lease.holder.toJson
    |>.set "epoch" (.uint lease.epoch)
    |>.set "generation" (.uint lease.generation)
    |>.set "token" (.string lease.token.toCompactString)
    |>.set "mode" (.string lease.mode.name)
    |>.set "state" (.string lease.state.name)
    |>.set "issued_at_ms" (.uint lease.issuedAtMs)
    |>.set "expires_at_ms" (.uint lease.expiresAtMs)
    |>.set "attested" (.bool lease.attested)
    |>.set "attestation_seq" (.uint lease.attestationSeq)
    |>.setIf lease.campaign.isValid "campaign" (.string lease.campaign.str)
    |>.setIf (lease.handoff ≠ 0) "handoff" (.uint lease.handoff)
    |>.set "reason" (.string lease.reason)

/-- The campaign of a lease: unset when absent, refused when not a name. -/
def leaseCampaignFromJson (value : Json) : Result CampaignId :=
  match jsonString value "campaign" with
  | none => return default
  | some text => orRefuse (TaggedName.parse text) (malformed ("authority lease campaign is invalid: " ++ text))

def authorityLeaseFromJson (value : Json) : Result AuthorityLease := do
  refuseUnless value.isObject (malformed "authority lease must be an object")
  let id ← orRefuse (jsonPositive value "id") (malformed "authority lease id must be positive")
  let shardText ← orRefuse (jsonString value "shard") (malformed "authority lease is missing shard")
  let shard ← orRefuse (TaggedName.parse shardText) (malformed ("authority lease shard is invalid: " ++ shardText))
  let holderValue ← orRefuse (value.find "holder") (malformed "authority lease is missing holder")
  let holder ← incarnationFromJson holderValue
  let epoch ← orRefuse (jsonPositive value "epoch") (malformed "authority lease epoch must be positive")
  let generation ←
    orRefuse (jsonPositive value "generation") (malformed "authority lease generation must be positive")
  let tokenText ← orRefuse (jsonString value "token") (malformed "authority lease is missing token")
  let token ← orRefuse (parseUuid tokenText) (malformed "authority lease token is not a valid uuid")
  let modeText ← orRefuse (jsonString value "mode") (malformed "authority lease is missing mode")
  let mode ←
    orRefuse (AuthorityMode.fromName modeText) (malformed ("authority lease mode is invalid: " ++ modeText))
  let stateText ← orRefuse (jsonString value "state") (malformed "authority lease is missing state")
  let state ←
    orRefuse (LeaseState.fromName stateText) (malformed ("authority lease state is invalid: " ++ stateText))
  let campaign ← leaseCampaignFromJson value
  return {
    id, shard, holder, epoch, generation, token, mode, state, campaign
    issuedAtMs := jsonU64Or value "issued_at_ms" 0
    expiresAtMs := jsonU64Or value "expires_at_ms" 0
    attestationSeq := jsonU64Or value "attestation_seq" 0
    attested := jsonBoolOr value "attested" false
    handoff := jsonU64Or value "handoff" 0
    reason := jsonStringOr value "reason" "" }

def FenceRecord.toJson (fence : FenceRecord) : Json :=
  (Json.object []).set "id" (.uint fence.id)
    |>.set "shard" (.string fence.shard.str)
    |>.set "target" fence.target.toJson
    |>.set "epoch" (.uint fence.epoch)
    |>.set "generation" (.uint fence.generation)
    |>.set "fenced_lease" (.uint fence.fencedLease)
    |>.set "issued_at_ms" (.uint fence.issuedAtMs)
    |>.set "acknowledged_at_ms" (.uint fence.acknowledgedAtMs)
    |>.set "acknowledged" (.bool fence.acknowledged)
    |>.set "reason" (.string fence.reason)

def fenceRecordFromJson (value : Json) : Result FenceRecord := do
  refuseUnless value.isObject (malformed "fence record must be an object")
  let id ← orRefuse (jsonPositive value "id") (malformed "fence record id must be positive")
  let shardText ← orRefuse (jsonString value "shard") (malformed "fence record is missing shard")
  let shard ← orRefuse (TaggedName.parse shardText) (malformed "fence record shard is invalid")
  let targetValue ← orRefuse (value.find "target") (malformed "fence record is missing target")
  let target ← incarnationFromJson targetValue
  let epoch ← orRefuse (jsonPositive value "epoch") (malformed "fence record epoch/generation must be positive")
  let generation ←
    orRefuse (jsonPositive value "generation") (malformed "fence record epoch/generation must be positive")
  return {
    id, shard, target, epoch, generation
    fencedLease := jsonU64Or value "fenced_lease" 0
    issuedAtMs := jsonU64Or value "issued_at_ms" 0
    acknowledgedAtMs := jsonU64Or value "acknowledged_at_ms" 0
    acknowledged := jsonBoolOr value "acknowledged" false
    reason := jsonStringOr value "reason" "" }

/-! ## The registry -/

def ShardAuthority.toJson (authority : ShardAuthority) : Json :=
  (Json.object []).set "shard" (.string authority.shard.str)
    |>.set "epoch" (.uint authority.epoch)
    |>.set "generation" (.uint authority.generation)
    |>.set "next_lease_id" (.uint authority.nextLeaseId)
    |>.set "next_fence_id" (.uint authority.nextFenceId)
    |>.set "leases" (.array (authority.leases.map AuthorityLease.toJson))
    |>.set "fences" (.array (authority.fences.map FenceRecord.toJson))

def AuthorityRegistry.toJson (registry : AuthorityRegistry) : Json :=
  (Json.object []).set "next_lease_id" (.uint registry.nextLeaseId)
    |>.set "next_fence_id" (.uint registry.nextFenceId)
    |>.set "shards" (.array (registry.shards.entries.map fun entry => entry.2.toJson))

/-- A lease restored from storage: it never comes back live. -/
def AuthorityLease.detach (lease : AuthorityLease) : AuthorityLease := { lease with attested := false }

/-- The leases of a shard entry, each of the entry's own shard. -/
def restoreLeases (shard : ShardId) : List Json → Result (List AuthorityLease)
  | [] => return []
  | value :: rest => do
    let lease ← authorityLeaseFromJson value
    refuseUnless (lease.shard = shard)
      (.plain .integrityFailure "authority lease shard does not match its containing shard entry")
    let leases ← restoreLeases shard rest
    return lease.detach :: leases

def restoreFences : List Json → Result (List FenceRecord)
  | [] => return []
  | value :: rest => do
    let fence ← fenceRecordFromJson value
    let fences ← restoreFences rest
    return fence :: fences

/-- The elements of an optional array member. -/
def arrayMember (value : Json) (key : String) (refusal : Status) : Result (List Json) :=
  match value.find key with
  | none => return []
  | some member => orRefuse member.tryArray refusal

def shardAuthorityFromJson (value : Json) : Result ShardAuthority := do
  refuseUnless value.isObject (malformed "authority registry shard entry must be an object")
  let shardText ←
    orRefuse (jsonString value "shard") (malformed "authority registry shard entry is missing shard")
  let shard ←
    orRefuse (TaggedName.parse shardText) (malformed "authority registry shard entry has an invalid shard id")
  let epoch ← orRefuse (jsonPositive value "epoch")
    (malformed "authority registry shard entry has an invalid epoch or generation")
  let generation ← orRefuse (jsonPositive value "generation")
    (malformed "authority registry shard entry has an invalid epoch or generation")
  let leaseValues ← arrayMember value "leases" (malformed "authority registry leases must be an array")
  let leases ← restoreLeases shard leaseValues
  let fenceValues ← arrayMember value "fences" (malformed "authority registry fences must be an array")
  let fences ← restoreFences fenceValues
  return {
    shard, epoch, generation, leases, fences
    nextLeaseId := jsonU64Or value "next_lease_id" 1
    nextFenceId := jsonU64Or value "next_fence_id" 1 }

/-- The loop of `load` over the shard entries. -/
def restoreShards : List Json → SortedMap ShardId ShardAuthority → Result (SortedMap ShardId ShardAuthority)
  | [], restored => return restored
  | value :: rest, restored => do
    let authority ← shardAuthorityFromJson value
    refuseUnless (restored.find authority.shard).isNone
      (.plain .integrityFailure "duplicate shard entry in authority registry")
    restoreShards rest (restored.insert authority.shard authority)

def registryFromJson (value : Json) : Result AuthorityRegistry := do
  refuseUnless value.isObject (malformed "authority registry snapshot must be an object")
  let shards ← orRefuse ((value.find "shards").bind Json.tryArray)
    (malformed "authority registry snapshot is missing the shards array")
  let restored ← restoreShards shards .empty
  return {
    shards := restored
    nextLeaseId := jsonU64Or value "next_lease_id" 1
    nextFenceId := jsonU64Or value "next_fence_id" 1 }

/-- `load` replaces the registry only once the whole snapshot has decoded. -/
def AuthorityRegistry.load (registry : AuthorityRegistry) (value : Json) : AuthorityRegistry × Result Unit :=
  match registryFromJson value with
  | .error refusal => (registry, .error refusal)
  | .ok restored => (restored, .ok ())

/-! ## Loading a snapshot -/

theorem leaseCampaignFromJson_toJson (lease : AuthorityLease) : leaseCampaignFromJson lease.toJson = .ok lease.campaign := by
  have hread : jsonString lease.toJson "campaign" = if lease.campaign.isValid then some lease.campaign.str else none := by
    simp [AuthorityLease.toJson, Json.tryString]
  rw [leaseCampaignFromJson, hread]
  by_cases hvalid : lease.campaign.isValid = true
  · rw [if_pos hvalid]
    show orRefuse (TaggedName.parse lease.campaign.str) _ = _
    rw [TaggedName.parse_str hvalid, orRefuse_some]
  · rw [if_neg hvalid, TaggedName.eq_default_of_not_isValid hvalid]
    rfl

theorem eq_of_authorityLeaseFromJson {lease decoded : AuthorityLease}
    (h : authorityLeaseFromJson lease.toJson = .ok decoded) : decoded = lease := by
  simp only [authorityLeaseFromJson, Result.bind_eq_ok, orRefuse_eq_ok] at h
  obtain ⟨_, -, id, hid, shardText, hst, shard, hshard, holderValue, hhv, holder, hholder, epoch, hepoch,
    generation, hgen, tokenText, htt, token, htoken, modeText, hmt, mode, hmode, stateText, hstt, state, hstate,
    campaign, hcamp, h⟩ := h
  simp [AuthorityLease.toJson, Json.tryString] at hst hhv htt hmt hstt
  subst hst hhv htt hmt hstt
  rw [AuthorityMode.fromName_name] at hmode
  rw [LeaseState.fromName_name] at hstate
  cases hmode; cases hstate
  cases h
  rw [eq_of_jsonPositive (n := lease.id) (by simp [AuthorityLease.toJson, Json.tryU64]) hid,
    eq_of_jsonPositive (n := lease.epoch) (by simp [AuthorityLease.toJson, Json.tryU64]) hepoch,
    eq_of_jsonPositive (n := lease.generation) (by simp [AuthorityLease.toJson, Json.tryU64]) hgen,
    TaggedName.eq_of_parse_str hshard, eq_of_incarnationFromJson hholder, eq_of_parseUuid htoken,
    ← Except.ok.inj ((leaseCampaignFromJson_toJson lease).symm.trans hcamp)]
  have hhandoff : jsonU64Or lease.toJson "handoff" 0 = lease.handoff := by
    by_cases hz : lease.handoff = 0 <;> simp [AuthorityLease.toJson, jsonU64Or, Json.tryU64, hz]
  rw [hhandoff]
  simp [AuthorityLease.toJson, jsonU64Or, jsonBoolOr, jsonStringOr, Json.tryU64, Json.tryBool, Json.tryString]

/-- What a lease must have to be read at all. -/
theorem authorityLeaseFromJson_positive {value : Json} {lease : AuthorityLease}
    (h : authorityLeaseFromJson value = .ok lease) :
    lease.id ≠ 0 ∧ lease.epoch ≠ 0 ∧ lease.generation ≠ 0 ∧ lease.token.isValid = true := by
  simp only [authorityLeaseFromJson, Result.bind_eq_ok, orRefuse_eq_ok, jsonPositive, parseUuid,
    Option.filter_eq_some_iff, decide_eq_true_eq] at h
  obtain ⟨_, -, id, ⟨-, hid⟩, _, -, _, -, _, -, _, -, epoch, ⟨-, hepoch⟩, generation, ⟨-, hgeneration⟩, _, -, token,
    ⟨-, htoken⟩, _, -, _, -, _, -, _, -, _, -, h⟩ := h
  cases h
  exact ⟨hid, hepoch, hgeneration, htoken⟩

theorem eq_of_fenceRecordFromJson {fence decoded : FenceRecord}
    (h : fenceRecordFromJson fence.toJson = .ok decoded) : decoded = fence := by
  simp only [fenceRecordFromJson, Result.bind_eq_ok, orRefuse_eq_ok] at h
  obtain ⟨_, -, id, hid, shardText, hst, shard, hshard, targetValue, htv, target, htarget, epoch, hepoch,
    generation, hgen, h⟩ := h
  simp [FenceRecord.toJson, Json.tryString] at hst htv
  subst hst htv
  cases h
  rw [eq_of_jsonPositive (n := fence.id) (by simp [FenceRecord.toJson, Json.tryU64]) hid,
    eq_of_jsonPositive (n := fence.epoch) (by simp [FenceRecord.toJson, Json.tryU64]) hepoch,
    eq_of_jsonPositive (n := fence.generation) (by simp [FenceRecord.toJson, Json.tryU64]) hgen,
    TaggedName.eq_of_parse_str hshard, eq_of_incarnationFromJson htarget]
  simp [FenceRecord.toJson, jsonU64Or, jsonBoolOr, jsonStringOr, Json.tryU64, Json.tryBool, Json.tryString]

theorem eq_of_restoreLeases {shard : ShardId} {leases restored : List AuthorityLease}
    (h : restoreLeases shard (leases.map AuthorityLease.toJson) = .ok restored) :
    restored = leases.map AuthorityLease.detach := by
  induction leases generalizing restored with
  | nil => cases h; rfl
  | cons lease leases ih =>
    simp only [List.map_cons, restoreLeases, Result.bind_eq_ok] at h
    obtain ⟨decoded, hdecoded, _, -, rest, hrest, h⟩ := h
    cases h
    rw [eq_of_authorityLeaseFromJson hdecoded, ih hrest, List.map_cons]

theorem eq_of_restoreFences {fences restored : List FenceRecord}
    (h : restoreFences (fences.map FenceRecord.toJson) = .ok restored) : restored = fences := by
  induction fences generalizing restored with
  | nil => cases h; rfl
  | cons fence fences ih =>
    simp only [List.map_cons, restoreFences, Result.bind_eq_ok] at h
    obtain ⟨decoded, hdecoded, rest, hrest, h⟩ := h
    cases h
    rw [eq_of_fenceRecordFromJson hdecoded, ih hrest]

/-- The shard as a restart finds it: nothing is attested. -/
def ShardAuthority.detach (authority : ShardAuthority) : ShardAuthority :=
  { authority with leases := authority.leases.map AuthorityLease.detach }

theorem eq_of_shardAuthorityFromJson {authority decoded : ShardAuthority}
    (h : shardAuthorityFromJson authority.toJson = .ok decoded) : decoded = authority.detach := by
  simp only [shardAuthorityFromJson, Result.bind_eq_ok, orRefuse_eq_ok] at h
  obtain ⟨_, -, shardText, hst, shard, hshard, epoch, hepoch, generation, hgen, leaseValues, hlv, leases, hleases,
    fenceValues, hfv, fences, hfences, h⟩ := h
  simp [ShardAuthority.toJson, Json.tryString, arrayMember, Json.tryArray, orRefuse] at hst hlv hfv
  subst hst hlv hfv
  cases h
  rw [eq_of_jsonPositive (n := authority.epoch) (by simp [ShardAuthority.toJson, Json.tryU64]) hepoch,
    eq_of_jsonPositive (n := authority.generation) (by simp [ShardAuthority.toJson, Json.tryU64]) hgen,
    TaggedName.eq_of_parse_str hshard, eq_of_restoreLeases hleases, eq_of_restoreFences hfences]
  simp [ShardAuthority.toJson, ShardAuthority.detach, jsonU64Or, Json.tryU64]

/-- The registry as a restart finds it. -/
def AuthorityRegistry.detach (registry : AuthorityRegistry) : AuthorityRegistry :=
  { registry with shards := registry.shards.mapValues ShardAuthority.detach }

theorem AuthorityRegistry.find_detach {registry : AuthorityRegistry} {k : ShardId} :
    registry.detach.find k = (registry.find k).map ShardAuthority.detach :=
  SortedMap.find_mapValues _ _ _

/-- Every shard is stored under its own name. -/
def AuthorityRegistry.Keyed (registry : AuthorityRegistry) : Prop :=
  ∀ shard authority, registry.find shard = some authority → authority.shard = shard

theorem find_restoreShards {entries : List (ShardId × ShardAuthority)}
    (hkeyed : ∀ e ∈ entries, e.2.shard = e.1) (hascend : KeysAscend entries) {restored out : SortedMap ShardId ShardAuthority}
    (h : restoreShards (entries.map fun e => e.2.toJson) restored = .ok out) (k : ShardId) :
    out.find k = ((assocFind k entries).map ShardAuthority.detach).or (restored.find k) := by
  induction entries generalizing restored with
  | nil => cases h; simp
  | cons e entries ih =>
    simp only [List.map_cons, restoreShards, Result.bind_eq_ok, refuseUnless_eq_ok] at h
    obtain ⟨decoded, hdecoded, _, hfresh, h⟩ := h
    rw [eq_of_shardAuthorityFromJson hdecoded] at h hfresh
    have hkey : e.2.detach.shard = e.1 := hkeyed e List.mem_cons_self
    rw [ih (fun e' he' => hkeyed e' (List.mem_cons_of_mem _ he')) hascend.of_cons h, SortedMap.find_insert, hkey,
      assocFind_cons]
    by_cases hk : e.1 = k
    · subst hk
      rw [if_pos rfl, if_pos rfl, hascend.find_tail]
      rfl
    · rw [if_neg hk, if_neg hk]

theorem eq_of_registryFromJson {registry decoded : AuthorityRegistry} (hkeyed : registry.Keyed)
    (h : registryFromJson registry.toJson = .ok decoded) : decoded = registry.detach := by
  simp only [registryFromJson, Result.bind_eq_ok, orRefuse_eq_ok] at h
  obtain ⟨_, -, values, hvalues, restored, hrestored, h⟩ := h
  simp [AuthorityRegistry.toJson, Json.tryArray] at hvalues
  subst hvalues
  cases h
  have hmem : ∀ e ∈ registry.shards.entries, e.2.shard = e.1 := fun e he =>
    hkeyed e.1 e.2 (registry.shards.ascend.find_of_mem he)
  have hshards : restored = registry.shards.mapValues ShardAuthority.detach := by
    refine SortedMap.ext_find fun k => ?_
    rw [find_restoreShards hmem registry.shards.ascend hrestored, SortedMap.find_mapValues, SortedMap.find_empty,
      Option.or_none]
    rfl
  simp [hshards, AuthorityRegistry.detach, AuthorityRegistry.toJson, jsonU64Or, Json.tryU64]

/-- Loading the snapshot of a registry detaches its leases, or changes nothing. -/
theorem reload_cases {registry : AuthorityRegistry} (hkeyed : registry.Keyed) :
    registry.load registry.toJson = (registry.detach, .ok ()) ∨
      ∃ refusal, registry.load registry.toJson = (registry, .error refusal) := by
  unfold AuthorityRegistry.load
  cases h : registryFromJson registry.toJson with
  | error refusal => exact .inr ⟨refusal, rfl⟩
  | ok decoded => exact .inl (by rw [eq_of_registryFromJson hkeyed h])

end FabricEvolution
