import FabricEvolution.Authority.Snapshot
import FabricEvolution.Controller.Codec
import FabricEvolution.Manifest.Bound
import FabricEvolution.Persistence.Integrity

/-!
# The state file of the controller

* `StateFile` : what the state file holds, the manifest with all it declares; `StateFile.toJson`, `loadState` : its document;
* `saveState`, `readState` : the file that `save_state` leaves, and what `load_state` reads from a file;
* `StateFile.Storable` : what the decoders ask of it, `StateFile.restored` : what a fresh process finds;
* `loadState_toJson`, `readState_saveState` : a storable state is read back.
-/

namespace FabricEvolution
open Lib

structure StateFile where
  authority : AuthorityRegistry := .empty
  manifest : Option ManifestDocument := none
  campaign : Option CampaignRecord := none
  handoff : Option HandoffRecord := none
  fencedPredecessorClaim : Option AuthorityClaim := none
  windowStartLsn : Nat := 0
  nextHandoffId : Nat := 1
  nextEpoch : Nat := 1
  controllerIncarnation : IncarnationId := default
  lastPauseDeferralMs : Nat := 0
  lastDeferralReason : String := ""

/-- The file with what the controller reads of the manifest. -/
def StateFile.durable (file : StateFile) : Durable :=
  { authority := file.authority, manifest := file.manifest.map (·.admitted), campaign := file.campaign,
    handoff := file.handoff, fencedPredecessorClaim := file.fencedPredecessorClaim, windowStartLsn := file.windowStartLsn,
    nextHandoffId := file.nextHandoffId, nextEpoch := file.nextEpoch, controllerIncarnation := file.controllerIncarnation,
    lastPauseDeferralMs := file.lastPauseDeferralMs, lastDeferralReason := file.lastDeferralReason }

/-! ## Optional members -/

/-- `set` for a member that is written only if there is one. -/
def Json.setSome (value : Json) (key : String) (member : Option Json) : Json :=
  match member with
  | none => value
  | some member => value.set key member

@[simp] theorem Json.find_setSome (value : Json) (key key' : String) (member : Option Json) :
    (value.setSome key member).find key' = if key = key' then member.or (value.find key') else value.find key' := by
  cases member with
  | none => simp [setSome]
  | some member => simp [setSome]

/-- A member that is read only if it is there. -/
def readOptional {α : Type} (value : Json) (key : String) (read : Json → Result α) : Result (Option α) :=
  match value.find key with
  | none => return none
  | some member => do
    let a ← read member
    return some a

theorem readOptional_eq {α : Type} {value : Json} {key : String} {read : Json → Result α} {write : α → Json} {a b : Option α}
    (hfind : value.find key = a.map write) (hread : ∀ x, a = some x → ∃ y, b = some y ∧ read (write x) = .ok y)
    (hnone : a = none → b = none) : readOptional value key read = .ok b := by
  rw [readOptional, hfind]
  cases a with
  | none =>
    rw [hnone rfl]
    rfl
  | some x =>
    obtain ⟨y, rfl, hy⟩ := hread x rfl
    rw [Option.map_some]
    dsimp only
    rw [hy, Result.ok_bind]
    rfl

/-! ## The document -/

/-- The document `save_state` writes. -/
def StateFile.toJson (controllerId : ComponentId) (file : StateFile) : Json :=
  (Json.object []).set "format" (.int 1)
    |>.set "controller" (.string controllerId.str)
    |>.set "controller_incarnation" file.controllerIncarnation.toJson
    |>.set "authority" file.authority.toJson
    |>.set "next_handoff_id" (.uint file.nextHandoffId)
    |>.set "next_epoch" (.uint file.nextEpoch)
    |>.set "window_start_lsn" (.uint file.windowStartLsn)
    |>.set "last_deferral_reason" (.string file.lastDeferralReason)
    |>.set "last_pause_deferral_ms" (.uint file.lastPauseDeferralMs)
    |>.setSome "manifest" (file.manifest.map ManifestDocument.toJson)
    |>.setSome "campaign" (file.campaign.map CampaignRecord.toJson)
    |>.setSome "handoff" (file.handoff.map HandoffRecord.toJson)
    |>.setSome "fenced_predecessor_claim" (file.fencedPredecessorClaim.map AuthorityClaim.toJson)

/-- A claim that does not read is passed over. -/
def fencedClaimFromJson (document : Json) : Option AuthorityClaim :=
  (document.find "fenced_predecessor_claim").bind fun claim => (authorityClaimFromJson claim).toOption

/-- So is the incarnation of the controller that wrote the file. -/
def controllerIncarnationFromJson (document : Json) : IncarnationId :=
  ((document.find "controller_incarnation").bind fun incarnation => (incarnationFromJson incarnation).toOption).getD default

/-- What `load_state` leaves in the memory of a fresh process. -/
def loadState (digestOf : Json → Digest) (document : Json) : Result StateFile := do
  let snapshot ← orRefuse (document.find "authority") (.plain .integrityFailure "controller state has no authority section")
  let restored := AuthorityRegistry.empty.load snapshot
  restored.2
  let manifest ← readOptional document "manifest" (manifestFromJson digestOf)
  let campaign ← readOptional document "campaign" campaignRecordFromJson
  let handoff ← readOptional document "handoff" handoffRecordFromJson
  return {
    manifest, campaign, handoff
    authority := restored.1
    fencedPredecessorClaim := fencedClaimFromJson document
    nextHandoffId := jsonU64Or document "next_handoff_id" 1
    nextEpoch := jsonU64Or document "next_epoch" 1
    windowStartLsn := jsonU64Or document "window_start_lsn" 0
    lastDeferralReason := jsonStringOr document "last_deferral_reason" ""
    lastPauseDeferralMs := jsonU64Or document "last_pause_deferral_ms" 0
    controllerIncarnation := controllerIncarnationFromJson document }

/-- The file that a save leaves in place of `existing`. -/
def saveState (floats : FloatText) (controllerId : ComponentId) (path : String) (existing : Option Bytes) (file : StateFile) :
    Result Bytes :=
  writeIntegrityFile path existing ((file.toJson controllerId).dump floats)

/-- What a fresh process reads from the state file and its backup copy; nothing without a state file. -/
def readState (floats : FloatText) (limits : JsonParseLimits) (digestOf : Json → Digest) (path : String)
    (primary backup : Option Bytes) : Result (Option StateFile) :=
  if primary.isNone then return none
  else do
    let recovered ← (readIntegrityFileWithRecovery path primary backup true).mapError fun refusal =>
      { refusal with message := "controller state is damaged and cannot be recovered: " ++ refusal.message }
    let document ← (parseJson floats limits recovered.payload).mapError fun message =>
      Status.plain .integrityFailure ("controller state is not valid JSON: " ++ message)
    let file ← loadState digestOf document
    return some file

/-! ## Canonical documents -/

namespace Json

theorem find_canonical (value : Json) (key : String) : value.canonical.find key = (value.find key).map canonical := by
  cases value with
  | object members =>
    rw [canonical, canonicalMembers_eq]
    exact assocFind_map _ _ _
  | int value =>
    rw [canonical_int]
    split_ifs <;> rfl
  | _ => rfl

@[simp] theorem canonical_setIf {value : Json} (h : value.isObject = true) (condition : Bool) (key : String) (member : Json) :
    (value.setIf condition key member).canonical = value.canonical.setIf condition key member.canonical := by
  cases condition with
  | true => exact canonical_set h key member
  | false => rfl

@[simp] theorem isObject_setIf (value : Json) (condition : Bool) (key : String) (member : Json) :
    (value.setIf condition key member).isObject = (condition || value.isObject) := by
  cases condition with
  | true => exact isObject_set value key member
  | false => rfl

end Json

@[simp] theorem IncarnationId.toJson_canonical (incarnation : IncarnationId) : incarnation.toJson.canonical = incarnation.toJson := by
  simp [toJson]

@[simp] theorem AuthorityClaim.toJson_canonical (claim : AuthorityClaim) : claim.toJson.canonical = claim.toJson := by
  simp [toJson]

@[simp] theorem AuthorityLease.toJson_canonical (lease : AuthorityLease) : lease.toJson.canonical = lease.toJson := by
  simp [toJson]

@[simp] theorem FenceRecord.toJson_canonical (fence : FenceRecord) : fence.toJson.canonical = fence.toJson := by
  simp [toJson]

@[simp] theorem ShardAuthority.toJson_canonical (a : ShardAuthority) : a.toJson.canonical = a.toJson := by
  simp [toJson, Function.comp_def]

@[simp] theorem AuthorityRegistry.toJson_canonical (registry : AuthorityRegistry) : registry.toJson.canonical = registry.toJson := by
  simp [toJson, Function.comp_def]

@[simp] theorem CampaignRecord.toJson_canonical (record : CampaignRecord) : record.toJson.canonical = record.toJson := by
  simp [toJson, Function.comp_def]

@[simp] theorem PhaseTransition.toJson_canonical (transition : PhaseTransition) :
    transition.toJson.canonical = transition.toJson := by
  simp [toJson]

@[simp] theorem HandoffRecord.toJson_canonical (record : HandoffRecord) : record.toJson.canonical = record.toJson := by
  simp [toJson, Function.comp_def]

/-! ## What is read back -/

/-- What the decoders ask of the state. -/
structure StateFile.Storable (digestOf : Json → Digest) (file : StateFile) : Prop where
  authority : file.authority.Established
  tokens : ∀ k a, file.authority.find k = some a → ∀ lease ∈ a.leases, lease.token.isValid = true
  manifest : ∀ manifest, file.manifest = some manifest → manifest.Readable ∧ manifest.Bound digestOf
  campaign : ∀ campaign, file.campaign = some campaign → campaign.Storable
  handoff : ∀ handoff, file.handoff = some handoff → handoff.Storable
  claim : ∀ claim, file.fencedPredecessorClaim = some claim → claim.isValid = true

/-- What a fresh process finds: no lease is attested, the manifest is in canonical form. -/
def StateFile.restored (file : StateFile) : StateFile :=
  { file with
    authority := file.authority.detach
    manifest := file.manifest.map (·.canonical)
    controllerIncarnation := if file.controllerIncarnation.isValid then file.controllerIncarnation else default }

section
variable {floats : FloatText} {hash : Bytes → Digest} {file : StateFile} {controllerId : ComponentId}

theorem controllerIncarnationFromJson_toJson :
    controllerIncarnationFromJson (file.toJson controllerId).canonical = file.restored.controllerIncarnation := by
  have hmember : (file.toJson controllerId).canonical.find "controller_incarnation" =
      some file.controllerIncarnation.toJson := by
    rw [Json.find_canonical]
    simp [StateFile.toJson]
  rw [controllerIncarnationFromJson, hmember, Option.bind_some, StateFile.restored]
  dsimp only
  by_cases hvalid : file.controllerIncarnation.isValid = true
  · rw [if_pos hvalid, incarnationFromJson_toJson hvalid]
    rfl
  · rw [if_neg hvalid]
    cases hread : incarnationFromJson file.controllerIncarnation.toJson with
    | error refusal => rfl
    | ok incarnation =>
      rw [← eq_of_incarnationFromJson hread] at hvalid
      exact absurd (isValid_of_incarnationFromJson hread) hvalid

theorem fencedClaimFromJson_toJson (h : ∀ claim, file.fencedPredecessorClaim = some claim → claim.isValid = true) :
    fencedClaimFromJson (file.toJson controllerId).canonical = file.fencedPredecessorClaim := by
  have hmember : (file.toJson controllerId).canonical.find "fenced_predecessor_claim" =
      file.fencedPredecessorClaim.map AuthorityClaim.toJson := by
    rw [Json.find_canonical]
    simp [StateFile.toJson, Function.comp_def]
  rw [fencedClaimFromJson, hmember]
  cases hclaim : file.fencedPredecessorClaim with
  | none => rfl
  | some claim =>
    rw [Option.map_some, Option.bind_some, authorityClaimFromJson_toJson (h claim hclaim)]
    rfl

/-- The document of a storable state loads. -/
theorem loadState_toJson (h : file.Storable (textDigest floats hash)) :
    loadState (textDigest floats hash) (file.toJson controllerId).canonical = .ok file.restored := by
  set document := (file.toJson controllerId).canonical with hdocument
  have hauthority : document.find "authority" = some file.authority.toJson := by
    rw [hdocument, Json.find_canonical]
    simp [StateFile.toJson]
  have hload : AuthorityRegistry.empty.load file.authority.toJson = (file.authority.detach, .ok ()) := by
    rw [AuthorityRegistry.load, registryFromJson_toJson h.authority h.tokens]
  have hmanifest : readOptional document "manifest" (manifestFromJson (textDigest floats hash)) =
      .ok (file.manifest.map (·.canonical)) := by
    have hmember : document.find "manifest" = file.manifest.map fun manifest => manifest.toJson.canonical := by
      rw [hdocument, Json.find_canonical]
      simp [StateFile.toJson, Function.comp_def]
    refine readOptional_eq hmember (fun manifest hsome => ⟨manifest.canonical, by rw [hsome]; rfl, ?_⟩) fun hnone => by
      rw [hnone]
      rfl
    obtain ⟨hreadable, hbound⟩ := h.manifest manifest hsome
    rw [ManifestDocument.toJson_canonical]
    exact ManifestDocument.fromJson_toJson hreadable.canonical hbound.canonical
  have hcampaign : readOptional document "campaign" campaignRecordFromJson = .ok file.campaign := by
    have hmember : document.find "campaign" = file.campaign.map CampaignRecord.toJson := by
      rw [hdocument, Json.find_canonical]
      simp [StateFile.toJson, Function.comp_def]
    exact readOptional_eq hmember (fun campaign hsome =>
      ⟨campaign, hsome, campaignRecordFromJson_toJson (h.campaign campaign hsome)⟩) id
  have hhandoff : readOptional document "handoff" handoffRecordFromJson = .ok file.handoff := by
    have hmember : document.find "handoff" = file.handoff.map HandoffRecord.toJson := by
      rw [hdocument, Json.find_canonical]
      simp [StateFile.toJson, Function.comp_def]
    exact readOptional_eq hmember (fun handoff hsome =>
      ⟨handoff, hsome, handoffRecordFromJson_toJson (h.handoff handoff hsome)⟩) id
  have hnumber : ∀ {key n} (fallback : Nat), (file.toJson controllerId).find key = some (.uint n) →
      jsonU64Or document key fallback = n := by
    intro key n fallback hfind
    rw [jsonU64Or, jsonU64, hdocument, Json.find_canonical, hfind]
    rfl
  have hreason : jsonStringOr document "last_deferral_reason" "" = file.lastDeferralReason := by
    have hfind : (file.toJson controllerId).find "last_deferral_reason" = some (.string file.lastDeferralReason) := by
      simp [StateFile.toJson]
    rw [jsonStringOr, jsonString, hdocument, Json.find_canonical, hfind]
    rfl
  unfold loadState
  simp only [hauthority, orRefuse_some, Result.ok_bind, hload, hmanifest, hcampaign, hhandoff, hreason]
  rw [hnumber (n := file.nextHandoffId) 1 (by simp [StateFile.toJson]),
    hnumber (n := file.nextEpoch) 1 (by simp [StateFile.toJson]),
    hnumber (n := file.windowStartLsn) 0 (by simp [StateFile.toJson]),
    hnumber (n := file.lastPauseDeferralMs) 0 (by simp [StateFile.toJson]), hdocument,
    controllerIncarnationFromJson_toJson, fencedClaimFromJson_toJson h.claim]
  rfl

/-- What is saved is read by a fresh process, whatever it replaced and whatever the backup copy holds. -/
theorem readState_saveState {limits : JsonParseLimits} (h : file.Storable (textDigest floats hash))
    (hlegible : Json.Legible floats limits 0 (file.toJson controllerId).canonical)
    (hbytes : ((file.toJson controllerId).dump floats).length ≤ limits.maxBytes) {path : String} {existing : Option Bytes}
    {contents : Bytes} (hsave : saveState floats controllerId path existing file = .ok contents) (backup : Option Bytes) :
    readState floats limits (textDigest floats hash) path (some contents) backup = .ok (some file.restored) := by
  have hparse := Json.parseJson_dump_legible_canonical hlegible hbytes
  unfold readState
  rw [if_neg (by simp), read_of_write hsave]
  simp only [Except.mapError, Result.ok_bind, hparse, loadState_toJson h]
  rfl

end

end FabricEvolution
