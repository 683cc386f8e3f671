import FabricEvolution.Controller.Admin
import FabricEvolution.Manifest.RoundTrip

/-!
# Handoff and campaign records in the state file

* `HandoffRecord.toJson`, `handoffRecordFromJson`, `campaignRecordFromJson` : the records as the state file has them;
* `HandoffRecord.Storable`, `CampaignRecord.Storable`, `AuthorityClaim.isValid` : what the decoders ask of them;
* `handoffRecordFromJson_toJson`, `campaignRecordFromJson_toJson`, `authorityClaimFromJson_toJson` : such records are
  read back in every field.
-/

namespace FabricEvolution
open Lib

/-! ## Names -/

namespace HandoffPhase

def kForwardPhases : List HandoffPhase :=
  [notStarted, prepared, snapshotSynchronized, caughtUp, readinessVerified, predecessorFenced, authorityTransferred,
    successorVerified, predecessorRetired]

def fromName (text : String) : Option HandoffPhase :=
  match kForwardPhases.find? (·.name = text) with
  | some phase => some phase
  | none => if text = "failed" then some failed else if text = "aborted" then some aborted else none

theorem fromName_name (phase : HandoffPhase) : fromName phase.name = some phase := by
  cases phase <;> decide

end HandoffPhase

namespace CampaignState

def fromName (text : String) : Option CampaignState :=
  [planned, preflighting, running, paused, aborting, aborted, forwardRecovery, completed, failed].find? (·.name = text)

theorem fromName_name (state : CampaignState) : fromName state.name = some state := by
  cases state <;> decide

end CampaignState

namespace CampaignAction

def fromName (text : String) : Option CampaignAction :=
  if text = "plan" then some plan
  else if text = "preflight" then some preflight
  else if text = "start" then some start
  else if text = "pause" then some pause
  else if text = "resume" then some resume
  else if text = "abort" then some abort
  else if text = "complete" then some complete
  else if text = "fail" then some fail
  else if text = "forward_recovery" then some enterForwardRecovery
  else if text = "confirm_abort" then some confirmAbort
  else none

theorem fromName_name (action : CampaignAction) : fromName action.name = some action := by
  cases action <;> decide

end CampaignAction

/-! ## Encoders -/

def PhaseTransition.toJson (transition : PhaseTransition) : Json :=
  (Json.object []).set "from" (.string transition.source.name)
    |>.set "to" (.string transition.target.name)
    |>.set "at_ms" (.uint transition.atMs)
    |>.set "attempt" (.uint transition.attempt)
    |>.set "note" (.string transition.note)

def HandoffRecord.toJson (record : HandoffRecord) : Json :=
  (Json.object []).set "id" (.uint record.id)
    |>.set "campaign" (.string record.campaign.str)
    |>.set "shard" (.string record.shard.str)
    |>.set "manifest" (.string record.manifest.str)
    |>.set "manifest_digest" (.string record.manifestDigest.toHex)
    |>.set "predecessor" record.predecessor.toJson
    |>.setIf record.previousPredecessor.isValid "previous_predecessor" record.previousPredecessor.toJson
    |>.set "successor" record.successor.toJson
    |>.set "phase" (.string record.phase.name)
    |>.set "attempt" (.uint record.attempt)
    |>.set "epoch" (.uint record.epoch)
    |>.set "generation" (.uint record.generation)
    |>.set "snapshot" (.uint record.snapshot)
    |>.set "snapshot_digest" (.string record.snapshotDigest.toHex)
    |>.set "snapshot_lsn" (.uint record.snapshotLsn)
    |>.set "target_lsn" (.uint record.targetLsn)
    |>.set "token" (.string record.token.toCompactString)
    |>.set "fence" (.uint record.fence)
    |>.set "started_at_ms" (.uint record.startedAtMs)
    |>.set "updated_at_ms" (.uint record.updatedAtMs)
    |>.set "last_error" (.string record.lastError)
    |>.set "history" (.array (record.history.map PhaseTransition.toJson))

/-! ## Decoders -/

/-- An attempt number, cut to 32 bits. -/
def attemptFromJson (value : Json) : Nat := jsonU64Or value "attempt" 1 % 2 ^ 32

def phaseTransitionFromJson (entry : Json) : Result PhaseTransition := do
  let (source, target) ← orRefuse (both (jsonString entry "from") (jsonString entry "to"))
    (malformed "handoff history entry is missing from/to")
  let (source, target) ← orRefuse (both (HandoffPhase.fromName source) (HandoffPhase.fromName target))
    (malformed "handoff history entry phase is invalid")
  return {
    source, target
    atMs := jsonU64Or entry "at_ms" 0
    attempt := attemptFromJson entry
    note := jsonStringOr entry "note" "" }

/-- The three names a record is identified by. -/
def recordIdentity (value : Json) (key what : String) (missing : String) : Result (TaggedName × TaggedName × TaggedName) := do
  let (first, manifest, shard) ← orRefuse
    (both (jsonString value key) (both (jsonString value "manifest") (jsonString value "shard"))) (malformed missing)
  orRefuse (both (TaggedName.parse first) (both (TaggedName.parse manifest) (TaggedName.parse shard)))
    (malformed (what ++ " record identity is invalid"))

/-- A previous predecessor that does not read is passed over. -/
def previousPredecessorFromJson (value : Json) : IncarnationId :=
  match (value.find "previous_predecessor").map incarnationFromJson with
  | some (.ok previous) => previous
  | _ => default

/-- The token of a handoff, nil or not. -/
def handoffTokenFromJson (value : Json) : Result AuthorityToken :=
  match jsonString value "token" with
  | none => return .nil
  | some text => orRefuse (Uuid128.parse text) (malformed "handoff record token is not a valid uuid")

def handoffRecordFromJson (value : Json) : Result HandoffRecord := do
  refuseUnless value.isObject (malformed "handoff record must be an object")
  let id ← orRefuse (jsonPositive value "id") (malformed "handoff record id must be positive")
  let (campaign, manifest, shard) ← recordIdentity value "campaign" "handoff"
    "handoff record is missing campaign, shard or manifest"
  let manifestDigest ← digestMember value "manifest_digest"
    (malformed "handoff record manifest_digest is not a sha256 hex digest")
  let (predecessorValue, successorValue) ← orRefuse (both (value.find "predecessor") (value.find "successor"))
    (malformed "handoff record must name predecessor and successor incarnations")
  let predecessor ← incarnationFromJson predecessorValue
  let successor ← incarnationFromJson successorValue
  let phaseText ← orRefuse (jsonString value "phase") (malformed "handoff record is missing phase")
  let phase ← orRefuse (HandoffPhase.fromName phaseText) (malformed ("handoff record phase is invalid: " ++ phaseText))
  let snapshotDigest ← digestMember value "snapshot_digest"
    (malformed "handoff record snapshot_digest is not a sha256 hex digest")
  let token ← handoffTokenFromJson value
  let history ← readMember value "history" "handoff record history must be an array" phaseTransitionFromJson
  return {
    id, campaign, shard, manifest, manifestDigest, predecessor, successor, phase, snapshotDigest, token, history
    previousPredecessor := previousPredecessorFromJson value
    attempt := attemptFromJson value
    epoch := jsonU64Or value "epoch" 0
    generation := jsonU64Or value "generation" 0
    snapshot := jsonU64Or value "snapshot" 0
    snapshotLsn := jsonU64Or value "snapshot_lsn" 0
    targetLsn := jsonU64Or value "target_lsn" 0
    fence := jsonU64Or value "fence" 0
    startedAtMs := jsonU64Or value "started_at_ms" 0
    updatedAtMs := jsonU64Or value "updated_at_ms" 0
    lastError := jsonStringOr value "last_error" "" }

def crossedBoundaryFromJson (value : Json) : Result MigrationStepId := do
  let text ← orRefuse value.tryString (malformed "campaign record crossed boundary ids must be strings")
  orRefuse (TaggedName.parse text) (malformed ("campaign record crossed boundary id is invalid: " ++ text))

def campaignEventFromJson (entry : Json) : Result CampaignEvent := do
  let (source, target, actionText) ← orRefuse
    (both (jsonString entry "from") (both (jsonString entry "to") (jsonString entry "action")))
    (malformed "campaign event is missing from/to/action")
  let (source, target) ← orRefuse (both (CampaignState.fromName source) (CampaignState.fromName target))
    (malformed "campaign event state is invalid")
  let action ← orRefuse (CampaignAction.fromName actionText) (malformed ("campaign event action is invalid: " ++ actionText))
  return {
    source, target, action
    atMs := jsonU64Or entry "at_ms" 0
    detail := jsonStringOr entry "detail" "" }

def campaignRecordFromJson (value : Json) : Result CampaignRecord := do
  refuseUnless value.isObject (malformed "campaign record must be an object")
  let (id, manifest, shard) ← recordIdentity value "id" "campaign" "campaign record is missing id, manifest or shard"
  let manifestDigest ← digestMember value "manifest_digest"
    (malformed "campaign record manifest_digest is not a sha256 hex digest")
  let stateText ← orRefuse (jsonString value "state") (malformed "campaign record is missing state")
  let state ← orRefuse (CampaignState.fromName stateText) (malformed ("campaign record state is invalid: " ++ stateText))
  let crossedBoundaries ← readMember value "crossed_boundaries" "campaign record crossed_boundaries must be an array"
    crossedBoundaryFromJson
  let events ← readMember value "events" "campaign record events must be an array" campaignEventFromJson
  return {
    id, manifest, shard, manifestDigest, state, crossedBoundaries, events
    handoff := jsonU64Or value "handoff" 0
    revision := jsonU64Or value "revision" 1
    epoch := jsonU64Or value "epoch" 0
    generation := jsonU64Or value "generation" 0
    operationsInWindow := jsonU64Or value "operations_in_window" 0
    windowStartedAtMs := jsonU64Or value "window_started_at_ms" 0
    updatedAtMs := jsonU64Or value "updated_at_ms" 0
    irreversibleBoundaryCrossed := jsonBoolOr value "irreversible_boundary_crossed" false
    detail := jsonStringOr value "detail" "" }

/-! ## Claims -/

/-- A valid claim is read back. -/
theorem authorityClaimFromJson_toJson {claim : AuthorityClaim} (h : claim.isValid = true) :
    authorityClaimFromJson claim.toJson = .ok claim := by
  simp only [AuthorityClaim.isValid, Bool.and_eq_true, decide_eq_true_eq] at h
  obtain ⟨⟨⟨⟨hshard, hincarnation⟩, hepoch⟩, hgeneration⟩, htoken⟩ := h
  have hobject : claim.toJson.isObject = true := by simp [AuthorityClaim.toJson]
  have hshardMember : claim.toJson.find "shard" = some (.string claim.shard.str) := by simp [AuthorityClaim.toJson]
  have hname : nameFromJson (.string claim.shard.str) "shard" = .ok claim.shard := by
    rw [nameFromJson, Json.tryString, orRefuse_some, Result.ok_bind, TaggedName.parse_str hshard]
    rfl
  have hincarnationMember : claim.toJson.find "incarnation" = some claim.incarnation.toJson := by simp [AuthorityClaim.toJson]
  have hepoch' : jsonPositive claim.toJson "epoch" = some claim.epoch :=
    jsonPositive_eq (by simp [AuthorityClaim.toJson, Json.tryU64]) hepoch
  have hgeneration' : jsonPositive claim.toJson "generation" = some claim.generation :=
    jsonPositive_eq (by simp [AuthorityClaim.toJson, Json.tryU64]) hgeneration
  have htoken' : jsonString claim.toJson "token" = some claim.token.toCompactString := by
    simp [AuthorityClaim.toJson, Json.tryString]
  simp only [authorityClaimFromJson, hobject, refuseUnless_true, Result.ok_bind, hshardMember, orRefuse_some, hname,
    hincarnationMember, incarnationFromJson_toJson hincarnation, hepoch', hgeneration', htoken',
    parseUuid_toCompactString htoken]
  rfl

/-! ## Handoffs -/

/-- What the decoder asks of a handoff; its attempts are counted in 32 bits. -/
structure HandoffRecord.Storable (record : HandoffRecord) : Prop where
  id : record.id ≠ 0
  campaign : record.campaign.isValid = true
  shard : record.shard.isValid = true
  manifest : record.manifest.isValid = true
  predecessor : record.predecessor.isValid = true
  previousPredecessor : record.previousPredecessor.isValid = true ∨ record.previousPredecessor = default
  successor : record.successor.isValid = true
  attempt : record.attempt ≤ maxHandoffRestarts
  history : ∀ transition ∈ record.history, transition.attempt ≤ maxHandoffRestarts

theorem attemptFromJson_eq {value : Json} {attempt : Nat} (h : jsonU64 value "attempt" = some attempt)
    (hattempt : attempt ≤ maxHandoffRestarts) : attemptFromJson value = attempt := by
  have hlt : attempt < 2 ^ 32 := hattempt.trans_lt (by decide)
  rw [attemptFromJson, jsonU64Or, h]
  exact Nat.mod_eq_of_lt hlt

theorem recordIdentity_eq {value : Json} {key what missing : String} {first manifest shard : TaggedName}
    (hkey : jsonString value key = some first.str) (hmanifest : jsonString value "manifest" = some manifest.str)
    (hshard : jsonString value "shard" = some shard.str) (hvalid : first.isValid = true) (hmvalid : manifest.isValid = true)
    (hsvalid : shard.isValid = true) : recordIdentity value key what missing = .ok (first, manifest, shard) := by
  rw [recordIdentity, hkey, hmanifest, hshard]
  simp only [both_some, orRefuse_some, Result.ok_bind, TaggedName.parse_str hvalid, TaggedName.parse_str hmvalid,
    TaggedName.parse_str hsvalid]

theorem phaseTransitionFromJson_toJson {transition : PhaseTransition} (h : transition.attempt ≤ maxHandoffRestarts) :
    phaseTransitionFromJson transition.toJson = .ok transition := by
  have hsource : jsonString transition.toJson "from" = some transition.source.name := by
    simp [PhaseTransition.toJson, Json.tryString]
  have htarget : jsonString transition.toJson "to" = some transition.target.name := by
    simp [PhaseTransition.toJson, Json.tryString]
  have hattempt : attemptFromJson transition.toJson = transition.attempt :=
    attemptFromJson_eq (by simp [PhaseTransition.toJson, Json.tryU64]) h
  have hat : jsonU64Or transition.toJson "at_ms" 0 = transition.atMs := by
    simp [PhaseTransition.toJson, jsonU64Or, Json.tryU64]
  have hnote : jsonStringOr transition.toJson "note" "" = transition.note := by
    simp [PhaseTransition.toJson, jsonStringOr, Json.tryString]
  unfold phaseTransitionFromJson
  simp only [hsource, htarget, both_some, orRefuse_some, Result.ok_bind, HandoffPhase.fromName_name, hattempt, hat, hnote]
  rfl

/-- The previous predecessor is written only if it is valid. -/
theorem previousPredecessorFromJson_toJson {record : HandoffRecord}
    (h : record.previousPredecessor.isValid = true ∨ record.previousPredecessor = default) :
    previousPredecessorFromJson record.toJson = record.previousPredecessor := by
  have hmember : record.toJson.find "previous_predecessor" =
      if record.previousPredecessor.isValid = true then some record.previousPredecessor.toJson else none := by
    simp [HandoffRecord.toJson]
  rw [previousPredecessorFromJson, hmember]
  by_cases hvalid : record.previousPredecessor.isValid = true
  · rw [if_pos hvalid, Option.map_some, incarnationFromJson_toJson hvalid]
  · rw [if_neg hvalid]
    exact (h.resolve_left hvalid).symm

/-- A handoff is read back in every field. -/
theorem handoffRecordFromJson_toJson {record : HandoffRecord} (h : record.Storable) :
    handoffRecordFromJson record.toJson = .ok record := by
  have hobject : record.toJson.isObject = true := by simp [HandoffRecord.toJson]
  have hid : jsonPositive record.toJson "id" = some record.id :=
    jsonPositive_eq (by simp [HandoffRecord.toJson, Json.tryU64]) h.id
  have hidentity : recordIdentity record.toJson "campaign" "handoff" "handoff record is missing campaign, shard or manifest" =
      .ok (record.campaign, record.manifest, record.shard) :=
    recordIdentity_eq (by simp [HandoffRecord.toJson, Json.tryString]) (by simp [HandoffRecord.toJson, Json.tryString])
      (by simp [HandoffRecord.toJson, Json.tryString]) h.campaign h.manifest h.shard
  have hdigest : jsonString record.toJson "manifest_digest" = some record.manifestDigest.toHex := by
    simp [HandoffRecord.toJson, Json.tryString]
  have hpredecessor : record.toJson.find "predecessor" = some record.predecessor.toJson := by simp [HandoffRecord.toJson]
  have hsuccessor : record.toJson.find "successor" = some record.successor.toJson := by simp [HandoffRecord.toJson]
  have hphase : jsonString record.toJson "phase" = some record.phase.name := by simp [HandoffRecord.toJson, Json.tryString]
  have hsnapshotDigest : jsonString record.toJson "snapshot_digest" = some record.snapshotDigest.toHex := by
    simp [HandoffRecord.toJson, Json.tryString]
  have htoken : handoffTokenFromJson record.toJson = .ok record.token := by
    have hmember : jsonString record.toJson "token" = some record.token.toCompactString := by
      simp [HandoffRecord.toJson, Json.tryString]
    rw [handoffTokenFromJson, hmember]
    simp only [Uuid128.parse_toCompactString, orRefuse_some]
  have hhistory : readMember record.toJson "history" "handoff record history must be an array" phaseTransitionFromJson =
      .ok record.history := by
    have hmember : record.toJson.find "history" = some (.array (record.history.map PhaseTransition.toJson)) := by
      simp [HandoffRecord.toJson]
    rw [readMember, hmember]
    exact mapM_read fun transition hmem => phaseTransitionFromJson_toJson (h.history transition hmem)
  have hattempt : attemptFromJson record.toJson = record.attempt :=
    attemptFromJson_eq (by simp [HandoffRecord.toJson, Json.tryU64]) h.attempt
  have hlastError : jsonStringOr record.toJson "last_error" "" = record.lastError := by
    simp [HandoffRecord.toJson, jsonStringOr, Json.tryString]
  unfold handoffRecordFromJson
  simp only [hobject, refuseUnless_true, Result.ok_bind, hid, orRefuse_some, hidentity, digestMember_toHex hdigest,
    hpredecessor, hsuccessor, both_some, incarnationFromJson_toJson h.predecessor, incarnationFromJson_toJson h.successor,
    hphase, HandoffPhase.fromName_name, digestMember_toHex hsnapshotDigest, htoken, hhistory, hattempt,
    previousPredecessorFromJson_toJson h.previousPredecessor, hlastError]
  simp only [jsonU64Or, HandoffRecord.toJson, jsonU64_set, jsonU64_setIf, Json.tryU64]
  rfl

/-! ## Campaigns -/

/-- What the decoder asks of a campaign. -/
structure CampaignRecord.Storable (record : CampaignRecord) : Prop where
  id : record.id.isValid = true
  manifest : record.manifest.isValid = true
  shard : record.shard.isValid = true
  crossedBoundaries : ∀ boundary ∈ record.crossedBoundaries, boundary.isValid = true

theorem crossedBoundaryFromJson_str {boundary : MigrationStepId} (h : boundary.isValid = true) :
    crossedBoundaryFromJson (.string boundary.str) = .ok boundary := by
  rw [crossedBoundaryFromJson, Json.tryString, orRefuse_some, Result.ok_bind, TaggedName.parse_str h]
  rfl

def CampaignEvent.toJson (event : CampaignEvent) : Json :=
  (Json.object []).set "from" (.string event.source.name)
    |>.set "to" (.string event.target.name)
    |>.set "action" (.string event.action.name)
    |>.set "at_ms" (.uint event.atMs)
    |>.set "detail" (.string event.detail)

theorem campaignEventFromJson_toJson (event : CampaignEvent) : campaignEventFromJson event.toJson = .ok event := by
  have hsource : jsonString event.toJson "from" = some event.source.name := by simp [CampaignEvent.toJson, Json.tryString]
  have htarget : jsonString event.toJson "to" = some event.target.name := by simp [CampaignEvent.toJson, Json.tryString]
  have haction : jsonString event.toJson "action" = some event.action.name := by simp [CampaignEvent.toJson, Json.tryString]
  have hat : jsonU64Or event.toJson "at_ms" 0 = event.atMs := by simp [CampaignEvent.toJson, jsonU64Or, Json.tryU64]
  have hdetail : jsonStringOr event.toJson "detail" "" = event.detail := by
    simp [CampaignEvent.toJson, jsonStringOr, Json.tryString]
  unfold campaignEventFromJson
  simp only [hsource, htarget, haction, both_some, orRefuse_some, Result.ok_bind, CampaignState.fromName_name,
    CampaignAction.fromName_name, hat, hdetail]
  rfl

/-- A campaign is read back in every field. -/
theorem campaignRecordFromJson_toJson {record : CampaignRecord} (h : record.Storable) :
    campaignRecordFromJson record.toJson = .ok record := by
  have hobject : record.toJson.isObject = true := by simp [CampaignRecord.toJson]
  have hidentity : recordIdentity record.toJson "id" "campaign" "campaign record is missing id, manifest or shard" =
      .ok (record.id, record.manifest, record.shard) :=
    recordIdentity_eq (by simp [CampaignRecord.toJson, Json.tryString]) (by simp [CampaignRecord.toJson, Json.tryString])
      (by simp [CampaignRecord.toJson, Json.tryString]) h.id h.manifest h.shard
  have hdigest : jsonString record.toJson "manifest_digest" = some record.manifestDigest.toHex := by
    simp [CampaignRecord.toJson, Json.tryString]
  have hstate : jsonString record.toJson "state" = some record.state.name := by simp [CampaignRecord.toJson, Json.tryString]
  have hboundaries : readMember record.toJson "crossed_boundaries" "campaign record crossed_boundaries must be an array"
      crossedBoundaryFromJson = .ok record.crossedBoundaries := by
    have hmember : record.toJson.find "crossed_boundaries" =
        some (.array (record.crossedBoundaries.map fun boundary => .string boundary.str)) := by simp [CampaignRecord.toJson]
    rw [readMember, hmember]
    exact mapM_read fun boundary hmem => crossedBoundaryFromJson_str (h.crossedBoundaries boundary hmem)
  have hevents : readMember record.toJson "events" "campaign record events must be an array" campaignEventFromJson =
      .ok record.events := by
    have hmember : record.toJson.find "events" = some (.array (record.events.map CampaignEvent.toJson)) := by
      simp [CampaignRecord.toJson, CampaignEvent.toJson]
    rw [readMember, hmember]
    exact mapM_read fun event _ => campaignEventFromJson_toJson event
  have hcrossed : jsonBoolOr record.toJson "irreversible_boundary_crossed" false = record.irreversibleBoundaryCrossed := by
    simp [CampaignRecord.toJson, jsonBoolOr, Json.tryBool]
  have hdetail : jsonStringOr record.toJson "detail" "" = record.detail := by
    simp [CampaignRecord.toJson, jsonStringOr, Json.tryString]
  unfold campaignRecordFromJson
  simp only [hobject, refuseUnless_true, Result.ok_bind, hidentity, digestMember_toHex hdigest, hstate, orRefuse_some,
    CampaignState.fromName_name, hboundaries, hevents, hcrossed, hdetail]
  simp only [jsonU64Or, CampaignRecord.toJson, jsonU64_set, Json.tryU64]
  rfl

end FabricEvolution
