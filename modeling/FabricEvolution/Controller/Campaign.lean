import FabricEvolution.Node.Step

/-!
# Manifests, campaigns and handoffs

* `EvolutionManifest` : what the controller reads of an admitted manifest;
* `HandoffPhase`, `HandoffRecord`, `validateHandoffTransition` : the handoff lifecycle;
* `CampaignState`, `CampaignAction`, `evaluateCampaignAction` : the campaign state machine, a pure decision;
* `evaluateWindow` : the mixed-version window accounting.
-/

namespace FabricEvolution
open Lib

/-! ## Manifests -/

structure ComponentSpec where
  id : ComponentId
  software : SoftwareVersion
  protocol : ProtocolVersion
  schema : Nat
  host : String := "127.0.0.1"
  port : Nat

/-- The bounded period during which predecessor and successor both exist; 0 is no bound. -/
structure MixedVersionWindow where
  maxDurationMs : Nat := 0
  maxOperations : Nat := 0

structure EvolutionManifest where
  id : ManifestId
  campaign : CampaignId
  shard : ShardId
  source : ComponentSpec
  target : ComponentSpec
  window : MixedVersionWindow := {}
  /-- The window bounds of the compatibility evidence. -/
  compatibility : MixedVersionWindow := {}
  migrations : List MigrationStepSpec := []
  digest : Digest := .zero

/-- The declared window intersected with the compatibility evidence. -/
def EvolutionManifest.effectiveWindow (manifest : EvolutionManifest) : MixedVersionWindow :=
  let bound (declared evidence : Nat) := if evidence ≠ 0 then min declared evidence else declared
  { maxDurationMs := bound manifest.window.maxDurationMs manifest.compatibility.maxDurationMs
    maxOperations := bound manifest.window.maxOperations manifest.compatibility.maxOperations }

/-! ## Handoffs -/

inductive HandoffPhase where
  | notStarted
  | prepared
  | snapshotSynchronized
  | caughtUp
  | readinessVerified
  | predecessorFenced
  | authorityTransferred
  | successorVerified
  | predecessorRetired
  | failed
  | aborted
deriving DecidableEq, Inhabited

namespace HandoffPhase

def name : HandoffPhase → String
  | notStarted => "not_started"
  | prepared => "prepared"
  | snapshotSynchronized => "snapshot_synchronized"
  | caughtUp => "caught_up"
  | readinessVerified => "readiness_verified"
  | predecessorFenced => "predecessor_fenced"
  | authorityTransferred => "authority_transferred"
  | successorVerified => "successor_verified"
  | predecessorRetired => "predecessor_retired"
  | failed => "failed"
  | aborted => "aborted"

/-- The value of the enumerator, by which `<` and `>=` compare. -/
def value : HandoffPhase → Nat
  | notStarted => 0
  | prepared => 1
  | snapshotSynchronized => 2
  | caughtUp => 3
  | readinessVerified => 4
  | predecessorFenced => 5
  | authorityTransferred => 6
  | successorVerified => 7
  | predecessorRetired => 8
  | failed => 9
  | aborted => 10

def isForward (phase : HandoffPhase) : Bool := phase ≠ failed && phase ≠ aborted

def isTerminal (phase : HandoffPhase) : Bool := phase = predecessorRetired || phase = failed || phase = aborted

/-- The index among the forward phases, for "at least this far" comparisons. -/
def rank (phase : HandoffPhase) : Int := if phase.isForward then phase.value else -1

def next : HandoffPhase → Option HandoffPhase
  | notStarted => some prepared
  | prepared => some snapshotSynchronized
  | snapshotSynchronized => some caughtUp
  | caughtUp => some readinessVerified
  | readinessVerified => some predecessorFenced
  | predecessorFenced => some authorityTransferred
  | authorityTransferred => some successorVerified
  | successorVerified => some predecessorRetired
  | predecessorRetired | failed | aborted => none

/-- The window in which a pause is deferred: authority must not be split. -/
def isAuthorityTransitionWindow (phase : HandoffPhase) : Bool :=
  phase = predecessorFenced || phase = authorityTransferred

end HandoffPhase

/-- Strictly forward, an entry into a terminal phase, or a no-op. -/
def validateHandoffTransition (source target : HandoffPhase) : Result Unit :=
  if source = target then .ok ()
  else if !source.isForward ∧ source ≠ .notStarted then
    .error ⟨.illegalTransition, "handoff is already in a terminal phase",
      .ofPairs [("from", .string source.name), ("to", .string target.name)]⟩
  else if target = .failed ∨ target = .aborted then .ok ()
  else if source.next ≠ some target then
    .error ⟨.illegalTransition, "handoff phases must advance one step at a time",
      .ofPairs [("from", .string source.name), ("to", .string target.name),
        ("expected", .string ((source.next.map (·.name)).getD "none"))]⟩
  else .ok ()

structure PhaseTransition where
  source : HandoffPhase
  target : HandoffPhase
  atMs : Nat
  attempt : Nat
  note : String

structure HandoffRecord where
  id : Nat
  campaign : CampaignId
  shard : ShardId
  manifest : ManifestId
  manifestDigest : Digest := .zero
  predecessor : IncarnationId
  /-- The incarnation a replaced predecessor had. -/
  previousPredecessor : IncarnationId := default
  successor : IncarnationId
  phase : HandoffPhase := .notStarted
  attempt : Nat := 1
  epoch : Nat := 0
  generation : Nat := 0
  snapshot : Nat := 0
  snapshotDigest : Digest := .zero
  snapshotLsn : Nat := 0
  targetLsn : Nat := 0
  token : AuthorityToken := .nil
  fence : Nat := 0
  startedAtMs : Nat := 0
  updatedAtMs : Nat := 0
  lastError : String := ""
  history : List PhaseTransition := []
deriving Inhabited

def maxHandoffHistoryEntries : Nat := 256

def maxHandoffRestarts : Nat := 8

namespace HandoffRecord

def reached (handoff : HandoffRecord) (phase : HandoffPhase) : Bool :=
  phase.rank ≤ handoff.phase.rank && handoff.phase.isForward

/-- The handoff moves to `target`, the transition is remembered. -/
def moved (handoff : HandoffRecord) (target : HandoffPhase) (atMs : Nat) (note : String) : HandoffRecord :=
  { handoff with
    history := pushBounded maxHandoffHistoryEntries handoff.history
      ⟨handoff.phase, target, atMs, handoff.attempt, note⟩
    phase := target }

/-- The handoff re-bound to its participants and rewound. -/
def rewound (handoff : HandoffRecord) (predecessor successor : IncarnationId) (target : HandoffPhase)
    (atMs : Nat) (note : String) : HandoffRecord :=
  let handoff := { handoff with
    history := pushBounded maxHandoffHistoryEntries handoff.history
      ⟨handoff.phase, target, atMs, handoff.attempt + 1, note⟩
    previousPredecessor := if handoff.predecessor ≠ predecessor then handoff.predecessor
      else handoff.previousPredecessor
    predecessor, successor
    attempt := handoff.attempt + 1
    phase := target }
  if target = .notStarted then
    { handoff with snapshot := 0, snapshotDigest := .zero, snapshotLsn := 0, targetLsn := 0 }
  else handoff

end HandoffRecord

/-! ## Campaigns -/

inductive CampaignState where
  | planned | preflighting | running | paused | aborting | aborted | forwardRecovery | completed | failed
deriving DecidableEq, Inhabited

namespace CampaignState

def name : CampaignState → String
  | planned => "planned"
  | preflighting => "preflighting"
  | running => "running"
  | paused => "paused"
  | aborting => "aborting"
  | aborted => "aborted"
  | forwardRecovery => "forward_recovery"
  | completed => "completed"
  | failed => "failed"

def isTerminal (state : CampaignState) : Bool := state = aborted || state = completed || state = failed

end CampaignState

inductive CampaignAction where
  | plan | preflight | start | pause | resume | abort | complete | fail | enterForwardRecovery | confirmAbort
deriving DecidableEq

def CampaignAction.name : CampaignAction → String
  | plan => "plan"
  | preflight => "preflight"
  | start => "start"
  | pause => "pause"
  | resume => "resume"
  | abort => "abort"
  | complete => "complete"
  | fail => "fail"
  | enterForwardRecovery => "forward_recovery"
  | confirmAbort => "confirm_abort"

structure CampaignEvent where
  source : CampaignState
  target : CampaignState
  action : CampaignAction
  atMs : Nat
  detail : String

structure CampaignRecord where
  id : CampaignId
  manifest : ManifestId
  manifestDigest : Digest := .zero
  shard : ShardId
  state : CampaignState := .planned
  handoff : Nat := 0
  revision : Nat := 1
  epoch : Nat := 0
  generation : Nat := 0
  operationsInWindow : Nat := 0
  windowStartedAtMs : Nat := 0
  updatedAtMs : Nat := 0
  irreversibleBoundaryCrossed : Bool := false
  crossedBoundaries : List MigrationStepId := []
  detail : String := ""
  events : List CampaignEvent := []
deriving Inhabited

def maxCampaignEvents : Nat := 256

/-- Whether an action may be applied: accepted into a state, put off, or refused by a rule. -/
inductive ActionDecision where
  | accepted (nextState : CampaignState) (rule reason : String)
  | deferred (rule reason : String)
  | rejected (rule reason : String)

def evaluateCampaignAction (record : CampaignRecord) (action : CampaignAction) (handoff : HandoffRecord)
    (irreversibleCrossed : Bool) (manifestId : ManifestId) : ActionDecision :=
  if record.manifest ≠ manifestId then
    .rejected "campaign.manifest_binding" "the campaign is bound to a different manifest than the one supplied"
  else if record.state.isTerminal then
    .rejected "campaign.terminal" "the campaign has already reached a terminal state"
  else
    match action with
    | .plan => .rejected "campaign.plan_once" "the campaign has already been planned"
    | .preflight =>
      if record.state ≠ .planned then
        .rejected "campaign.preflight_from_planned" "preflight only applies to a planned campaign"
      else
        .accepted .preflighting "campaign.preflight_from_planned" "preflight is permitted for a planned campaign"
    | .start =>
      if record.state ≠ .preflighting ∧ record.state ≠ .paused then
        .rejected "campaign.start_requires_preflight"
          "a campaign may only start after preflight, or resume from paused"
      else .accepted .running "campaign.start_requires_preflight" "the campaign enters the running state"
    | .pause =>
      if record.state ≠ .running then
        .rejected "campaign.pause_from_running" "only a running campaign can be paused"
      else if handoff.phase.isAuthorityTransitionWindow then
        .deferred "campaign.pause_deferred_in_authority_window"
          ("authority is mid-transfer; pausing here could leave a shard without an owner, so the " ++
            "request is deferred to the next phase boundary")
      else .accepted .paused "campaign.pause_from_running" "the campaign pauses at a safe phase boundary"
    | .resume =>
      if record.state ≠ .paused then
        .rejected "campaign.resume_from_paused" "only a paused campaign can be resumed"
      else .accepted .running "campaign.resume_from_paused" "the campaign resumes"
    | .abort =>
      if record.state = .aborting then
        .accepted .aborting "campaign.abort_idempotent" "the campaign is already aborting"
      else if irreversibleCrossed || record.irreversibleBoundaryCrossed || handoff.reached .authorityTransferred then
        .accepted .forwardRecovery "campaign.abort_forward_recovery"
          ("an irreversible migration boundary has been crossed or authority has already moved, so " ++
            "rolling back is unsafe and the campaign continues forward instead")
      else
        .accepted .aborting "campaign.abort_reversible"
          "no irreversible boundary has been crossed, so the campaign can roll back"
    | .complete =>
      if record.state ≠ .running ∧ record.state ≠ .forwardRecovery then
        .rejected "campaign.complete_from_running" "a campaign can only complete from running or forward recovery"
      else if !handoff.reached .successorVerified then
        .rejected "campaign.complete_requires_verified_successor"
          "the successor has not been verified as authoritative"
      else
        .accepted .completed "campaign.complete_requires_verified_successor"
          "the successor is verified and the predecessor is retired"
    | .fail => .accepted .failed "campaign.fail_on_error" "the campaign cannot make progress safely"
    | .enterForwardRecovery =>
      .accepted .forwardRecovery "campaign.forward_recovery"
        "the campaign continues forward because rollback is unsafe"
    | .confirmAbort =>
      if record.state ≠ .aborting then
        .rejected "campaign.confirm_abort_from_aborting"
          "only a campaign that is aborting can be confirmed as aborted"
      else
        .accepted .aborted "campaign.confirm_abort_from_aborting" "rollback completed and the campaign is aborted"

/-! ## The mixed-version window -/

structure WindowStatus where
  isOpen : Bool := false
  openedAtMs : Nat := 0
  operations : Nat := 0
  operationLimit : Nat := 0
  durationLimitMs : Nat := 0
  elapsedMs : Nat := 0
  exhausted : Bool := false
  reason : String := ""

def evaluateWindow (record : CampaignRecord) (window : MixedVersionWindow) (nowMs : Nat) : WindowStatus :=
  let limits : WindowStatus := { operationLimit := window.maxOperations, durationLimitMs := window.maxDurationMs }
  if record.windowStartedAtMs = 0 then { limits with reason := "the mixed-version window has not opened" }
  else
    let status := { limits with
      isOpen := true
      openedAtMs := record.windowStartedAtMs
      operations := record.operationsInWindow
      elapsedMs := nowMs - record.windowStartedAtMs }
    if window.maxOperations ≠ 0 ∧ status.operations > window.maxOperations then
      { status with exhausted := true, reason := "the mixed-version operation budget is exhausted" }
    else if window.maxDurationMs ≠ 0 ∧ status.elapsedMs > window.maxDurationMs then
      { status with exhausted := true, reason := "the mixed-version time budget is exhausted" }
    else { status with reason := "the mixed-version window is open" }

end FabricEvolution
