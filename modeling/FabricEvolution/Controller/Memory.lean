import FabricEvolution.Authority.Step
import FabricEvolution.Controller.Campaign
import FabricEvolution.Lib.Program

/-!
# The controller: memory and effects

* `Controller` : what the controller process holds, `Durable` : what its state file holds;
* `ControllerOp` : the effects of a controller operation (clock readings, calls of the nodes, journal
  appends, saves), `Control` : computations over them;
* the small computations the operations are made of: `now`, `view`, `call`, `append`, `save`, `authorityOp`.

The explanation and the status document that an operation also produces are left out: nothing reads them.
-/

namespace FabricEvolution
open Lib

structure EndpointRef where
  component : ComponentId
  host : String
  port : Nat

inductive EpochEventKind where
  | shardEstablished | leaseGranted | leaseRenewed | fenceRequested | fenceAcknowledged | leaseRevoked
  | epochAdvanced | handoffPhase | campaignTransition | migrationApplied | reconciliation | refusal
deriving DecidableEq

/-- An entry of the epoch journal. -/
structure EpochEvent where
  kind : EpochEventKind
  shard : ShardId
  epoch : Nat
  generation : Nat
  atMs : Nat
  payload : Json

/-! ## Memory -/

structure ControllerOptions where
  controllerId : ComponentId
  leaseTtlMs : Nat := 6000
  maxCatchUpRounds : Nat := 128
  maxRecordsPerRound : Nat := 256

/-- The options, and the two checks of a manifest that other modules of the program make: its admission
(sealing, validation, digest and compatibility evidence) and the negotiation of a group protocol. -/
structure ControllerSetup where
  options : ControllerOptions
  admission : EvolutionManifest → Result EvolutionManifest
  negotiate : EvolutionManifest → ProtocolHello → ProtocolHello → Result Unit

structure Controller where
  authority : AuthorityRegistry := .empty
  manifest : Option EvolutionManifest := none
  campaign : Option CampaignRecord := none
  handoff : Option HandoffRecord := none
  sourceEndpoint : Option EndpointRef := none
  targetEndpoint : Option EndpointRef := none
  lastSourceReport : Option NodeReport := none
  lastTargetReport : Option NodeReport := none
  predecessorHistory : List IncarnationId := []
  fencedPredecessorClaim : Option AuthorityClaim := none
  windowStartLsn : Nat := 0
  nextHandoffId : Nat := 1
  nextEpoch : Nat := 1
  controllerIncarnation : IncarnationId := default
  lastPauseDeferralMs : Nat := 0
  lastDeferralReason : String := ""

/-- What the state file of the controller holds. -/
structure Durable where
  authority : AuthorityRegistry
  manifest : Option EvolutionManifest
  campaign : Option CampaignRecord
  handoff : Option HandoffRecord
  fencedPredecessorClaim : Option AuthorityClaim
  windowStartLsn : Nat
  nextHandoffId : Nat
  nextEpoch : Nat
  controllerIncarnation : IncarnationId
  lastPauseDeferralMs : Nat
  lastDeferralReason : String

namespace Controller

/-- What `save_state` writes. -/
def toDurable (c : Controller) : Durable :=
  { authority := c.authority, manifest := c.manifest, campaign := c.campaign, handoff := c.handoff,
    fencedPredecessorClaim := c.fencedPredecessorClaim, windowStartLsn := c.windowStartLsn,
    nextHandoffId := c.nextHandoffId, nextEpoch := c.nextEpoch, controllerIncarnation := c.controllerIncarnation,
    lastPauseDeferralMs := c.lastPauseDeferralMs, lastDeferralReason := c.lastDeferralReason }

def endpointOf (spec : ComponentSpec) : EndpointRef := ⟨spec.id, spec.host, spec.port⟩

/-- The memory of a fresh process on a state file: the registry comes back through its own codec. -/
def restore (durable : Durable) (authority : AuthorityRegistry) : Controller :=
  { authority := authority
    manifest := durable.manifest
    campaign := durable.campaign
    handoff := durable.handoff
    sourceEndpoint := durable.manifest.map fun manifest => endpointOf manifest.source
    targetEndpoint := durable.manifest.map fun manifest => endpointOf manifest.target
    fencedPredecessorClaim := durable.fencedPredecessorClaim
    windowStartLsn := durable.windowStartLsn
    nextHandoffId := durable.nextHandoffId
    nextEpoch := durable.nextEpoch
    controllerIncarnation := durable.controllerIncarnation
    lastPauseDeferralMs := durable.lastPauseDeferralMs
    lastDeferralReason := durable.lastDeferralReason }

/-- A controller that died during preflight restarts preflight. -/
def replan (c : Controller) : Controller :=
  { c with campaign := c.campaign.map fun campaign =>
      if campaign.state = .preflighting then { campaign with state := .planned } else campaign }

/-- The memory `open` leaves: the state file restored under the incarnation of this boot. -/
def opened (c : Controller) (incarnation : IncarnationId) : Controller :=
  { c.replan with controllerIncarnation := incarnation }

end Controller

/-! ## Effects -/

/-- The two components under evolution. -/
inductive NodeRole where
  | source
  | target
deriving DecidableEq

def Controller.endpoint (c : Controller) : NodeRole → Option EndpointRef
  | .source => c.sourceEndpoint
  | .target => c.targetEndpoint

/-- The clock readings of a registry operation and the token it may mint. -/
structure Readings where
  nowMs : Nat
  slotNowMs : Nat
  token : AuthorityToken

inductive ControllerOp where
  | now
  /-- The readings an operation on the registry takes. -/
  | authority (op : RegistryOp)
  | call (role : NodeRole) (request : NodeRequest)
  | append (event : EpochEvent)
  /-- Write the state file. -/
  | save
  /-- No effect: the mark at which `advance` enters the step of a phase. -/
  | enter (phase : HandoffPhase)

/-- A call is answered, with a body or a refusal, unless the transport fails. -/
abbrev ControllerOp.Answer : ControllerOp → Type
  | now => Nat
  | authority _ => Readings
  | call _ _ => Result (Result NodeAnswer)
  | append _ => Result Unit
  | save => Result Unit
  | enter _ => Unit

abbrev Control (α : Type) : Type := Eff Controller ControllerOp ControllerOp.Answer Status α

namespace Control

def now : Control Nat := Eff.perform ControllerOp.now

/-- How a client reports a transport failure. -/
def callFailed (endpoint : Option EndpointRef) (failure : Status) : Status :=
  { failure with
    message := "call to " ++ ((endpoint.map (·.component.str)).getD "") ++ " failed: " ++ failure.message }

def call (role : NodeRole) (request : NodeRequest) : Control (Result NodeAnswer) := do
  let response : Result (Result NodeAnswer) ← Eff.perform (ControllerOp.call role request)
  let c ← Eff.get
  match response with
  | .error failure => return .error (callFailed (c.endpoint role) failure)
  | .ok answer => return answer

/-- A call whose refusal ends the operation. -/
def callOk (role : NodeRole) (request : NodeRequest) : Control NodeAnswer := do
  let answer ← call role request
  Eff.lift answer

def append (event : EpochEvent) : Control Unit := do
  let appended : Result Unit ← Eff.perform (ControllerOp.append event)
  Eff.lift appended

def save : Control Unit := do
  let saved : Result Unit ← Eff.perform ControllerOp.save
  Eff.lift saved

/-- A save whose failure is not looked at. -/
def saveQuietly : Control Unit := do
  let _ ← Eff.attempt save
  return ()

/-- An operation on the registry. -/
def authorityOp (op : RegistryOp) : Control RegistryOutcome := do
  let readings : Readings ← Eff.perform (ControllerOp.authority op)
  let c ← Eff.get
  let done := op.exec c.authority readings.nowMs readings.slotNowMs readings.token
  Eff.modify fun c => { c with authority := done.1 }
  return done.2

def orThrow {α : Type} (value : Option α) (refusal : Status) : Control α := Eff.lift (orRefuse value refusal)

/-- The authority view of a shard. -/
def view (shard : ShardId) : Control AuthorityView := do
  let nowMs ← now
  let c ← Eff.get
  Eff.lift (c.authority.view shard nowMs)

def noHandoff : Status := notFound "no handoff is in progress"

def noManifest : Status := notFound "no manifest has been planned"

def noCampaign : Status := notFound "no campaign has been planned"

/-- The handoff of the operations that run with one. -/
def theHandoff : Control HandoffRecord := do
  let c ← Eff.get
  orThrow c.handoff noHandoff

def theManifest : Control EvolutionManifest := do
  let c ← Eff.get
  orThrow c.manifest noManifest

def theCampaign : Control CampaignRecord := do
  let c ← Eff.get
  orThrow c.campaign noCampaign

def modifyHandoff (f : HandoffRecord → HandoffRecord) : Control Unit :=
  Eff.modify fun c => { c with handoff := c.handoff.map f }

def modifyCampaign (f : CampaignRecord → CampaignRecord) : Control Unit :=
  Eff.modify fun c => { c with campaign := c.campaign.map f }

def currentEpoch (c : Controller) (shard : ShardId) : Option Nat := (c.authority.find shard).map (·.epoch)

def currentGeneration (c : Controller) (shard : ShardId) : Option Nat := (c.authority.find shard).map (·.generation)

end Control

/-! ## Outcomes and answers as the controller reads them -/

def RegistryOutcome.check : RegistryOutcome → Result Unit
  | .refused refusal => .error refusal
  | _ => .ok ()

/-- The lease a grant returns. -/
def RegistryOutcome.lease : RegistryOutcome → Result AuthorityLease
  | .refused refusal => .error refusal
  | .renewed lease | .issued lease => .ok lease
  | .done => .error (.plain .internal "the operation returns no lease")

namespace NodeAnswer

def report? : NodeAnswer → Result NodeReport
  | .report document => .ok document
  | _ => .error (malformed "node report is missing")

def hello? : NodeAnswer → Result ProtocolHello
  | .hello document => .ok document
  | _ => .error (malformed "node hello response is missing the hello document")

def snapshot? : NodeAnswer → Result SnapshotImage
  | .snapshot _ image => .ok image
  | _ => .error (malformed "snapshot response is missing the snapshot document")

/-- The records of a log response. -/
def records? : NodeAnswer → Option (List ReplicationRecord)
  | .records entries _ _ _ => some entries
  | _ => none

def isTruncated : NodeAnswer → Bool
  | .records _ _ _ truncated => truncated
  | _ => false

/-- The `lsn` member of a response. -/
def lsnOr (answer : NodeAnswer) (fallback : Nat) : Nat :=
  match answer with
  | .records _ lsn _ _ => lsn
  | .applied _ lsn => lsn
  | .readiness _ _ lsn _ _ => lsn
  | .installed lsn _ _ => lsn
  | _ => fallback

/-- The `ready` and `reason` members of a readiness response. -/
def ready? : NodeAnswer → Bool × String
  | .readiness ready reason _ _ _ => (ready, reason)
  | _ => (false, "successor is not ready")

def crossedIrreversibleBoundary : NodeAnswer → Bool
  | .migrated _ _ crossed _ _ => crossed
  | _ => false

def stateDigestAfter : NodeAnswer → String
  | .migrated _ digest _ _ _ => digest.toHex
  | _ => ""

end NodeAnswer

/-- A snapshot as its installer reads it. -/
def SnapshotImage.body (image : SnapshotImage) : SnapshotBody :=
  { schema := some image.schema, lsn := some image.lsn, digest := some (some image.digest),
    fields := some image.fields }

/-- The request body that delivers a lease. -/
def GrantBody.ofLease (lease : AuthorityLease) (handoff ttlMs : Nat) : GrantBody :=
  { handoff := some handoff, epoch := some lease.epoch, generation := some lease.generation,
    token := some (some lease.token), mode := some "mutating", ttlMs := some ttlMs }

/-- The source binding of a claim. -/
def SourceBinding.ofClaim (claim : AuthorityClaim) (schema handoff : Nat) : SourceBinding :=
  { source := claim.incarnation, epoch := claim.epoch, generation := claim.generation, token := claim.token,
    schema, handoff }

end FabricEvolution
