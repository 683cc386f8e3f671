import FabricEvolution.Authority.Codec
import FabricEvolution.Migration.Step

/-!
# The replicated node: messages and state

* `NodeRequest` : a request as the handlers read it. A body member is `none` when it is absent or of the
  wrong type; a member that a handler decodes only after other checks carries the result of its decoding;
* `NodeAnswer` : what a handler answers, `NodeReport` among it;
* `NodeOptions`, `NodeState` : the configuration and the state of one node;
* `NodeDisk` : its state directory, `NodeState.opened` : what a fresh process restores from it;
* `NodeState.startServer`, `NodeState.stop` : the server of a process comes and goes.
-/

namespace FabricEvolution
open Lib

inductive NodeLifecycle where
  | unopened
  /-- Durable state loaded, lease not yet re-confirmed. -/
  | recovering
  | serving
  /-- Explicitly fenced by the controller. -/
  | fenced
  /-- Permanently out of service. -/
  | retired
  | stopped
deriving DecidableEq, Inhabited

def NodeLifecycle.name : NodeLifecycle → String
  | unopened => "unopened"
  | recovering => "recovering"
  | serving => "serving"
  | fenced => "fenced"
  | retired => "retired"
  | stopped => "stopped"

/-! ## Records -/

/-- The source binding a successor must honour when it accepts replicated state. -/
structure SourceBinding where
  source : IncarnationId
  epoch : Nat
  generation : Nat
  token : AuthorityToken
  schema : Nat
  handoff : Nat
deriving DecidableEq

/-- Equal but for the handoff. -/
def SourceBinding.matches (binding other : SourceBinding) : Bool :=
  binding.source = other.source && binding.epoch = other.epoch && binding.generation = other.generation &&
    binding.token = other.token && binding.schema = other.schema

def SourceBinding.toJson (binding : SourceBinding) : Json :=
  (Json.object []).set "incarnation" binding.source.toJson
    |>.set "epoch" (.uint binding.epoch)
    |>.set "generation" (.uint binding.generation)
    |>.set "token" (.string binding.token.toCompactString)
    |>.set "schema" (.uint binding.schema)
    |>.set "handoff" (.uint binding.handoff)

structure ReplicationRecord where
  lsn : Nat
  key : String
  value : String
  epoch : Nat
  generation : Nat
  origin : IncarnationId
  digest : Digest

/-- The members a record digest binds. -/
def ReplicationRecord.content (record : ReplicationRecord) : Json :=
  (Json.object []).set "lsn" (.uint record.lsn)
    |>.set "key" (.string record.key)
    |>.set "value" (.string record.value)
    |>.set "epoch" (.uint record.epoch)
    |>.set "generation" (.uint record.generation)
    |>.set "origin" record.origin.toJson

def replicationRecordDigest (digestOf : Json → Digest) (record : ReplicationRecord) : Digest :=
  digestOf record.content

/-- The image of a document at a log position, and its digest. -/
structure SnapshotImage where
  id : Nat
  lsn : Nat
  schema : Nat
  digest : Digest
  fields : List (String × Option String)

/-- A component's own attestation of its epoch, generation and incarnation. -/
structure NodeReport where
  component : ComponentId
  incarnation : IncarnationId
  shard : ShardId
  software : SoftwareVersion
  protocol : ProtocolVersion
  schema : Nat
  features : Nat
  epoch : Nat
  generation : Nat
  lsn : Nat
  mode : AuthorityMode
  token : AuthorityToken
  leaseExpiresAtMs : Nat
  hasAuthority : Bool
  leaseConfirmed : Bool
  lifecycle : NodeLifecycle
  writesApplied : Nat
  writesRefused : Nat
  readsServed : Nat
  stateDigest : Digest
  recordedSnapshotDigest : Digest
  oldestLoggedLsn : Nat

structure ProtocolHello where
  component : ComponentId
  incarnation : IncarnationId
  software : SoftwareVersion
  protocol : ProtocolVersion
  schema : Nat
  features : Nat
  epoch : Nat
  generation : Nat
  holdsAuthority : Bool

/-! ## Requests -/

/-- A text member with the value it parses to, if it does. -/
structure ParsedText (α : Type) where
  text : String
  value : Option α

structure PrepareBody where
  handoff : Option Nat
  role : Option String
  manifestDigest : Option (Option Digest) := none
  targetSoftware : Option (ParsedText SoftwareVersion) := none
  targetProtocol : Option (ParsedText ProtocolVersion) := none
  targetSchema : Option Nat := none
  source : Option (Result SourceBinding) := none

/-- A snapshot object as its installer reads it; a field that is no string is `none`. -/
structure SnapshotBody where
  schema : Option Nat
  lsn : Option Nat
  digest : Option (Option Digest)
  fields : Option (List (String × Option String))

structure ApplyBody where
  handoff : Option Nat
  source : Option (Result SourceBinding)
  records : Option (List (Result ReplicationRecord))

structure FenceBody where
  handoff : Option Nat
  fenceId : Option Nat
  target : Option (Result IncarnationId)

structure GrantBody where
  handoff : Option Nat
  epoch : Option Nat
  generation : Option Nat
  token : Option (Option AuthorityToken)
  mode : Option String
  ttlMs : Option Nat

structure WriteBody where
  claim : Option (Result AuthorityClaim)
  key : Option String
  value : Option String

inductive NodeRequest where
  | hello
  | status
  | faults (op action : Option String) (count : Option Nat)
  | prepare (body : PrepareBody)
  | snapshot (handoff : Option Nat)
  | installSnapshot (handoff : Option Nat) (snapshot : Option SnapshotBody)
  | readSince (fromLsn maxRecords : Option Nat)
  | applyRecords (body : ApplyBody)
  | readiness (handoff : Option Nat) (targetLsn targetSchema : Nat)
  | fence (body : FenceBody)
  | grantAuthority (body : GrantBody)
  | reattest (token : Option (Option AuthorityToken))
  | migrate (handoff : Option Nat) (steps : Option (List (Result MigrationStepSpec)))
  | retire (handoff : Option Nat)
  | write (body : WriteBody)
  | read (key : Option String) (allowStale : Bool)
  | unknown (op : String)

def NodeRequest.op : NodeRequest → String
  | hello => "node.hello"
  | status => "node.status"
  | faults .. => "node.faults"
  | prepare .. => "node.prepare"
  | snapshot .. => "node.snapshot"
  | installSnapshot .. => "node.install_snapshot"
  | readSince .. => "node.read_since"
  | applyRecords .. => "node.apply_records"
  | readiness .. => "node.readiness"
  | fence .. => "node.fence"
  | grantAuthority .. => "node.grant_authority"
  | reattest .. => "node.reattest"
  | migrate .. => "node.migrate"
  | retire .. => "node.retire"
  | write .. => "node.write"
  | read .. => "node.read"
  | unknown op => op

/-! ## Answers -/

inductive NodeAnswer where
  | hello (hello : ProtocolHello)
  | report (report : NodeReport)
  /-- The empty body of `node.faults`. -/
  | done
  | preparedSuccessor (incarnation : IncarnationId) (source : SourceBinding)
  | preparedPredecessor (incarnation : IncarnationId) (lsn schema : Nat)
  | snapshot (handoff : Nat) (image : SnapshotImage)
  | installed (lsn schema : Nat) (digest : Digest)
  | records (records : List ReplicationRecord) (lsn oldestLsn : Nat) (truncated : Bool)
  | applied (count lsn : Nat)
  | readiness (ready : Bool) (reason : String) (lsn schema : Nat) (digest : Digest)
  | fenced (idempotent : Bool) (fenceId : Nat) (incarnation : IncarnationId) (lsn : Nat)
  | granted (incarnation : IncarnationId) (epoch generation expiresAtMs : Nat) (mode : AuthorityMode)
  | reattested (incarnation : IncarnationId) (generation : Nat)
  | migrated (schema : Nat) (stateDigestAfter : Digest) (crossedIrreversibleBoundary : Bool)
      (applied : List MigrationStepId) (handoff : Nat)
  | retired (handoff : Nat)
  | written (lsn epoch generation : Nat) (incarnation : IncarnationId)
  | value (value : Option String) (lsn : Nat) (authoritative : Bool) (lifecycle : NodeLifecycle)
      (incarnation : IncarnationId) (epoch generation schema : Nat) (stateDigest : Digest)

/-! ## State -/

structure NodeOptions where
  component : ComponentId
  shard : ShardId
  software : SoftwareVersion := ⟨1, 0, 0, ""⟩
  protocol : ProtocolVersion := ⟨1, 0⟩
  schema : Nat := 1
  features : Nat := 0
  leaseTtlMs : Nat := 5000
  maxLogRecords : Nat := 20000
  maxRecordsPerResponse : Nat := 512

structure FaultRule where
  op : String
  action : String
  remaining : Nat

/-- What the state file holds. -/
structure NodeSaved where
  document : StateDocument
  lsn : Nat
  operationId : Nat
  retired : Bool
  journal : MigrationJournal
  snapshotLsn : Nat
  snapshotId : Nat
  snapshotDigest : Digest
  lease : Option AuthorityLease

/-- The state directory: the boot counter of the identity file, the state file and the record log. -/
structure NodeDisk where
  bootCounter : Nat
  saved : Option NodeSaved := none
  records : List ReplicationRecord := []

structure NodeState where
  incarnation : IncarnationId
  bootCounter : Nat
  lifecycle : NodeLifecycle
  document : StateDocument
  lsn : Nat
  operationId : Nat := 0
  records : List ReplicationRecord := []
  journal : MigrationJournal := {}
  lease : Option AuthorityLease := none
  leaseConfirmed : Bool := false
  retiredMarker : Bool := false
  lastFenceId : Nat := 0
  expectedSource : Option SourceBinding := none
  recordedSnapshotDigest : Digest := .zero
  lastSnapshotId : Nat := 0
  lastSnapshotLsn : Nat := 0
  currentHandoff : Nat := 0
  faults : List FaultRule := []
  writesApplied : Nat := 0
  writesRefused : Nat := 0
  readsServed : Nat := 0
  disk : NodeDisk

/-- The outcomes of the file effects of one request. -/
structure NodeIo where
  save : Result Unit := .ok ()
  append : Nat → Result Unit := fun _ => .ok ()
  compact : Nat → Result Unit := fun _ => .ok ()
  truncate : Result Unit := .ok ()

namespace NodeState

/-- What `save_state` writes. -/
def toSaved (node : NodeState) : NodeSaved :=
  { document := node.document, lsn := node.lsn, operationId := node.operationId, retired := node.retiredMarker,
    journal := node.journal, snapshotLsn := node.lastSnapshotLsn, snapshotId := node.lastSnapshotId,
    snapshotDigest := node.recordedSnapshotDigest, lease := node.lease }

def saveState (node : NodeState) (io : NodeIo) : NodeState × Result Unit :=
  match io.save with
  | .error refusal => (node, .error refusal)
  | .ok () => ({ node with disk := { node.disk with saved := some node.toSaved } }, .ok ())

/-- Save, then answer; a failed save is the answer. -/
def saveThen (node : NodeState) (io : NodeIo) (answer : NodeAnswer) : NodeState × Result NodeAnswer :=
  match node.saveState io with
  | (node, .error refusal) => (node, .error refusal)
  | (node, .ok ()) => (node, .ok answer)

/-- The recorded lease as the holder would present it. -/
def ownClaim (node : NodeState) : Option AuthorityClaim := node.lease.map (·.claim)

/-- The lease of a state file as a fresh process reads it: evidence, not authority. -/
def restoreLease (lease : Option AuthorityLease) : Option AuthorityLease :=
  match lease with
  | none => none
  | some lease =>
    match authorityLeaseFromJson lease.toJson with
    | .error _ => none
    | .ok restored => some { restored with attested := false }

/-- The node a fresh process opens on a state directory. -/
def opened (options : NodeOptions) (disk : NodeDisk) (uuid : IncarnationUuid) : NodeState :=
  let saved := disk.saved.getD
    { document := { schema := options.schema }, lsn := 0, operationId := 0, retired := false, journal := {},
      snapshotLsn := 0, snapshotId := 0, snapshotDigest := .zero, lease := none }
  let node : NodeState :=
    { incarnation := ⟨options.component, uuid, disk.bootCounter + 1⟩
      bootCounter := disk.bootCounter + 1
      lifecycle := if saved.retired then .retired else .recovering
      document := saved.document
      lsn := saved.lsn
      operationId := saved.operationId
      -- A record beyond the committed position was never acknowledged.
      records := disk.records.filter (·.lsn ≤ saved.lsn)
      journal := saved.journal
      lease := restoreLease saved.lease
      retiredMarker := saved.retired
      recordedSnapshotDigest := saved.snapshotDigest
      lastSnapshotId := saved.snapshotId
      lastSnapshotLsn := saved.snapshotLsn
      disk := disk }
  { node with
    disk := { bootCounter := disk.bootCounter + 1, saved := some node.toSaved, records := node.records } }

/-- Only a node that is recovering begins to serve; any other keeps its lifecycle. -/
def startServer (node : NodeState) : NodeState :=
  { node with lifecycle := if node.lifecycle = .recovering then .serving else node.lifecycle }

def stop (node : NodeState) : NodeState :=
  { node with
    lifecycle := if node.lifecycle ≠ .unopened ∧ node.lifecycle ≠ .retired then .stopped else node.lifecycle }

/-- The node a fresh process opens and serves on a state directory. -/
def reopen (options : NodeOptions) (disk : NodeDisk) (uuid : IncarnationUuid) : NodeState :=
  (opened options disk uuid).startServer

/-- A node that boots on an empty directory. -/
def boot (options : NodeOptions) (uuid : IncarnationUuid) : NodeState :=
  reopen options { bootCounter := 0 } uuid

end NodeState

end FabricEvolution
