import FabricEvolution.Node.State

/-!
# The request handlers of a node

One definition a request; each takes the clock readings and the outcomes of the file effects it meets, and
returns the node with the answer or the refusal. `dispatch` selects the handler, `handle` adds the injected
faults.

* `requireAuthority` : the check of every authoritative write;
* `fence`, `grantAuthority`, `reattest`, `retire` : the requests that change what it sees.
-/

namespace FabricEvolution
open Lib

/-- A lease its holder may no longer act under. -/
def AuthorityLease.withdrawn (lease : AuthorityLease) (state : LeaseState) : AuthorityLease :=
  { lease with state := state, attested := false }

def parseHandoffId (value : Option Nat) : Result Nat :=
  orRefuse (value.filter (· ≠ 0)) (invalidArgument "request is missing a positive handoff id")

namespace NodeState
variable (options : NodeOptions) (digestOf : Json → Digest) (io : NodeIo) (nowMs laterMs : Nat) (node : NodeState)

/-! ## Digests and reports -/

/-- The digest of a document at a log position. -/
def snapshotDigest (document : StateDocument) (lsn : Nat) : Digest :=
  digestOf ((Json.object []).set "schema" (.uint document.schema)
    |>.set "lsn" (.uint lsn)
    |>.set "fields" document.fieldsToJson)

/-- A confirmed lease that has not expired. -/
def leaseLive : Bool :=
  match node.lease with
  | none => false
  | some lease => node.leaseConfirmed && nowMs < lease.expiresAtMs

def leaseMode : AuthorityMode := (node.lease.map (·.mode)).getD .none

def leaseEpoch : Nat := (node.lease.map (·.epoch)).getD 0

def leaseGeneration : Nat := (node.lease.map (·.generation)).getD 0

def withdrawnLease (state : LeaseState) : Option AuthorityLease := node.lease.map (·.withdrawn state)

def report : NodeReport :=
  { component := options.component
    incarnation := node.incarnation
    shard := options.shard
    software := options.software
    protocol := options.protocol
    schema := node.document.schema
    features := options.features
    epoch := node.leaseEpoch
    generation := node.leaseGeneration
    lsn := node.lsn
    mode := node.leaseMode
    token := (node.lease.map (·.token)).getD .nil
    leaseExpiresAtMs := (node.lease.map (·.expiresAtMs)).getD 0
    hasAuthority := node.leaseLive nowMs
    leaseConfirmed := node.leaseConfirmed
    lifecycle := node.lifecycle
    writesApplied := node.writesApplied
    writesRefused := node.writesRefused
    readsServed := node.readsServed
    stateDigest := snapshotDigest digestOf node.document node.lsn
    recordedSnapshotDigest := node.recordedSnapshotDigest
    oldestLoggedLsn := (node.records.head?.map (·.lsn)).getD node.lsn }

def helloOf : ProtocolHello :=
  { component := options.component
    incarnation := node.incarnation
    software := options.software
    protocol := options.protocol
    schema := node.document.schema
    features := options.features
    epoch := node.leaseEpoch
    generation := node.leaseGeneration
    holdsAuthority := node.leaseLive nowMs }

/-! ## Injected faults -/

/-- The action of the first armed rule for `op`, which is used up once. -/
def takeFault (op : String) : NodeState × Option String :=
  let armed : FaultRule → Bool := fun rule => rule.op = op && 0 < rule.remaining
  match node.faults.find? armed with
  | none => (node, none)
  | some rule =>
    ({ node with faults := modifyFirst armed (fun rule => { rule with remaining := rule.remaining - 1 }) node.faults },
      some rule.action)

def maxFaultRules : Nat := 16

def setFault (op action : String) (count : Nat) : NodeState :=
  let same : FaultRule → Bool := fun rule => rule.op = op && rule.action = action
  if node.faults.any same then
    { node with faults := modifyFirst same ({ · with remaining := count }) node.faults }
  else { node with faults := pushBounded maxFaultRules node.faults ⟨op, action, count⟩ }

def faultsHandler (op action : Option String) (count : Option Nat) : NodeState × Result NodeAnswer :=
  match op, action, count.filter (· ≤ 1000) with
  | some op, some action, some count => (node.setFault op action count, .ok .done)
  | _, _, _ => (node, .error (invalidArgument "fault injection requires op, action and count"))

/-! ## Authority -/

def refuseOp (code : ErrorCode) (message op : String) : Result Unit :=
  .error ⟨code, message, .ofPairs [("op", .string op)]⟩

def requireAuthority (claim : AuthorityClaim) (required : AuthorityMode) (op : String) : Result Unit :=
  if node.lifecycle = .retired then
    refuseOp .notAuthoritative "node is retired and refuses every operation" op
  else if node.lifecycle = .fenced then refuseOp .staleAuthority "node has been fenced" op
  else
    match node.lease with
    | none => refuseOp .notAuthoritative "node holds no authority lease" op
    | some lease =>
      if !node.leaseConfirmed then
        refuseOp .staleAuthority "authority lease has not been confirmed since this incarnation started" op
      else if nowMs ≥ lease.expiresAtMs then
        .error ⟨.staleAuthority, "authority lease has expired",
          .ofPairs [("expired_at_ms", .uint lease.expiresAtMs), ("now_ms", .uint nowMs)]⟩
      else if !claim.isValid then .error (invalidArgument "authority claim is incomplete")
      else if claim.incarnation ≠ node.incarnation then
        .error ⟨.staleIncarnation, "authority claim was issued to a different incarnation",
          .ofPairs [("claimed", .string claim.incarnation.toString), ("current", .string node.incarnation.toString)]⟩
      else if claim.epoch ≠ lease.epoch then
        .error ⟨.staleEpoch, "authority claim carries a stale epoch",
          .ofPairs [("claimed", .uint claim.epoch), ("current", .uint lease.epoch)]⟩
      else if claim.generation ≠ lease.generation then
        .error ⟨.staleGeneration, "authority claim carries a stale generation",
          .ofPairs [("claimed", .uint claim.generation), ("current", .uint lease.generation)]⟩
      else if claim.token ≠ lease.token then
        .error (.plain .staleAuthority "authority claim token does not match the lease")
      else if required.allowsMutation && !lease.mode.allowsMutation then
        .error (.plain .notAuthoritative "lease does not permit mutation")
      else if required.allowsRead && !lease.mode.allowsRead then
        .error (.plain .notAuthoritative "lease does not permit reads")
      else .ok ()

/-! ## The record log -/

def compactRecords (outcome : Result Unit) : NodeState × Result Unit :=
  let keep := if options.maxLogRecords / 2 = 0 then 1 else options.maxLogRecords / 2
  let retained := node.records.drop (node.records.length - keep)
  match outcome with
  | .error refusal => (node, .error refusal)
  | .ok () => ({ node with records := retained, disk := { node.disk with records := retained } }, .ok ())

def appendRecordEntry (record : ReplicationRecord) : NodeState × Result Unit :=
  match io.append record.lsn with
  | .error refusal => (node, .error refusal)
  | .ok () =>
    let node := { node with
      records := node.records ++ [record]
      disk := { node.disk with records := node.disk.records ++ [record] } }
    if node.records.length > options.maxLogRecords then node.compactRecords options (io.compact record.lsn)
    else (node, .ok ())

def applyWrite (key value : String) (epoch generation : Nat) (origin : IncarnationId) : NodeState × Result Unit :=
  match nextId node.lsn with
  | none => (node, .error (.plain .boundsExceeded "log sequence number space is exhausted"))
  | some lsn =>
    match node.document.put key value with
    | .error refusal => (node, .error refusal)
    | .ok document =>
      let record : ReplicationRecord := { lsn, key, value, epoch, generation, origin, digest := .zero }
      let record := { record with digest := replicationRecordDigest digestOf record }
      let node := { node with document := document, lsn := lsn, operationId := wrapAdd node.operationId 1 }
      match node.appendRecordEntry options io record with
      | (node, .error refusal) => (node, .error refusal)
      | (node, .ok ()) => node.saveState io

/-! ## Preparation and snapshots -/

def prepareSuccessor (handoff : Nat) (body : PrepareBody) : NodeState × Result NodeAnswer :=
  match body.targetSoftware, body.targetProtocol, body.targetSchema with
  | some software, some protocol, some targetSchema =>
    if software.value = none ∨ protocol.value = none then
      (node, .error (malformed "successor prepare target spec is invalid"))
    else if software.value ≠ some options.software then
      (node, .error ⟨.compatibilityInsufficient,
        "this component does not run the manifest target software version",
        .ofPairs [("running", .string options.software.toString), ("required", .string software.text)]⟩)
    else if protocol.value ≠ some options.protocol then
      (node, .error ⟨.unsupportedProtocol, "this component does not speak the manifest target protocol version",
        .ofPairs [("running", .string options.protocol.toString), ("required", .string protocol.text)]⟩)
    else if targetSchema > maxU32 then
      (node, .error (malformed "successor prepare target schema is out of range"))
    else
      match body.source with
      | none => (node, .error (invalidArgument "successor prepare requires the source binding"))
      | some (.error refusal) => (node, .error refusal)
      | some (.ok binding) =>
        if binding.schema > node.document.schema then
          (node, .error ⟨.migrationFailure, "successor state is already ahead of the source schema",
            .ofPairs [("successor_schema", .uint node.document.schema), ("source_schema", .uint binding.schema)]⟩)
        else
          let binding := { binding with handoff := handoff }
          ({ node with expectedSource := some binding, currentHandoff := handoff },
            .ok (.preparedSuccessor node.incarnation binding))
  | _, _, _ => (node, .error (invalidArgument "successor prepare requires the manifest target spec"))

/-- The predecessor must hold live mutating authority. -/
def preparePredecessor (handoff : Nat) : NodeState × Result NodeAnswer :=
  if node.leaseLive nowMs && node.leaseMode = .mutating then
    ({ node with currentHandoff := handoff },
      .ok (.preparedPredecessor node.incarnation node.lsn node.document.schema))
  else (node, .error (.plain .notAuthoritative "predecessor does not hold live mutating authority"))

def prepare (body : PrepareBody) : NodeState × Result NodeAnswer :=
  match parseHandoffId body.handoff with
  | .error refusal => (node, .error refusal)
  | .ok handoff =>
    if body.role ≠ some "successor" ∧ body.role ≠ some "predecessor" then
      (node, .error (invalidArgument "prepare requires role successor or predecessor"))
    else if body.manifestDigest = some none then
      (node, .error (malformed "prepare manifest_digest is not a sha256 hex digest"))
    else if body.role = some "successor" then node.prepareSuccessor options handoff body
    else node.preparePredecessor nowMs handoff

def snapshot (handoff : Option Nat) : NodeState × Result NodeAnswer :=
  match parseHandoffId handoff with
  | .error refusal => (node, .error refusal)
  | .ok handoff =>
    if node.lifecycle = .retired ∨ node.lifecycle = .unopened then
      (node, .error (.plain .notAuthoritative "a retired component cannot act as a replication source"))
    else if node.lease.isNone then
      (node, .error (.plain .notAuthoritative "component was never authoritative for this shard"))
    else
      let (node, corrupted) := node.takeFault "node.snapshot.corrupt"
      match nextId node.lastSnapshotId with
      | none => (node, .error (.plain .boundsExceeded "snapshot id space is exhausted"))
      | some id =>
        let digest := snapshotDigest digestOf node.document node.lsn
        let node := { node with
          lastSnapshotId := id, lastSnapshotLsn := node.lsn, recordedSnapshotDigest := digest }
        -- The injected corruption changes the image and leaves the declared digest untouched.
        let fields := if corrupted.isNone then node.document.members
          else assocInsert "__corrupted__" (some "true") node.document.members
        node.saveThen io
          (.snapshot handoff { id, lsn := node.lsn, schema := node.document.schema, digest, fields })

/-- The checks of a presented snapshot: the document it describes and its digest. -/
def readSnapshot (expected : SourceBinding) (body : SnapshotBody) : Result (StateDocument × Nat × Digest) :=
  match body.schema.filter (fun schema => schema ≠ 0 && schema ≤ maxU32), body.lsn, body.digest with
  | some schema, some lsn, some digest => do
    let recorded ← orRefuse digest (malformed "snapshot digest is not a sha256 hex digest")
    let fields ← orRefuse body.fields (malformed "snapshot has no fields object")
    let incoming ← StateDocument.putAll (fun key => malformed ("snapshot field is not a string: " ++ key))
      { schema := schema } fields
    let computed := snapshotDigest digestOf incoming lsn
    refuseUnless (computed = recorded) ⟨.integrityFailure, "snapshot digest does not match its contents",
      .ofPairs [("recorded", .string recorded.toHex), ("computed", .string computed.toHex)]⟩
    refuseUnless (incoming.schema = expected.schema)
      ⟨.migrationFailure, "snapshot schema does not match the declared source generation",
        .ofPairs [("snapshot_schema", .uint incoming.schema), ("expected_schema", .uint expected.schema)]⟩
    return (incoming, lsn, computed)
  | _, _, _ => .error (malformed "snapshot header is incomplete")

/-- The prepared source of a handoff. -/
def preparedFor (handoff : Nat) : Result SourceBinding :=
  orRefuse (node.expectedSource.filter (·.handoff = handoff))
    (.plain .illegalTransition "successor was not prepared for this handoff")

def installSnapshot (handoff : Option Nat) (snapshot : Option SnapshotBody) : NodeState × Result NodeAnswer :=
  let checked : Result (StateDocument × Nat × Digest) := do
    let handoff ← parseHandoffId handoff
    let expected ← node.preparedFor handoff
    let body ← orRefuse snapshot (invalidArgument "install_snapshot requires a snapshot object")
    readSnapshot digestOf expected body
  match checked with
  | .error refusal => (node, .error refusal)
  | .ok (document, lsn, digest) =>
    let node := { node with document := document, lsn := lsn, operationId := lsn, records := [] }
    match io.truncate with
    | .error refusal => (node, .error refusal)
    | .ok () =>
      let node := { node with
        disk := { node.disk with records := [] }, recordedSnapshotDigest := digest, lastSnapshotLsn := lsn }
      node.saveThen io (.installed lsn document.schema digest)

/-! ## Replication -/

def readSince (fromLsn maxRecords : Option Nat) : NodeState × Result NodeAnswer :=
  match fromLsn with
  | none => (node, .error (invalidArgument "read_since requires from_lsn"))
  | some fromLsn =>
    let limit := min (maxRecords.getD 128) options.maxRecordsPerResponse
    let oldest := (node.records.head?.map (·.lsn)).getD node.lsn
    let truncated := fromLsn ≠ 0 && fromLsn < oldest && !node.records.isEmpty && oldest > fromLsn + 1
    (node, .ok (.records ((node.records.filter (fromLsn < ·.lsn)).take limit) node.lsn oldest truncated))

/-- One record of a batch. -/
def applyRecord (expected : SourceBinding) (entry : Result ReplicationRecord) : NodeState × Result Unit :=
  match entry with
  | .error refusal => (node, .error refusal)
  | .ok entry =>
    if entry.origin ≠ expected.source then
      (node, .error ⟨.staleIncarnation, "replicated record originates from an unexpected incarnation",
        .ofPairs [("origin", .string entry.origin.toString), ("expected", .string expected.source.toString)]⟩)
    else if nextId node.lsn ≠ some entry.lsn then
      (node, .error ⟨.notReady, "replicated record is not the next expected log position",
        .ofPairs [("record_lsn", .uint entry.lsn), ("expected_lsn", .uint (wrapAdd node.lsn 1))]⟩)
    else
      match node.document.put entry.key entry.value with
      | .error refusal => (node, .error refusal)
      | .ok document =>
        let node := { node with
          document := document, lsn := entry.lsn, operationId := wrapAdd node.operationId 1 }
        node.appendRecordEntry options io entry

/-- The batch record by record; a refused record leaves those before it applied. -/
def applyAll (expected : SourceBinding) : NodeState → List (Result ReplicationRecord) → NodeState × Result Unit
  | node, [] => (node, .ok ())
  | node, entry :: rest =>
    match node.applyRecord options io expected entry with
    | (node, .error refusal) => (node, .error refusal)
    | (node, .ok ()) => applyAll expected node rest

def applyRecords (body : ApplyBody) : NodeState × Result NodeAnswer :=
  let checked : Result (SourceBinding × List (Result ReplicationRecord)) := do
    let handoff ← parseHandoffId body.handoff
    let expected ← node.preparedFor handoff
    let source ← orRefuse body.source (invalidArgument "apply_records requires the source binding")
    let presented ← source
    let presented := { presented with handoff := handoff }
    refuseUnless (presented.matches expected) ⟨.staleGeneration,
      "replicated state is not bound to the generation the successor was prepared for",
      .ofPairs [("presented", presented.toJson), ("expected", expected.toJson)]⟩
    let entries ← orRefuse body.records (invalidArgument "apply_records requires a records array")
    refuseUnless (entries.length ≤ options.maxRecordsPerResponse)
      ⟨.boundsExceeded, "apply_records batch exceeds the permitted size",
        .ofPairs [("records", .uint entries.length), ("limit", .uint options.maxRecordsPerResponse)]⟩
    return (expected, entries)
  match checked with
  | .error refusal => (node, .error refusal)
  | .ok (expected, entries) =>
    match applyAll options io expected node entries with
    | (node, .error refusal) => (node, .error refusal)
    | (node, .ok ()) => node.saveThen io (.applied entries.length node.lsn)

def readiness (handoff : Option Nat) (targetLsn targetSchema : Nat) : NodeState × Result NodeAnswer :=
  let answer (ready : Bool) (reason : String) : NodeAnswer :=
    .readiness ready reason node.lsn node.document.schema (snapshotDigest digestOf node.document node.lsn)
  let checked : Result SourceBinding := do
    let handoff ← parseHandoffId handoff
    node.preparedFor handoff
  match checked with
  | .error refusal => (node, .error refusal)
  | .ok _ =>
    if node.document.schema ≠ targetSchema % 2 ^ 32 then
      (node, .ok (answer false "successor state has not been migrated to the manifest target schema"))
    else if targetLsn ≠ 0 ∧ node.lsn < targetLsn then
      (node, .ok (answer false "successor has not caught up to the snapshot target log position"))
    else if node.lifecycle = .retired ∨ node.lifecycle = .fenced then
      (node, .ok (answer false "successor is not in a serving lifecycle state"))
    else (node, .ok (answer true "ready"))

/-! ## Fence, grant, re-attestation, retirement -/

def fence (body : FenceBody) : NodeState × Result NodeAnswer :=
  let checked : Result (Nat × IncarnationId) := do
    let _ ← parseHandoffId body.handoff
    let id ← orRefuse (body.fenceId.filter (· ≠ 0)) (invalidArgument "fence requires fence_id and target")
    let target ← orRefuse body.target (invalidArgument "fence requires fence_id and target")
    return (id, ← target)
  match checked with
  | .error refusal => (node, .error refusal)
  | .ok (id, target) =>
    if target ≠ node.incarnation then
      (node, .error ⟨.staleIncarnation, "fence names a different incarnation than this process",
        .ofPairs [("target", .string target.toString), ("current", .string node.incarnation.toString)]⟩)
    else if node.lifecycle = .fenced ∧ node.lastFenceId = id then
      (node, .ok (.fenced true id node.incarnation node.lsn))
    else
      let node := { node with
        lifecycle := .fenced
        leaseConfirmed := false
        lease := node.withdrawnLease .fenced
        lastFenceId := id }
      node.saveThen io (.fenced false id node.incarnation node.lsn)

/-- The lease terms of a grant. -/
def readGrant (body : GrantBody) : Result (Nat × Nat × AuthorityToken × AuthorityMode × Nat) :=
  match body.epoch.filter (· ≠ 0), body.generation.filter (· ≠ 0), body.token, body.mode with
  | some epoch, some generation, some token, some modeText => do
    let token ← orRefuse (token.filter Uuid128.isValid) (malformed "grant_authority token is not a valid uuid")
    let mode ← orRefuse (if modeText = "read_only_shared" then some AuthorityMode.readOnlyShared
      else if modeText = "mutating" then some .mutating else none) (malformed "grant_authority mode is invalid")
    let ttlMs := body.ttlMs.getD options.leaseTtlMs
    refuseUnless (ttlMs ≠ 0 && ttlMs ≤ maxLeaseTtlMs)
      (.plain .boundsExceeded "grant_authority ttl is out of range")
    return (epoch, generation, token, mode, ttlMs)
  | _, _, _, _ => .error (invalidArgument "grant_authority requires epoch, generation, token and mode")

def grantAuthority (body : GrantBody) : NodeState × Result NodeAnswer :=
  match parseHandoffId body.handoff with
  | .error refusal => (node, .error refusal)
  | .ok handoff =>
    if node.lifecycle = .retired then (node, .error (.plain .notAuthoritative "node is retired"))
    else
      match readGrant options body with
      | .error refusal => (node, .error refusal)
      | .ok (epoch, generation, token, mode, ttlMs) =>
        let lease : AuthorityLease :=
          { id := 0, shard := options.shard, holder := node.incarnation, epoch, generation, token, mode
            state := .active, issuedAtMs := nowMs, expiresAtMs := wrapAdd laterMs ttlMs, attested := true
            attestationSeq := 1, campaign := default, handoff
            reason := "granted by the evolution controller" }
        let node := { node with lease := some lease, leaseConfirmed := true, lifecycle := .serving }
        node.saveThen io (.granted node.incarnation epoch generation lease.expiresAtMs mode)

def reattest (token : Option (Option AuthorityToken)) : NodeState × Result NodeAnswer :=
  match token with
  | none => (node, .error (invalidArgument "reattest requires a token"))
  | some none => (node, .error (malformed "reattest token is not a valid uuid"))
  | some (some token) =>
    match node.lease.filter (·.token = token) with
    | none => (node, .error (.plain .staleAuthority "reattest token does not match the recorded lease"))
    | some lease =>
      if nowMs ≥ lease.expiresAtMs then
        (node, .error (.plain .staleAuthority "cannot re-attest an expired lease"))
      else
        ({ node with
            lease := some { lease with attested := true, attestationSeq := wrapAdd lease.attestationSeq 1 }
            leaseConfirmed := true }, .ok (.reattested node.incarnation lease.generation))

def retire (handoff : Option Nat) : NodeState × Result NodeAnswer :=
  match parseHandoffId handoff with
  | .error refusal => (node, .error refusal)
  | .ok handoff =>
    let node := { node with
      lifecycle := .retired
      retiredMarker := true
      leaseConfirmed := false
      lease := node.withdrawnLease .revoked }
    node.saveThen io (.retired handoff)

/-! ## Migration -/

/-- The applied steps in the journal; a refused entry leaves those before it recorded. -/
def recordSteps : NodeState → List MigrationStepRecord → NodeState × Result Unit
  | node, [] => (node, .ok ())
  | node, step :: rest =>
    match node.journal.record
        { shard := options.shard, component := options.component, step := step.step, source := step.source,
          target := step.target, stateDigestAfter := step.stateDigestAfter, appliedAtMs := nowMs,
          irreversibleBoundary := step.irreversibleBoundary } with
    | .error refusal => (node, .error refusal)
    | .ok journal => recordSteps { node with journal := journal } rest

def maxMigrateSteps : Nat := 64

def migrate (handoff : Option Nat) (steps : Option (List (Result MigrationStepSpec))) :
    NodeState × Result NodeAnswer :=
  let checked : Result (Nat × List MigrationStepSpec) := do
    let handoff ← parseHandoffId handoff
    let steps ← orRefuse (steps.filter (!·.isEmpty)) (invalidArgument "migrate requires a non-empty steps array")
    refuseUnless (steps.length ≤ maxMigrateSteps) (.plain .boundsExceeded "migrate accepts at most 64 steps")
    return (handoff, ← steps.mapM id)
  match checked with
  | .error refusal => (node, .error refusal)
  | .ok (handoff, path) =>
    match migrateForward digestOf node.document path with
    | .error refusal => (node, .error refusal)
    | .ok (document, outcome) =>
      match recordSteps options nowMs { node with document := document } outcome.steps with
      | (node, .error refusal) => (node, .error refusal)
      | (node, .ok ()) =>
        node.saveThen io (.migrated document.schema outcome.stateDigestAfter outcome.crossedIrreversibleBoundary
          (path.map (·.id)) handoff)

/-! ## Client requests -/

def write (body : WriteBody) : NodeState × Result NodeAnswer :=
  match body.claim with
  | none => (node, .error (invalidArgument "node.write requires an authority claim"))
  | some (.error refusal) => (node, .error refusal)
  | some (.ok claim) =>
    match node.requireAuthority nowMs claim .mutating "write", node.lease with
    | .error refusal, _ => ({ node with writesRefused := wrapAdd node.writesRefused 1 }, .error refusal)
    | .ok (), none => (node, .error (.plain .notAuthoritative "node holds no authority lease"))
    | .ok (), some lease =>
      match body.key.filter (· ≠ ""), body.value with
      | some key, some value =>
        match node.applyWrite options digestOf io key value lease.epoch lease.generation node.incarnation with
        | (node, .error refusal) => (node, .error refusal)
        | (node, .ok ()) =>
          ({ node with writesApplied := wrapAdd node.writesApplied 1 },
            .ok (.written node.lsn lease.epoch lease.generation node.incarnation))
      | _, _ => (node, .error (invalidArgument "node.write requires key and value"))

def read (key : Option String) (allowStale : Bool) : NodeState × Result NodeAnswer :=
  match key.filter (· ≠ "") with
  | none => (node, .error (invalidArgument "node.read requires a key"))
  | some key =>
    let readable := node.leaseLive nowMs && node.leaseMode.allowsRead
    if !allowStale ∧ (node.lifecycle = .retired ∨ node.lifecycle = .fenced) then
      (node, .error (.plain .notAuthoritative "node is not serving authoritative reads"))
    else if !allowStale ∧ !readable then
      (node, .error (.plain .notAuthoritative "node does not hold a live read-capable lease"))
    else
      ({ node with readsServed := wrapAdd node.readsServed 1 },
        .ok (.value (node.document.get key) node.lsn (readable && node.lifecycle = .serving) node.lifecycle
          node.incarnation node.leaseEpoch node.leaseGeneration node.document.schema
          (snapshotDigest digestOf node.document node.lsn)))

/-! ## Dispatch -/

def dispatch (request : NodeRequest) : NodeState × Result NodeAnswer :=
  match request with
  | .hello => (node, .ok (.hello (node.helloOf options nowMs)))
  | .status => (node, .ok (.report (node.report options digestOf nowMs)))
  | .faults op action count => node.faultsHandler op action count
  | .prepare body => node.prepare options nowMs body
  | .snapshot handoff => node.snapshot digestOf io handoff
  | .installSnapshot handoff snapshot => node.installSnapshot digestOf io handoff snapshot
  | .readSince fromLsn maxRecords => node.readSince options fromLsn maxRecords
  | .applyRecords body => node.applyRecords options io body
  | .readiness handoff targetLsn targetSchema => node.readiness digestOf handoff targetLsn targetSchema
  | .fence body => node.fence io body
  | .grantAuthority body => node.grantAuthority options io nowMs laterMs body
  | .reattest token => node.reattest nowMs token
  | .migrate handoff steps => node.migrate options digestOf io nowMs handoff steps
  | .retire handoff => node.retire io handoff
  | .write body => node.write options digestOf io nowMs body
  | .read key allowStale => node.read digestOf nowMs key allowStale
  | .unknown op => (node, .error (notFound ("unknown node operation: " ++ op)))

/-- What the transport does with a response. -/
inductive Delivery where
  | sent
  | suppressed
deriving DecidableEq

def handle (request : NodeRequest) : NodeState × Result NodeAnswer × Delivery :=
  match node.takeFault request.op with
  | (node, some "error") => (node, .error (.plain .internal ("injected failure for " ++ request.op)), .sent)
  | (node, fault) =>
    let r := node.dispatch options digestOf io nowMs laterMs request
    (r.1, r.2, if fault = some "drop_response" then .suppressed else .sent)

end NodeState

end FabricEvolution
