import FabricEvolution.Node.Grants

/-!
# Writes that fail

* `SameContent` : the document, its log position, the operation count and the records are as before;
* `LeavesNoTrace` : so they are, and whatever comes later leaves the state directory as if nothing had been asked;
* `FailsCleanly` : a write that is answered with an error leaves no trace;
* `Reaches` : what a write has passed when the node changes its document; `Stores` : the file effects behind it succeed;
* `write_of_not_reaches`, `write_of_reaches` : what a write does; `write_atomic_iff` : it fails cleanly exactly if it
  stores what it reaches.
-/

namespace FabricEvolution
open Lib

namespace NodeState

/-- What replication carries is as before. -/
structure SameContent (node node' : NodeState) : Prop where
  document : node'.document = node.document
  lsn : node'.lsn = node.lsn
  operationId : node'.operationId = node.operationId
  records : node'.records = node.records

variable (options : NodeOptions) (digestOf : Json → Digest)

/-- The content is as before, and whatever comes later finds and leaves the state directory as it would have: only the
armed faults and the count of refusals differ. -/
structure LeavesNoTrace (node node' : NodeState) : Prop where
  same : SameContent node node'
  later : ∀ es, (node'.afterLives options digestOf es).disk =
    ({ node with faults := node'.faults, writesRefused := node'.writesRefused }.afterLives options digestOf es).disk

/-- If the write is answered with an error, it leaves no trace. -/
def FailsCleanly (node : NodeState) (body : WriteBody) (nowMs laterMs : Nat) (io : NodeIo) : Prop :=
  ∀ refusal, (node.handle options digestOf io nowMs laterMs (.write body)).2.1 = .error refusal →
    node.LeavesNoTrace options digestOf (node.handle options digestOf io nowMs laterMs (.write body)).1

/-- The write passes the checks of authority, key and value, a log position is left, and the document takes the field. -/
def Reaches (node : NodeState) (body : WriteBody) (nowMs : Nat) : Prop :=
  (node.takeFault "node.write").2 ≠ some "error" ∧ ∃ claim key value,
    body.claim = some (.ok claim) ∧ node.requireAuthority nowMs claim .mutating "write" = .ok () ∧ body.key = some key ∧
      body.value = some value ∧ (nextId node.lsn).isSome ∧ (node.document.put key value).isOk

/-- The record is appended, the log is compacted if it has grown too long, and the state file is saved. -/
def Stores (node : NodeState) (io : NodeIo) : Prop :=
  io.append (node.lsn + 1) = .ok () ∧
    (options.maxLogRecords < node.records.length + 1 → io.compact (node.lsn + 1) = .ok ()) ∧ io.save = .ok ()

end NodeState

namespace NodeState
variable {options : NodeOptions} {digestOf : Json → Digest} {io : NodeIo} {nowMs laterMs : Nat}
  {node : NodeState} {body : WriteBody}

/-! ## One record -/

theorem compactRecords_fst (options : NodeOptions) (node : NodeState) (outcome : Result Unit) : ∃ records logged,
    (node.compactRecords options outcome).1 = { node with records := records, disk := { node.disk with records := logged } } ∧
      records <:+ node.records := by
  cases outcome with
  | error refusal => exact ⟨node.records, node.disk.records, rfl, List.suffix_rfl⟩
  | ok u => exact ⟨_, _, rfl, List.drop_suffix _ _⟩

theorem compactRecords_snd (outcome : Result Unit) : (node.compactRecords options outcome).2 = outcome := by
  cases outcome <;> rfl

/-- Only the records change, in memory and on disk; the log is then the last of what was there and the record. -/
theorem appendRecordEntry_fst (options : NodeOptions) (io : NodeIo) (node : NodeState) (record : ReplicationRecord) :
    ∃ records logged, (node.appendRecordEntry options io record).1 =
        { node with records := records, disk := { node.disk with records := logged } } ∧
      ((node.appendRecordEntry options io record).2 = .ok () → records <:+ node.records ++ [record]) := by
  unfold appendRecordEntry
  cases io.append record.lsn with
  | error refusal => exact ⟨node.records, node.disk.records, rfl, nofun⟩
  | ok u =>
    dsimp only
    split
    · obtain ⟨records, logged, heq, hsuffix⟩ := compactRecords_fst options { node with
        records := node.records ++ [record]
        disk := { node.disk with records := node.disk.records ++ [record] } } (io.compact record.lsn)
      exact ⟨records, logged, heq, fun _ => hsuffix⟩
    · exact ⟨_, _, rfl, fun _ => List.suffix_rfl⟩

theorem appendRecordEntry_lsn (record : ReplicationRecord) : (node.appendRecordEntry options io record).1.lsn = node.lsn := by
  obtain ⟨records, logged, heq, -⟩ := appendRecordEntry_fst options io node record
  rw [heq]

theorem appendRecordEntry_ok (record : ReplicationRecord) : (node.appendRecordEntry options io record).2 = .ok () ↔
    io.append record.lsn = .ok () ∧ (options.maxLogRecords < node.records.length + 1 → io.compact record.lsn = .ok ()) := by
  unfold appendRecordEntry
  cases io.append record.lsn with
  | error refusal => simp
  | ok u =>
    simp only [List.length_append, List.length_singleton, true_and]
    by_cases hlong : options.maxLogRecords < node.records.length + 1
    · rw [if_pos hlong, compactRecords_snd]
      simp [hlong]
    · rw [if_neg hlong]
      simp [hlong]

theorem saveState_snd : (node.saveState io).2 = io.save := by
  unfold saveState
  cases io.save <;> rfl

theorem saveState_lsn : (node.saveState io).1.lsn = node.lsn := by
  unfold saveState
  cases io.save <;> rfl

/-- A write that the document takes moves the log position before any file effect. -/
theorem applyWrite_of_taken (options : NodeOptions) (digestOf : Json → Digest) (io : NodeIo) {key value : String}
    {document : StateDocument} (epoch generation : Nat) (origin : IncarnationId)
    (hlsn : (nextId node.lsn).isSome) (hput : node.document.put key value = .ok document) :
    (node.applyWrite options digestOf io key value epoch generation origin).1.lsn = node.lsn + 1 ∧
      ((node.applyWrite options digestOf io key value epoch generation origin).2 = .ok () ↔ node.Stores options io) := by
  obtain ⟨lsn, hnext⟩ := Option.isSome_iff_exists.1 hlsn
  obtain rfl : lsn = node.lsn + 1 := eq_succ_of_nextId hnext
  simp only [applyWrite, hnext, hput]
  split
  · rename_i node' refusal happend
    have hposition := congrArg (fun r => r.1.lsn) happend
    rw [appendRecordEntry_lsn] at hposition
    refine ⟨hposition.symm, ⟨nofun, fun hstores => ?_⟩⟩
    cases (congrArg Prod.snd happend).symm.trans ((appendRecordEntry_ok _).2 ⟨hstores.1, hstores.2.1⟩)
  · rename_i node' happend
    have hposition := congrArg (fun r => r.1.lsn) happend
    rw [appendRecordEntry_lsn] at hposition
    obtain ⟨happended, hcompacted⟩ := (appendRecordEntry_ok _).1 (congrArg Prod.snd happend)
    rw [saveState_lsn, saveState_snd]
    exact ⟨hposition.symm, ⟨fun hsave => ⟨happended, hcompacted, hsave⟩, fun hstores => hstores.2.2⟩⟩

/-! ## One write -/

/-- A write that does not reach the document is counted, at most. -/
theorem write_of_not_reaches (options : NodeOptions) (digestOf : Json → Digest) (io : NodeIo) (node : NodeState)
    (h : ¬ ∃ claim key value, body.claim = some (.ok claim) ∧
      node.requireAuthority nowMs claim .mutating "write" = .ok () ∧ body.key = some key ∧
      body.value = some value ∧ (nextId node.lsn).isSome ∧ (node.document.put key value).isOk) :
    ∃ writesRefused refusal, node.write options digestOf io nowMs body =
      ({ node with writesRefused := writesRefused }, .error refusal) := by
  unfold write
  split
  · exact ⟨node.writesRefused, _, rfl⟩
  · exact ⟨node.writesRefused, _, rfl⟩
  · rename_i claim hclaim
    split
    · exact ⟨_, _, rfl⟩
    · exact ⟨node.writesRefused, _, rfl⟩
    · rename_i lease hauthority hlease
      split
      · rename_i key value hkey hvalue
        have hrefused : ∃ refusal, node.applyWrite options digestOf io key value lease.epoch lease.generation
            node.incarnation = (node, .error refusal) := by
          unfold applyWrite
          cases hnext : nextId node.lsn with
          | none => exact ⟨_, rfl⟩
          | some lsn =>
            cases hput : node.document.put key value with
            | error refusal => exact ⟨refusal, rfl⟩
            | ok document =>
              exact absurd ⟨claim, key, value, hclaim, hauthority, (Option.filter_eq_some_iff.1 hkey).1, hvalue,
                by rw [hnext]; rfl, by rw [hput]; rfl⟩ h
        obtain ⟨refusal, hrefused⟩ := hrefused
        rw [hrefused]
        exact ⟨node.writesRefused, refusal, rfl⟩
      · exact ⟨node.writesRefused, _, rfl⟩

/-- A write that reaches the document moves the log position, and is answered if its file effects succeed. -/
theorem write_of_reaches (options : NodeOptions) (digestOf : Json → Digest) (io : NodeIo) (node : NodeState)
    {claim : AuthorityClaim} {key value : String} (hclaim : body.claim = some (.ok claim))
    (hauthority : node.requireAuthority nowMs claim .mutating "write" = .ok ()) (hkey : body.key = some key)
    (hvalue : body.value = some value) (hlsn : (nextId node.lsn).isSome) (hput : (node.document.put key value).isOk) :
    (node.write options digestOf io nowMs body).1.lsn = node.lsn + 1 ∧
      ((∃ refusal, (node.write options digestOf io nowMs body).2 = .error refusal) ↔ ¬ node.Stores options io) := by
  obtain ⟨document, hput⟩ : ∃ document, node.document.put key value = .ok document := by
    cases hdocument : node.document.put key value with
    | error refusal => rw [hdocument] at hput; cases hput
    | ok document => exact ⟨document, rfl⟩
  have hnonempty : body.key.filter (· ≠ "") = some key := by
    rw [hkey, Option.filter_some_eq_some]
    exact decide_eq_true (StateDocument.put_eq_ok hput).2.1
  obtain ⟨lease, hlease⟩ : ∃ lease, node.lease = some lease := by
    have hmode := (mutates_of_requireAuthority hauthority).mutating
    cases hlease : node.lease with
    | none =>
      rw [leaseMode, hlease] at hmode
      cases hmode
    | some lease => exact ⟨lease, rfl⟩
  obtain ⟨hposition, hstores⟩ := applyWrite_of_taken options digestOf io lease.epoch lease.generation node.incarnation
    hlsn hput
  unfold write
  rw [hclaim]
  dsimp only
  rw [hauthority, hlease]
  dsimp only
  rw [hnonempty, hvalue]
  dsimp only
  split
  · rename_i node' refusal happlied
    rw [happlied] at hposition hstores
    refine ⟨hposition, ⟨fun _ hok => ?_, fun _ => ⟨refusal, rfl⟩⟩⟩
    cases hstores.2 hok
  · rename_i node' happlied
    rw [happlied] at hposition hstores
    refine ⟨hposition, ⟨?_, fun hno => absurd (hstores.1 rfl) hno⟩⟩
    rintro ⟨refusal, herror⟩
    cases herror

end NodeState

/-- For every node, request and outcome of the file effects: a write fails cleanly exactly if it is refused before it
reaches the document, or the file effects behind it succeed. -/
theorem write_atomic_iff (options : NodeOptions) (digestOf : Json → Digest) (node : NodeState) (body : WriteBody)
    (nowMs laterMs : Nat) (io : NodeIo) :
    node.FailsCleanly options digestOf body nowMs laterMs io ↔ (node.Reaches body nowMs → node.Stores options io) := by
  unfold NodeState.FailsCleanly
  obtain ⟨faults, ⟨herror, hnode, hanswer⟩ | ⟨herror, hnode, hanswer⟩⟩ :=
    NodeState.handle_faults options digestOf node io nowMs laterMs (.write body)
  · rw [hnode]
    refine ⟨fun _ hreaches => absurd herror hreaches.1, fun _ _ _ => ⟨⟨rfl, rfl, rfl, rfl⟩, ?_⟩⟩
    intro es
    rfl
  · rw [hnode, hanswer]
    by_cases hreaches : node.Reaches body nowMs
    · obtain ⟨-, claim, key, value, hclaim, hauthority, hkey, hvalue, hlsn, hput⟩ := hreaches
      obtain ⟨hposition, hrefused⟩ := NodeState.write_of_reaches options digestOf io { node with faults := faults } hclaim
        hauthority hkey hvalue hlsn hput
      constructor
      · intro hclean _
        by_contra hno
        obtain ⟨refusal, hrefusal⟩ := hrefused.2 hno
        have hsame := (hclean refusal hrefusal).same.lsn
        rw [NodeState.dispatch, hposition] at hsame
        exact absurd hsame (Nat.succ_ne_self node.lsn)
      · intro hstores refusal hrefusal
        exact absurd (hstores ⟨herror, claim, key, value, hclaim, hauthority, hkey, hvalue, hlsn, hput⟩)
          (hrefused.1 ⟨refusal, hrefusal⟩)
    · refine ⟨fun _ h => absurd h hreaches, fun _ _ _ => ?_⟩
      obtain ⟨writesRefused, refusal, heq⟩ := NodeState.write_of_not_reaches options digestOf io { node with faults := faults }
        fun h => hreaches ⟨herror, h⟩
      rw [NodeState.dispatch, heq]
      exact ⟨⟨rfl, rfl, rfl, rfl⟩, fun _ => rfl⟩

namespace Sample

/-- The state file cannot be written. -/
def failedSave : NodeIo := { save := .error (.plain .ioFailure "cannot replace the state file") }

/-- The node after a write that it could not save. -/
def unsavedNode : NodeState := (grantedNode.handle nodeOptions (fun _ => .zero) failedSave 1 1 (.write writeBody)).1

/-- The node without that write, its refusal counted. -/
def spared : NodeState := { grantedNode with faults := unsavedNode.faults, writesRefused := unsavedNode.writesRefused }

def savedField (key : String) (disk : NodeDisk) : Option String := disk.saved.bind fun file => file.document.get key

/-- Another write, under the same claim. -/
def otherWrite : WriteBody := { writeBody with key := some "other" }

end Sample

open Sample in
/-- The write is refused because the state file cannot be saved; its field is read from the state file once the next
write is acknowledged. -/
theorem failed_write_committed : ¬ ∀ (options : NodeOptions) (digestOf : Json → Digest) (node : NodeState) (body : WriteBody)
    (nowMs laterMs : Nat) (io : NodeIo), node.FailsCleanly options digestOf body nowMs laterMs io := by
  intro hall
  have hrefused : (grantedNode.handle nodeOptions (fun _ => .zero) failedSave 1 1 (.write writeBody)).2.1.isOk = false := by
    decide +kernel
  cases hanswer : (grantedNode.handle nodeOptions (fun _ => .zero) failedSave 1 1 (.write writeBody)).2.1 with
  | ok answer =>
    rw [hanswer] at hrefused
    cases hrefused
  | error refusal =>
    have hlater := (hall nodeOptions (fun _ => .zero) grantedNode writeBody 1 1 failedSave refusal hanswer).later
      [.request (.write otherWrite) 1 1 {}]
    have hcommitted : savedField "key" (unsavedNode.afterLives nodeOptions (fun _ => .zero)
          [.request (.write otherWrite) 1 1 {}]).disk ≠
        savedField "key" (spared.afterLives nodeOptions (fun _ => .zero) [.request (.write otherWrite) 1 1 {}]).disk := by
      decide +kernel
    exact hcommitted (congrArg (savedField "key") hlater)

end FabricEvolution
