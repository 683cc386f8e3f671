import FabricEvolution.Node.Saved
import FabricEvolution.Node.Spoken

/-!
# The journal of a node

* `MigrationStepRecord.Readable`, `readable_migrateSteps` : the steps of a path that was read are recorded as they can be read;
* `MigrationJournal.Readable.record` : an entry more, the oldest dropped beyond the capacity;
* `NodeState.Journaled` : the journal, in memory and in the state file, can be read; `Journaled.handle`, `journaled_life` : so it is
  in every state of every life.
-/

namespace FabricEvolution
open Lib

/-! ## What is recorded -/

structure MigrationStepRecord.Readable (record : MigrationStepRecord) : Prop where
  step : record.step.isValid = true
  source : record.source ≠ 0 ∧ record.source ≤ maxU32
  target : record.target ≠ 0 ∧ record.target ≤ maxU32

section
variable {digestOf : Json → Digest} {working final : StateDocument}

theorem readable_migrateStep {spec : MigrationStepSpec} {record : MigrationStepRecord} (hspec : spec.Readable)
    (h : migrateStep digestOf working spec = .ok (final, record)) : record.Readable := by
  unfold migrateStep at h
  simp only [Result.bind_eq_ok] at h
  obtain ⟨-, -, resolved, -, -, -, applied, -, migrated, -, h⟩ := h
  cases h
  exact ⟨hspec.id, hspec.source, hspec.target⟩

theorem readable_migrateSteps {path : List MigrationStepSpec} {records : List MigrationStepRecord} (hpath : ∀ spec ∈ path, spec.Readable)
    (h : migrateSteps digestOf working path = .ok (final, records)) : ∀ record ∈ records, record.Readable := by
  induction path generalizing working records with
  | nil =>
    cases h
    exact fun _ hrecord => absurd hrecord List.not_mem_nil
  | cons spec path ih =>
    obtain ⟨⟨migrated, first⟩, hstep, h⟩ := Result.bind_eq_ok.mp h
    obtain ⟨⟨final', rest⟩, hrest, h⟩ := Result.bind_eq_ok.mp h
    cases h
    rw [List.forall_mem_cons] at hpath ⊢
    exact ⟨readable_migrateStep hpath.1 hstep, ih hpath.2 hrest⟩

end

/-- The steps of a request were read by their decoder. -/
theorem readable_step_ofRpc {digestOf : Json → Digest} {rpc : RpcRequest} {handoff : Option Nat} {entries : List (Result MigrationStepSpec)}
    {spec : MigrationStepSpec} (h : NodeRequest.ofRpc digestOf rpc = .migrate handoff (some entries)) (hspec : .ok spec ∈ entries) :
    spec.Readable := by
  have hentries : some entries = readElements rpc.body "steps" migrationStepFromJson := by
    rcases ofRpc_cases digestOf rpc with ⟨operation, hmem, -, heq⟩ | heq
    · rw [h] at heq
      clear h
      revert operation
      simp [nodeOperations]
    · rw [h] at heq
      cases heq
  obtain ⟨element, hread⟩ := mem_readElements hentries.symm hspec
  exact MigrationStepSpec.readable_of_fromJson hread

/-- One entry more; beyond the capacity the oldest is dropped. -/
theorem MigrationJournal.Readable.record {journal journal' : MigrationJournal} {entry : MigrationJournalRecord} (h : journal.Readable)
    (hsource : entry.source ≤ maxU32) (htarget : entry.target ≤ maxU32) (hrecord : journal.record entry = .ok journal') :
    journal'.Readable := by
  unfold MigrationJournal.record at hrecord
  split_ifs at hrecord with hnames hversions
  cases hrecord
  rw [not_or] at hversions
  simp only [Bool.not_eq_true', not_or, Bool.not_eq_false] at hnames
  have hentry : entry.Readable := ⟨hnames.1, hnames.2.1, hnames.2.2, ⟨hversions.1, hsource⟩, ⟨hversions.2, htarget⟩⟩
  refine ⟨h.capacity, ?_, fun record hmem => ?_⟩
  · show (pushBounded journal.capacity journal.records entry).length ≤ 1024
    rw [h.capacity]
    exact length_pushBounded_le entry h.length
  · rcases mem_of_mem_pushBounded hmem with hold | rfl
    · exact h.records record hold
    · exact hentry

namespace NodeState
variable {options : NodeOptions} {digestOf : Json → Digest} {io : NodeIo} {nowMs laterMs : Nat} {node node' : NodeState}
  {outcome : Result Unit}

/-- The journal can be read, and the state file holds one that can. -/
structure Journaled (node : NodeState) : Prop where
  journal : node.journal.Readable
  saved : ∀ file, node.disk.saved = some file → file.journal.Readable

namespace Journaled

theorem since (h : node.Journaled) (hjournal : node'.journal = node.journal) (hsaved : node'.disk.saved = node.disk.saved) :
    node'.Journaled := by
  refine ⟨hjournal ▸ h.journal, ?_⟩
  rw [hsaved]
  exact h.saved

theorem saveState (h : node.Journaled) : (node.saveState io).1.Journaled := by
  unfold NodeState.saveState
  split
  · exact h
  · exact ⟨h.journal, fun file hfile => (Option.some.inj hfile) ▸ h.journal⟩

theorem saveThen (h : node.Journaled) (answer : NodeAnswer) : (node.saveThen io answer).1.Journaled := by
  rw [saveThen_fst]
  exact h.saveState

theorem appendRecordEntry {record : ReplicationRecord} (h : node.Journaled)
    (happend : node.appendRecordEntry options io record = (node', outcome)) : node'.Journaled := by
  obtain ⟨records, logged, heq, -⟩ := appendRecordEntry_fst options io node record
  rw [happend] at heq
  obtain rfl : node' = _ := heq
  exact h.since rfl rfl

theorem applyRecord {expected : SourceBinding} {entry : Result ReplicationRecord} (h : node.Journaled)
    (happly : node.applyRecord options io expected entry = (node', outcome)) : node'.Journaled := by
  obtain ⟨⟨refusal, heq⟩, -⟩ | ⟨record, document, log, logged, -, -, -, -, heq, -⟩ := applyRecord_cases options io node expected entry
  · rw [happly] at heq
    cases heq
    exact h
  · rw [happly] at heq
    obtain rfl : node' = _ := heq
    exact h.since rfl rfl

theorem applyAll {expected : SourceBinding} {entries : List (Result ReplicationRecord)} (h : node.Journaled)
    (happly : applyAll options io expected node entries = (node', outcome)) : node'.Journaled := by
  induction entries generalizing node with
  | nil =>
    cases happly
    exact h
  | cons entry rest ih =>
    unfold NodeState.applyAll at happly
    split at happly
    · rename_i heq
      cases happly
      exact h.applyRecord heq
    · rename_i heq
      exact ih (h.applyRecord heq) happly

theorem applyWrite {key value : String} {epoch generation : Nat} {origin : IncarnationId} (h : node.Journaled)
    (hwrite : node.applyWrite options digestOf io key value epoch generation origin = (node', outcome)) : node'.Journaled := by
  unfold NodeState.applyWrite at hwrite
  split at hwrite
  · cases hwrite
    exact h
  · rename_i lsn _
    split at hwrite
    · cases hwrite
      exact h
    · rename_i document _
      dsimp only at hwrite
      have hbefore : Journaled { node with document := document, lsn := lsn, operationId := wrapAdd node.operationId 1 } :=
        h.since rfl rfl
      split at hwrite
      · rename_i heq
        cases hwrite
        exact hbefore.appendRecordEntry heq
      · rename_i heq
        have hnode : (NodeState.saveState _ io).1 = node' := congrArg Prod.fst hwrite
        exact hnode ▸ (hbefore.appendRecordEntry heq).saveState

/-- The steps enter the journal one after another. -/
theorem recordSteps {steps : List MigrationStepRecord} (h : node.Journaled) (hsteps : ∀ step ∈ steps, step.Readable)
    (hrecord : recordSteps options nowMs node steps = (node', outcome)) : node'.Journaled := by
  induction steps generalizing node with
  | nil =>
    cases hrecord
    exact h
  | cons step rest ih =>
    rw [List.forall_mem_cons] at hsteps
    unfold NodeState.recordSteps at hrecord
    split at hrecord
    · cases hrecord
      exact h
    · rename_i journal hjournal
      have hentry : journal.Readable := h.journal.record hsteps.1.source.2 hsteps.1.target.2 hjournal
      have hbefore : Journaled { node with journal := journal } := ⟨hentry, h.saved⟩
      exact ih hbefore hsteps.2 hrecord

theorem migrate {handoff : Option Nat} {steps : Option (List (Result MigrationStepSpec))} (h : node.Journaled)
    (hread : ∀ entries, steps = some entries → ∀ spec, .ok spec ∈ entries → spec.Readable) :
    (node.migrate options digestOf io nowMs handoff steps).1.Journaled := by
  unfold NodeState.migrate
  dsimp only
  split
  · exact h
  · rename_i handoff' path hchecked
    simp only [Result.bind_eq_ok] at hchecked
    obtain ⟨_, -, entries, hentries, -, -, path', hpath, hchecked⟩ := hchecked
    cases hchecked
    have hspecs : ∀ spec ∈ path, spec.Readable := fun spec hspec =>
      hread entries (Option.filter_eq_some_iff.mp (orRefuse_eq_ok.mp hentries)).1 spec (mem_of_mapM_id hpath hspec)
    split
    · exact h
    · rename_i document outcome hmigrate
      obtain ⟨⟨final, records⟩, hsteps, hmigrate⟩ := Result.bind_eq_ok.mp hmigrate
      cases hmigrate
      have hbefore : Journaled { node with document := document } := h.since rfl rfl
      have hrecords := readable_migrateSteps hspecs hsteps
      split
      · rename_i heq
        exact hbefore.recordSteps hrecords heq
      · rename_i heq
        exact (hbefore.recordSteps hrecords heq).saveThen _

theorem installSnapshot (h : node.Journaled) (handoff : Option Nat) (snapshot : Option SnapshotBody) :
    (node.installSnapshot digestOf io handoff snapshot).1.Journaled := by
  unfold NodeState.installSnapshot
  dsimp only
  split
  · exact h
  · split
    · exact h.since rfl rfl
    · refine saveThen ?_ _
      exact h.since rfl rfl

theorem applyRecords (h : node.Journaled) (body : ApplyBody) : (node.applyRecords options io body).1.Journaled := by
  unfold NodeState.applyRecords
  dsimp only
  split
  · exact h
  · split
    · rename_i heq
      exact h.applyAll heq
    · rename_i heq
      exact (h.applyAll heq).saveThen _

theorem write (h : node.Journaled) (body : WriteBody) : (node.write options digestOf io nowMs body).1.Journaled := by
  unfold NodeState.write
  split
  · exact h
  · exact h
  · split
    · exact h.since rfl rfl
    · exact h
    · split
      · split
        · rename_i heq
          exact h.applyWrite heq
        · rename_i heq
          exact (h.applyWrite heq).since rfl rfl
      · exact h

theorem snapshot (h : node.Journaled) (handoff : Option Nat) : (node.snapshot digestOf io handoff).1.Journaled := by
  unfold NodeState.snapshot
  split
  · exact h
  · split_ifs
    · exact h
    · exact h
    · split
      rename_i node' corrupted htake
      obtain ⟨faults, hfaults⟩ := takeFault_fst node "node.snapshot.corrupt"
      rw [htake] at hfaults
      obtain rfl : node' = _ := hfaults
      dsimp only
      split
      · exact h.since rfl rfl
      · refine saveThen ?_ _
        exact h.since rfl rfl

theorem dispatch {request : NodeRequest} (h : node.Journaled)
    (hread : ∀ handoff entries, request = .migrate handoff (some entries) → ∀ spec, .ok spec ∈ entries → spec.Readable) :
    (node.dispatch options digestOf io nowMs laterMs request).1.Journaled := by
  cases request with
  | hello | status | unknown op => exact h
  | faults op action count =>
    simp only [NodeState.dispatch, faultsHandler, setFault]
    repeat' split
    all_goals exact h.since rfl rfl
  | prepare body =>
    simp only [NodeState.dispatch, prepare, prepareSuccessor, preparePredecessor]
    repeat' split
    all_goals exact h.since rfl rfl
  | snapshot handoff => exact h.snapshot handoff
  | installSnapshot handoff snapshot => exact h.installSnapshot handoff snapshot
  | readSince fromLsn maxRecords =>
    simp only [NodeState.dispatch, readSince]
    split <;> exact h
  | applyRecords body => exact h.applyRecords body
  | readiness handoff targetLsn targetSchema =>
    simp only [NodeState.dispatch, readiness]
    repeat' split
    all_goals exact h
  | fence body =>
    show (node.fence io body).1.Journaled
    obtain ⟨heq, -⟩ | ⟨-, id, answer, heq⟩ := fence_cases node io body
    · rw [heq]
      exact h
    · rw [heq]
      refine saveThen ?_ _
      exact h.since rfl rfl
  | grantAuthority body =>
    show (node.grantAuthority options io nowMs laterMs body).1.Journaled
    obtain ⟨heq, -⟩ | ⟨-, lease, answer, -, heq⟩ := grantAuthority_cases options node io nowMs laterMs body
    · rw [heq]
      exact h
    · rw [heq]
      refine saveThen ?_ _
      exact h.since rfl rfl
  | reattest token =>
    show (node.reattest nowMs token).1.Journaled
    obtain ⟨heq, -⟩ | ⟨lease, answer, -, -, -, heq⟩ := reattest_cases node nowMs token
    · rw [heq]
      exact h
    · rw [heq]
      exact h.since rfl rfl
  | migrate handoff steps =>
    exact h.migrate fun entries hentries => hread handoff entries (by rw [hentries])
  | retire handoff =>
    show (node.retire io handoff).1.Journaled
    obtain ⟨heq, -⟩ | ⟨answer, heq⟩ := retire_cases node io handoff
    · rw [heq]
      exact h
    · rw [heq]
      refine saveThen ?_ _
      exact h.since rfl rfl
  | write body => exact h.write body
  | read key allowStale =>
    simp only [NodeState.dispatch, NodeState.read]
    repeat' split
    all_goals exact h.since rfl rfl

theorem handle {rpc : RpcRequest} (h : node.Journaled) :
    (node.handle options digestOf io nowMs laterMs (.ofRpc digestOf rpc)).1.Journaled := by
  obtain ⟨faults, ⟨-, heq, -⟩ | ⟨-, heq, -⟩⟩ := handle_faults options digestOf node io nowMs laterMs (.ofRpc digestOf rpc)
  · rw [heq]
    exact h.since rfl rfl
  · rw [heq]
    have hbefore : Journaled { node with faults := faults } := h.since rfl rfl
    exact hbefore.dispatch fun handoff entries hrequest spec hspec => readable_step_ofRpc hrequest hspec

theorem opened {disk : NodeDisk} (uuid : IncarnationUuid) (h : ∀ file, disk.saved = some file → file.journal.Readable) :
    (opened options disk uuid).Journaled := by
  have hjournal : (NodeState.opened options disk uuid).journal.Readable := by
    unfold NodeState.opened
    dsimp only
    cases hsaved : disk.saved with
    | none => exact ⟨rfl, Nat.zero_le _, fun _ hrecord => absurd hrecord List.not_mem_nil⟩
    | some file => exact h file hsaved
  exact ⟨hjournal, fun file hfile => (Option.some.inj hfile) ▸ hjournal⟩

end Journaled

end NodeState

end FabricEvolution
