import FabricEvolution.Migration.Bounds
import FabricEvolution.Node.Process

/-!
# What a node can hold

* `NodeRequest.WellTyped` : the numbers of a request are of the widths of their members;
* `NodeState.Bounded` : the document, the log position and those of the state file are within their bounds;
* `bounded_dispatch`, `bounded_step` : every request and every restart keeps it.
-/

namespace FabricEvolution
open Lib

/-- The numbers of a request that reach the document, at the widths of their members. -/
def NodeRequest.WellTyped : NodeRequest → Prop
  | installSnapshot _ presented => ∀ body, presented = some body → ∀ lsn, body.lsn = some lsn → lsn < 2 ^ 64
  | migrate _ steps => ∀ l, steps = some l → ∀ spec, .ok spec ∈ l → spec.target ≤ maxU32
  | _ => True

def ProcessEvent.WellTyped : ProcessEvent → Prop
  | request r _ _ => r.WellTyped
  | torn r _ _ _ _ => r.WellTyped
  | _ => True

namespace NodeState

structure Bounded (node : NodeState) : Prop where
  document : node.document.Bounded
  lsn : node.lsn < 2 ^ 64
  saved : ∀ file, node.disk.saved = some file → file.document.Bounded ∧ file.lsn < 2 ^ 64

variable {options : NodeOptions} {digestOf : Json → Digest} {io : NodeIo} {nowMs laterMs : Nat} {node node' : NodeState}
  {outcome : Result Unit}

theorem Bounded.saveState (h : node.Bounded) : (node.saveState io).1.Bounded := by
  unfold NodeState.saveState
  split
  · exact h
  · refine ⟨h.document, h.lsn, ?_⟩
    rintro file hfile
    cases hfile
    exact ⟨h.document, h.lsn⟩

theorem Bounded.saveThen (h : node.Bounded) (answer : NodeAnswer) : (node.saveThen io answer).1.Bounded := by
  rw [saveThen_fst]
  exact h.saveState

theorem Bounded.takeFault {op : String} {action : Option String} (h : node.Bounded)
    (htake : node.takeFault op = (node', action)) : node'.Bounded := by
  unfold NodeState.takeFault at htake
  dsimp only at htake
  split at htake <;> cases htake <;> exact ⟨h.document, h.lsn, h.saved⟩

theorem Bounded.appendRecordEntry {record : ReplicationRecord} (h : node.Bounded)
    (happend : node.appendRecordEntry options io record = (node', outcome)) : node'.Bounded := by
  unfold NodeState.appendRecordEntry compactRecords at happend
  split at happend
  · cases happend
    exact h
  · dsimp only at happend
    split at happend
    · split at happend <;> cases happend <;> exact ⟨h.document, h.lsn, h.saved⟩
    · cases happend
      exact ⟨h.document, h.lsn, h.saved⟩

theorem nextId_lt {lsn next : Nat} (hlsn : lsn < 2 ^ 64) (hnext : nextId lsn = some next) : next < 2 ^ 64 := by
  unfold nextId maxU64 at hnext
  split_ifs at hnext
  cases hnext
  omega

theorem Bounded.applyRecord {expected : SourceBinding} {entry : Result ReplicationRecord} (h : node.Bounded)
    (happly : node.applyRecord options io expected entry = (node', outcome)) : node'.Bounded := by
  unfold NodeState.applyRecord at happly
  cases entry with
  | error refusal =>
    cases happly
    exact h
  | ok entry =>
    dsimp only at happly
    split_ifs at happly with horigin hnext
    · cases happly
      exact h
    · cases happly
      exact h
    · split at happly
      · cases happly
        exact h
      · rename_i document hput
        have hbefore : Bounded { node with
            document := document, lsn := entry.lsn, operationId := wrapAdd node.operationId 1 } :=
          ⟨h.document.put hput, nextId_lt h.lsn (not_not.1 hnext), h.saved⟩
        exact hbefore.appendRecordEntry happly

theorem Bounded.applyAll {expected : SourceBinding} {entries : List (Result ReplicationRecord)} (h : node.Bounded)
    (happly : applyAll options io expected node entries = (node', outcome)) : node'.Bounded := by
  induction entries generalizing node with
  | nil =>
    cases happly
    exact h
  | cons entry rest ih =>
    unfold NodeState.applyAll at happly
    split at happly
    · rename_i heq
      cases happly
      exact h.applyRecord heq
    · rename_i heq
      exact ih (h.applyRecord heq) happly

theorem Bounded.recordSteps {steps : List MigrationStepRecord} (h : node.Bounded)
    (hrecord : recordSteps options nowMs node steps = (node', outcome)) : node'.Bounded := by
  induction steps generalizing node with
  | nil =>
    cases hrecord
    exact h
  | cons step rest ih =>
    unfold NodeState.recordSteps at hrecord
    split at hrecord
    · cases hrecord
      exact h
    · rename_i journal _
      have hbefore : Bounded { node with journal := journal } := ⟨h.document, h.lsn, h.saved⟩
      exact ih hbefore hrecord

theorem Bounded.applyWrite {key value : String} {epoch generation : Nat} {origin : IncarnationId} (h : node.Bounded)
    (hwrite : node.applyWrite options digestOf io key value epoch generation origin = (node', outcome)) : node'.Bounded := by
  unfold NodeState.applyWrite at hwrite
  split at hwrite
  · cases hwrite
    exact h
  · rename_i lsn hnext
    split at hwrite
    · cases hwrite
      exact h
    · rename_i document hput
      dsimp only at hwrite
      have hbefore : Bounded { node with
          document := document, lsn := lsn, operationId := wrapAdd node.operationId 1 } :=
        ⟨h.document.put hput, nextId_lt h.lsn hnext, h.saved⟩
      split at hwrite
      · rename_i heq
        cases hwrite
        exact hbefore.appendRecordEntry heq
      · rename_i heq
        have hnode : (NodeState.saveState _ io).1 = node' := congrArg Prod.fst hwrite
        exact hnode ▸ (hbefore.appendRecordEntry heq).saveState

theorem readSnapshot_ok {expected : SourceBinding} {body : SnapshotBody} {document : StateDocument} {lsn : Nat} {digest : Digest}
    (h : readSnapshot digestOf expected body = .ok (document, lsn, digest)) :
    ∃ fields refuse, body.schema = some document.schema ∧ 0 < document.schema ∧ document.schema ≤ maxU32 ∧
      body.lsn = some lsn ∧ body.digest = some (some digest) ∧ body.fields = some fields ∧
      StateDocument.putAll refuse { schema := document.schema } fields = .ok document ∧
      digest = snapshotDigest digestOf document lsn ∧ document.schema = expected.schema := by
  unfold readSnapshot at h
  split at h
  · rename_i schema lsn' recorded hschema hlsn hdigest
    obtain ⟨recorded', hrecorded, h⟩ := Result.bind_eq_ok.mp h
    obtain ⟨fields, hfields, h⟩ := Result.bind_eq_ok.mp h
    obtain ⟨incoming, hput, h⟩ := Result.bind_eq_ok.mp h
    obtain ⟨_, hcomputed, h⟩ := Result.bind_eq_ok.mp h
    obtain ⟨_, hexpected, h⟩ := Result.bind_eq_ok.mp h
    cases h
    obtain ⟨hsome, hrange⟩ := Option.filter_eq_some_iff.mp hschema
    rw [Bool.and_eq_true, decide_eq_true_eq, decide_eq_true_eq] at hrange
    obtain rfl : document.schema = schema := StateDocument.schema_of_putAll hput
    obtain rfl := orRefuse_eq_ok.mp hrecorded
    have hdig := of_decide_eq_true (refuseUnless_eq_ok.mp hcomputed)
    have hexp := of_decide_eq_true (refuseUnless_eq_ok.mp hexpected)
    exact ⟨fields, _, hsome, Nat.pos_of_ne_zero hrange.1, hrange.2, hlsn, hdig ▸ hdigest, orRefuse_eq_ok.mp hfields, hput, rfl,
      hexp⟩
  · cases h

theorem Bounded.installSnapshot {handoff : Option Nat} {snapshot : Option SnapshotBody} (h : node.Bounded)
    (hbody : ∀ body, snapshot = some body → ∀ lsn, body.lsn = some lsn → lsn < 2 ^ 64) :
    (node.installSnapshot digestOf io handoff snapshot).1.Bounded := by
  unfold NodeState.installSnapshot
  dsimp only
  split
  · exact h
  · rename_i document lsn digest hchecked
    obtain ⟨handoff', -, hchecked⟩ := Result.bind_eq_ok.mp hchecked
    obtain ⟨expected, -, hchecked⟩ := Result.bind_eq_ok.mp hchecked
    obtain ⟨body, hsome, hchecked⟩ := Result.bind_eq_ok.mp hchecked
    obtain ⟨fields, refuse, -, hpos, hle, hlsn, -, -, hput, -⟩ := readSnapshot_ok hchecked
    have hdocument : document.Bounded := (StateDocument.bounded_empty hpos hle).putAll hput
    have hposition : lsn < 2 ^ 64 := hbody body (orRefuse_eq_ok.mp hsome) lsn hlsn
    split
    · exact ⟨hdocument, hposition, h.saved⟩
    · refine Bounded.saveThen ?_ _
      exact ⟨hdocument, hposition, h.saved⟩

theorem mem_of_mapM_id {α : Type} {l : List (Result α)} {values : List α} (h : l.mapM id = .ok values) {a : α} (ha : a ∈ values) :
    .ok a ∈ l := by
  induction l generalizing values with
  | nil =>
    cases h
    cases ha
  | cons entry rest ih =>
    rw [List.mapM_cons] at h
    obtain ⟨first, hfirst, h⟩ := Result.bind_eq_ok.mp h
    obtain ⟨others, hothers, h⟩ := Result.bind_eq_ok.mp h
    cases h
    rcases List.mem_cons.mp ha with rfl | ha
    · rw [show entry = .ok a from hfirst]
      exact List.mem_cons_self
    · exact List.mem_cons_of_mem _ (ih hothers ha)

theorem Bounded.migrate {handoff : Option Nat} {steps : Option (List (Result MigrationStepSpec))} (h : node.Bounded)
    (hsteps : ∀ l, steps = some l → ∀ spec, .ok spec ∈ l → spec.target ≤ maxU32) :
    (node.migrate options digestOf io nowMs handoff steps).1.Bounded := by
  unfold NodeState.migrate
  dsimp only
  split
  · exact h
  · rename_i handoff' path hchecked
    obtain ⟨_, -, hchecked⟩ := Result.bind_eq_ok.mp hchecked
    obtain ⟨l, hl, hchecked⟩ := Result.bind_eq_ok.mp hchecked
    obtain ⟨_, -, hchecked⟩ := Result.bind_eq_ok.mp hchecked
    obtain ⟨path', hpath, hchecked⟩ := Result.bind_eq_ok.mp hchecked
    cases hchecked
    have htargets : ∀ spec ∈ path, spec.target ≤ maxU32 := by
      intro spec hspec
      exact hsteps l (Option.filter_eq_some_iff.mp (orRefuse_eq_ok.mp hl)).1 spec (mem_of_mapM_id hpath hspec)
    split
    · exact h
    · rename_i document outcome hmigrate
      obtain ⟨⟨final, records⟩, hmigrated, hmigrate⟩ := Result.bind_eq_ok.mp hmigrate
      cases hmigrate
      have hbefore : Bounded { node with document := document } :=
        ⟨h.document.migrateSteps htargets hmigrated, h.lsn, h.saved⟩
      split
      · rename_i heq
        exact hbefore.recordSteps heq
      · rename_i heq
        exact (hbefore.recordSteps heq).saveThen _

theorem Bounded.applyRecords {body : ApplyBody} (h : node.Bounded) : (node.applyRecords options io body).1.Bounded := by
  unfold NodeState.applyRecords
  dsimp only
  split
  · exact h
  · split
    · rename_i heq
      exact h.applyAll heq
    · rename_i heq
      exact (h.applyAll heq).saveThen _

theorem Bounded.write {body : WriteBody} (h : node.Bounded) : (node.write options digestOf io nowMs body).1.Bounded := by
  unfold NodeState.write
  split
  · exact h
  · exact h
  · split
    · exact ⟨h.document, h.lsn, h.saved⟩
    · exact h
    · split
      · split
        · rename_i heq
          exact h.applyWrite heq
        · rename_i heq
          have hafter := h.applyWrite heq
          exact ⟨hafter.document, hafter.lsn, hafter.saved⟩
      · exact h

theorem Bounded.snapshot {handoff : Option Nat} (h : node.Bounded) : (node.snapshot digestOf io handoff).1.Bounded := by
  unfold NodeState.snapshot
  split
  · exact h
  · split
    · exact h
    · split
      · exact h
      · split
        rename_i node' corrupted hfault
        have hbefore := h.takeFault hfault
        dsimp only
        split
        · exact hbefore
        · refine Bounded.saveThen ?_ _
          exact ⟨hbefore.document, hbefore.lsn, hbefore.saved⟩

theorem Bounded.prepare {body : PrepareBody} (h : node.Bounded) : (node.prepare options nowMs body).1.Bounded := by
  unfold NodeState.prepare prepareSuccessor preparePredecessor
  repeat' split
  all_goals exact ⟨h.document, h.lsn, h.saved⟩

/-- Every request keeps the bounds. -/
theorem bounded_dispatch {request : NodeRequest} (h : node.Bounded) (htyped : request.WellTyped) :
    (node.dispatch options digestOf io nowMs laterMs request).1.Bounded := by
  cases request with
  | hello => exact h
  | status => exact h
  | faults op action count =>
    simp only [dispatch, faultsHandler, setFault]
    repeat' split
    all_goals exact ⟨h.document, h.lsn, h.saved⟩
  | prepare body => exact h.prepare
  | snapshot handoff => exact h.snapshot
  | installSnapshot handoff snapshot => exact h.installSnapshot htyped
  | readSince fromLsn maxRecords =>
    simp only [dispatch, readSince]
    split <;> exact h
  | applyRecords body => exact h.applyRecords
  | readiness handoff targetLsn targetSchema =>
    simp only [dispatch, readiness]
    repeat' split
    all_goals exact h
  | fence body =>
    simp only [dispatch, fence]
    split
    · exact h
    · split_ifs
      · exact h
      · exact h
      · refine Bounded.saveThen ?_ _
        exact ⟨h.document, h.lsn, h.saved⟩
  | grantAuthority body =>
    simp only [dispatch, grantAuthority]
    split
    · exact h
    · split
      · exact h
      · split
        · exact h
        · refine Bounded.saveThen ?_ _
          exact ⟨h.document, h.lsn, h.saved⟩
  | reattest token =>
    simp only [dispatch, reattest]
    repeat' split
    all_goals exact ⟨h.document, h.lsn, h.saved⟩
  | migrate handoff steps => exact h.migrate htyped
  | retire handoff =>
    simp only [dispatch, retire]
    split
    · exact h
    · refine Bounded.saveThen ?_ _
      exact ⟨h.document, h.lsn, h.saved⟩
  | write body => exact h.write
  | read key allowStale =>
    simp only [dispatch, read]
    repeat' split
    all_goals exact ⟨h.document, h.lsn, h.saved⟩
  | unknown op => exact h

theorem bounded_handle {request : NodeRequest} (h : node.Bounded) (htyped : request.WellTyped) :
    (node.handle options digestOf io nowMs laterMs request).1.Bounded := by
  unfold handle
  split
  · rename_i heq
    exact h.takeFault heq
  · rename_i heq
    exact bounded_dispatch (h.takeFault heq) htyped

/-- A fresh process restores what the state file holds. -/
theorem bounded_opened {disk : NodeDisk} {uuid : IncarnationUuid} (hpos : 0 < options.schema) (hle : options.schema ≤ maxU32)
    (hsaved : ∀ file, disk.saved = some file → file.document.Bounded ∧ file.lsn < 2 ^ 64) :
    (opened options disk uuid).Bounded := by
  cases hdisk : disk.saved with
  | none =>
    have hempty := StateDocument.bounded_empty hpos hle
    refine ⟨by simpa [opened, hdisk] using hempty, by simp [opened, hdisk], ?_⟩
    rintro file hfile
    simp only [opened, hdisk, Option.getD_none, Option.some.injEq] at hfile
    subst hfile
    exact ⟨hempty, by simp [toSaved]⟩
  | some file =>
    obtain ⟨hdocument, hlsn⟩ := hsaved file hdisk
    refine ⟨by simpa [opened, hdisk] using hdocument, by simpa [opened, hdisk] using hlsn, ?_⟩
    rintro file' hfile
    simp only [opened, hdisk, Option.getD_some, Option.some.injEq] at hfile
    subst hfile
    exact ⟨hdocument, hlsn⟩

end NodeState

end FabricEvolution
