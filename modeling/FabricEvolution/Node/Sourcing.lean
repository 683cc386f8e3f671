import FabricEvolution.Node.Consecutive
import FabricEvolution.Node.Replication
import FabricEvolution.Node.Transfer

/-!
# A node as a source and as a successor

* `extended_handle` : a request that brings no content from elsewhere extends the content by at most one record;
* `image_of_handle`, `records_of_handle` : what a node ships is its document and its records;
* `expectedSource_handle` : only a preparation changes the source that a node follows.
-/

namespace FabricEvolution
open Lib

/-- The requests that put content from elsewhere in the place of a node's own. -/
def NodeRequest.replaces : NodeRequest → Bool
  | installSnapshot .. | applyRecords _ | migrate .. => true
  | _ => false

/-! ## What a source does -/

namespace NodeContent
variable {options : NodeOptions} {io : NodeIo} {record : ReplicationRecord} {content content' : NodeContent}
  {document : StateDocument}

/-- The content in memory is as before, or one record of `origin` further. -/
def Extended (origin : IncarnationId) (content content' : NodeContent) : Prop :=
  content'.document = content.document ∧ content'.lsn = content.lsn ∧ content'.records = content.records ∨
    ∃ record, record.origin = origin ∧ nextId content.lsn = some record.lsn ∧
      content.document.put record.key record.value = .ok content'.document ∧ content'.lsn = record.lsn ∧
      content'.records ⊆ content.records ++ [record]

/-- A record behind the log changes neither document, position nor state file. -/
theorem push_cases (options : NodeOptions) (io : NodeIo) (record : ReplicationRecord) (content : NodeContent) :
    ∃ records logged, content.push options io record = { content with records := records, logged := logged } ∧
      records ⊆ content.records ++ [record] := by
  unfold push
  rcases io.append record.lsn with refusal | ⟨⟩
  · exact ⟨_, _, rfl, List.subset_append_left _ _⟩
  · dsimp only
    split_ifs
    · rcases io.compact record.lsn with refusal | ⟨⟩
      · exact ⟨_, _, rfl, fun _ h => h⟩
      · exact ⟨_, _, rfl, List.drop_subset _ _⟩
    · exact ⟨_, _, rfl, fun _ h => h⟩

theorem extended_take (hnext : nextId content.lsn = some record.lsn)
    (hput : content.document.put record.key record.value = .ok document) :
    content.Extended record.origin (content.take options io record document) := by
  obtain ⟨records, logged, heq, hsub⟩ := push_cases options io record { content with document := document, lsn := record.lsn }
  rw [take, heq]
  exact .inr ⟨record, rfl, hnext, hput, rfl, hsub⟩

end NodeContent

namespace NodeState
variable {options : NodeOptions} {digestOf : Json → Digest} {io : NodeIo} {nowMs laterMs : Nat} {node : NodeState}
  {request : NodeRequest}

theorem extended_refl (node : NodeState) (origin : IncarnationId) : node.content.Extended origin node.content := .inl ⟨rfl, rfl, rfl⟩

theorem extended_saveState {content : NodeContent} {origin : IncarnationId} (node' : NodeState)
    (h : content.Extended origin node'.content) : content.Extended origin (node'.saveState io).1.content := by
  unfold saveState
  split <;> exact h

theorem extended_applyWrite (options : NodeOptions) (digestOf : Json → Digest) (io : NodeIo) (node : NodeState)
    (key value : String) (epoch generation : Nat) (origin : IncarnationId) : node.content.Extended origin
      (node.applyWrite options digestOf io key value epoch generation origin).1.content := by
  unfold applyWrite
  split
  · exact extended_refl node origin
  rename_i lsn hnext
  split
  · exact extended_refl node origin
  rename_i document hput
  have htake : ∀ record : ReplicationRecord, record.lsn = lsn → record.key = key → record.value = value → record.origin = origin →
      node.content.Extended origin (node.content.take options io record document) := by
    rintro record rfl rfl rfl rfl
    exact NodeContent.extended_take hnext hput
  dsimp only
  split
  · rename_i happend
    rw [← congrArg (fun r => r.1.content) happend, content_appendRecordEntry]
    exact htake _ rfl rfl rfl rfl
  · rename_i happend
    apply extended_saveState
    rw [← congrArg (fun r => r.1.content) happend, content_appendRecordEntry]
    exact htake _ rfl rfl rfl rfl

theorem extended_write (node : NodeState) (body : WriteBody) :
    node.content.Extended node.incarnation (node.write options digestOf io nowMs body).1.content := by
  unfold write
  split
  · exact extended_refl node _
  · exact extended_refl node _
  split
  · exact extended_refl node _
  · exact extended_refl node _
  · split
    · rename_i lease _ _ _ _ key value _ _
      have hextended := extended_applyWrite options digestOf io node key value lease.epoch lease.generation node.incarnation
      split
      · rename_i happly
        rw [happly] at hextended
        exact hextended
      · rename_i happly
        rw [happly] at hextended
        exact hextended
    · exact extended_refl node _

/-- A request that takes no content from elsewhere extends the content by at most one record. -/
theorem extended_handle (options : NodeOptions) (digestOf : Json → Digest) (io : NodeIo) (nowMs laterMs : Nat) (node : NodeState)
    (hrequest : request.replaces = false) :
    node.content.Extended node.incarnation (node.handle options digestOf io nowMs laterMs request).1.content := by
  by_cases hwrite : ∃ body, request = .write body
  · obtain ⟨body, rfl⟩ := hwrite
    obtain ⟨faults, ⟨-, heq, -⟩ | ⟨-, heq, -⟩⟩ := handle_faults options digestOf node io nowMs laterMs (.write body)
    · rw [heq]
      exact extended_refl node _
    · rw [heq]
      exact extended_write { node with faults := faults } body
  · -- Only the state file may be written.
    refine .inl (handle_keeps (P := fun content => content.document = node.document ∧ content.lsn = node.lsn ∧
      content.records = node.records) ?_ (fun _ h => h) ?_ ⟨rfl, rfl, rfl⟩)
    · rintro content content' h (_ | _ | _ | _ | _)
      · exact h
      · cases hrequest
      · cases hrequest
      · exact absurd ⟨_, rfl⟩ hwrite
      · cases hrequest
    · rintro content content' h (_ | _ | _ | _ | _)
      · cases hrequest
      · cases hrequest
      · exact absurd ⟨_, rfl⟩ hwrite

/-! ## What a source answers -/

theorem mem_takeFault {op : String} {rule : FaultRule} (h : rule ∈ (node.takeFault op).1.faults) :
    ∃ rule' ∈ node.faults, rule.op = rule'.op ∧ rule.remaining ≤ rule'.remaining := by
  unfold takeFault at h
  dsimp only at h
  split at h
  · exact ⟨rule, h, rfl, le_rfl⟩
  · rename_i armed harmed
    obtain ⟨pre, post, hfaults, hmodified, -⟩ := exists_modifyFirst harmed fun rule => { rule with remaining := rule.remaining - 1 }
    rw [hmodified] at h
    rw [hfaults]
    rcases List.mem_append.mp h with hpre | hrest
    · exact ⟨rule, List.mem_append_left _ hpre, rfl, le_rfl⟩
    · rcases List.mem_cons.mp hrest with rfl | hpost
      · exact ⟨armed, List.mem_append_right _ (List.mem_cons_self ..), rfl, Nat.sub_le _ _⟩
      · exact ⟨rule, List.mem_append_right _ (List.mem_cons_of_mem _ hpost), rfl, le_rfl⟩

theorem takeFault_quiet {op : String} (h : ∀ rule ∈ node.faults, rule.op = op → rule.remaining = 0) :
    (node.takeFault op).2 = none := by
  have hfind : node.faults.find? (fun rule => rule.op = op && 0 < rule.remaining) = none := by
    apply List.find?_eq_none.mpr
    intro rule hrule harmed
    obtain ⟨hop, hpos⟩ := (Bool.and_eq_true _ _).mp harmed
    have hspent := h rule hrule (of_decide_eq_true hop)
    have hpos := of_decide_eq_true hpos
    omega
  unfold takeFault
  simp only [hfind]

/-- A snapshot that is answered without injected corruption is an image of the document. -/
theorem image_of_handle {handoff : Option Nat} {handoff' : Nat} {image : SnapshotImage}
    (hquiet : ∀ rule ∈ node.faults, rule.op = "node.snapshot.corrupt" → rule.remaining = 0)
    (h : (node.handle options digestOf io nowMs laterMs (.snapshot handoff)).2.1 = .ok (.snapshot handoff' image)) :
    image.lsn = node.lsn ∧ image.schema = node.document.schema ∧ image.fields = node.document.members := by
  obtain ⟨faults, hfaults⟩ := takeFault_fst node (NodeRequest.snapshot handoff).op
  unfold handle at h
  split at h
  · cases h
  · rename_i node' fault _ htake
    have hnode : node' = { node with faults := faults } := by
      rw [htake] at hfaults
      exact hfaults
    have hquiet' : (node'.takeFault "node.snapshot.corrupt").2 = none := by
      apply takeFault_quiet
      intro rule hrule hop
      obtain ⟨rule', hrule', hsame, hle⟩ := mem_takeFault (by rw [htake]; exact hrule)
      have hspent := hquiet rule' hrule' (hsame ▸ hop)
      omega
    have hanswered : node'.snapshot digestOf io handoff = (_, .ok (.snapshot handoff' image)) := Prod.ext rfl h
    obtain ⟨-, -, -, hlsn, hschema, -, hfields⟩ := snapshot_ok hanswered
    rw [hquiet'] at hfields
    subst hnode
    exact ⟨hlsn, hschema, hfields⟩

theorem records_of_handle {fromLsn maxRecords : Option Nat} {records : List ReplicationRecord} {lsn oldestLsn : Nat}
    {truncated : Bool} (h : (node.handle options digestOf io nowMs laterMs (.readSince fromLsn maxRecords)).2.1 =
      .ok (.records records lsn oldestLsn truncated)) : records ⊆ node.records := by
  obtain ⟨faults, ⟨-, -, refusal, hrefused⟩ | ⟨-, -, hanswer⟩⟩ :=
    handle_faults options digestOf node io nowMs laterMs (.readSince fromLsn maxRecords)
  · rw [hrefused] at h
    cases h
  · rw [hanswer] at h
    unfold dispatch readSince at h
    dsimp only at h
    split at h
    · cases h
    · cases h
      exact fun record hrecord => List.mem_of_mem_filter (List.mem_of_mem_take hrecord)

/-! ## The prepared source -/

theorem expectedSource_saveThen (answer : NodeAnswer) : (node.saveThen io answer).1.expectedSource = node.expectedSource := by
  rw [saveThen_fst, saveState]
  split <;> rfl

theorem expectedSource_takeFault (op : String) : (node.takeFault op).1.expectedSource = node.expectedSource := by
  obtain ⟨faults, heq⟩ := takeFault_fst node op
  rw [heq]

theorem expectedSource_appendRecordEntry (record : ReplicationRecord) :
    (node.appendRecordEntry options io record).1.expectedSource = node.expectedSource := by
  obtain ⟨records, logged, heq, -⟩ := appendRecordEntry_fst options io node record
  rw [heq]

theorem expectedSource_applyAll {expected : SourceBinding} {entries : List (Result ReplicationRecord)} (node : NodeState) :
    (applyAll options io expected node entries).1.expectedSource = node.expectedSource := by
  induction entries generalizing node with
  | nil => rfl
  | cons entry rest ih =>
    have hone : (node.applyRecord options io expected entry).1.expectedSource = node.expectedSource := by
      rcases applyRecord_cases options io node expected entry with
        ⟨⟨refusal, heq⟩, -⟩ | ⟨record, document, log, logged, -, -, -, -, heq, -⟩
      · rw [heq]
      · rw [heq]
        rfl
    unfold applyAll
    split
    · rename_i happly
      rw [happly] at hone
      exact hone
    · rename_i happly
      rw [happly] at hone
      exact (ih _).trans hone

theorem expectedSource_recordSteps {steps : List MigrationStepRecord} (node : NodeState) :
    (recordSteps options nowMs node steps).1.expectedSource = node.expectedSource := by
  induction steps generalizing node with
  | nil => rfl
  | cons step rest ih =>
    unfold recordSteps
    split
    · rfl
    · exact ih _

theorem expectedSource_applyWrite (key value : String) (epoch generation : Nat) (origin : IncarnationId) :
    (node.applyWrite options digestOf io key value epoch generation origin).1.expectedSource = node.expectedSource := by
  unfold applyWrite
  split
  · rfl
  split
  · rfl
  dsimp only
  split
  · rename_i happend
    rw [← congrArg (fun r => r.1.expectedSource) happend]
    exact expectedSource_appendRecordEntry _
  · rename_i happend
    rw [← saveThen_fst .done, expectedSource_saveThen, ← congrArg (fun r => r.1.expectedSource) happend]
    exact expectedSource_appendRecordEntry _

theorem expectedSource_prepare (options : NodeOptions) (nowMs : Nat) (node : NodeState) (body : PrepareBody) :
    ∃ expected, (node.prepare options nowMs body).1.expectedSource = expected ∧ (expected = node.expectedSource ∨
      ∃ binding handoff, body.source = some (.ok binding) ∧ expected = some { binding with handoff := handoff }) := by
  unfold prepare prepareSuccessor preparePredecessor
  split
  · exact ⟨_, rfl, .inl rfl⟩
  split_ifs
  · exact ⟨_, rfl, .inl rfl⟩
  · exact ⟨_, rfl, .inl rfl⟩
  · split
    · split_ifs
      · exact ⟨_, rfl, .inl rfl⟩
      · exact ⟨_, rfl, .inl rfl⟩
      · exact ⟨_, rfl, .inl rfl⟩
      · exact ⟨_, rfl, .inl rfl⟩
      · split
        · exact ⟨_, rfl, .inl rfl⟩
        · exact ⟨_, rfl, .inl rfl⟩
        · rename_i binding hsource
          split_ifs
          · exact ⟨_, rfl, .inl rfl⟩
          · exact ⟨_, rfl, .inr ⟨binding, _, hsource, rfl⟩⟩
    · exact ⟨_, rfl, .inl rfl⟩
  · exact ⟨_, rfl, .inl rfl⟩
  · exact ⟨_, rfl, .inl rfl⟩

/-- Only a preparation as successor changes the source that a node follows. -/
theorem expectedSource_dispatch (request : NodeRequest) :
    (node.dispatch options digestOf io nowMs laterMs request).1.expectedSource = node.expectedSource ∨
      ∃ body binding handoff, request = .prepare body ∧ body.source = some (.ok binding) ∧
        (node.dispatch options digestOf io nowMs laterMs request).1.expectedSource = some { binding with handoff := handoff } := by
  cases request with
  | prepare body =>
    obtain ⟨expected, heq, hkept | ⟨binding, handoff, hsource, hnew⟩⟩ := expectedSource_prepare options nowMs node body
    · exact .inl (heq.trans hkept)
    · exact .inr ⟨body, binding, handoff, rfl, hsource, heq.trans hnew⟩
  | hello | status | unknown op => exact .inl rfl
  | faults op action count =>
    simp only [dispatch, faultsHandler, setFault]
    repeat' split
    all_goals exact .inl rfl
  | snapshot handoff =>
    refine .inl ?_
    unfold dispatch snapshot
    dsimp only
    split
    · rfl
    split_ifs
    · rfl
    · rfl
    all_goals
      split
      · exact expectedSource_takeFault _
      · rw [expectedSource_saveThen]
        exact expectedSource_takeFault _
  | installSnapshot handoff snapshot =>
    refine .inl ?_
    unfold dispatch installSnapshot
    dsimp only
    repeat' split
    · rfl
    · rfl
    · rw [expectedSource_saveThen]
  | readSince fromLsn maxRecords =>
    refine .inl ?_
    simp only [dispatch, readSince]
    split <;> rfl
  | applyRecords body =>
    refine .inl ?_
    unfold dispatch applyRecords
    dsimp only
    repeat' split
    · rfl
    · rename_i happly
      exact (congrArg (·.1.expectedSource) happly).symm.trans (expectedSource_applyAll _)
    · rename_i happly
      rw [expectedSource_saveThen]
      exact (congrArg (·.1.expectedSource) happly).symm.trans (expectedSource_applyAll _)
  | readiness handoff targetLsn targetSchema =>
    refine .inl ?_
    simp only [dispatch, readiness]
    repeat' split
    all_goals rfl
  | fence body =>
    refine .inl ?_
    rcases fence_cases node io body with ⟨heq, -⟩ | ⟨-, id, answer, heq⟩ <;> simp only [dispatch, heq]
    exact expectedSource_saveThen answer
  | grantAuthority body =>
    refine .inl ?_
    rcases grantAuthority_cases options node io nowMs laterMs body with ⟨heq, -⟩ | ⟨-, lease, answer, -, heq⟩ <;>
      simp only [dispatch, heq]
    exact expectedSource_saveThen answer
  | reattest token =>
    refine .inl ?_
    rcases reattest_cases node nowMs token with ⟨heq, -⟩ | ⟨lease, answer, -, -, -, heq⟩ <;> simp only [dispatch, heq]
  | migrate handoff steps =>
    refine .inl ?_
    unfold dispatch migrate
    dsimp only
    repeat' split
    · rfl
    · rfl
    · rename_i hrecord
      exact (congrArg (·.1.expectedSource) hrecord).symm.trans (expectedSource_recordSteps _)
    · rename_i hrecord
      rw [expectedSource_saveThen]
      exact (congrArg (·.1.expectedSource) hrecord).symm.trans (expectedSource_recordSteps _)
  | retire handoff =>
    refine .inl ?_
    rcases retire_cases node io handoff with ⟨heq, -⟩ | ⟨answer, heq⟩ <;> simp only [dispatch, heq]
    exact expectedSource_saveThen answer
  | write body =>
    refine .inl ?_
    unfold dispatch write
    dsimp only
    repeat' split
    all_goals first | rfl | skip
    · rename_i happly
      exact (congrArg (·.1.expectedSource) happly).symm.trans (expectedSource_applyWrite _ _ _ _ _)
    · rename_i happly
      exact (congrArg (·.1.expectedSource) happly).symm.trans (expectedSource_applyWrite _ _ _ _ _)
  | read key allowStale =>
    refine .inl ?_
    simp only [dispatch, read]
    repeat' split
    all_goals rfl

theorem expectedSource_handle (options : NodeOptions) (digestOf : Json → Digest) (io : NodeIo) (nowMs laterMs : Nat) (node : NodeState)
    (request : NodeRequest) :
    (node.handle options digestOf io nowMs laterMs request).1.expectedSource = node.expectedSource ∨
      ∃ body binding handoff, request = .prepare body ∧ body.source = some (.ok binding) ∧
        (node.handle options digestOf io nowMs laterMs request).1.expectedSource = some { binding with handoff := handoff } := by
  obtain ⟨faults, ⟨-, heq, -⟩ | ⟨-, heq, -⟩⟩ := handle_faults options digestOf node io nowMs laterMs request
  · exact .inl (by rw [heq])
  · rw [heq]
    exact expectedSource_dispatch request

/-- Without a confirmed lease no write changes the content. -/
theorem content_handle_unconfirmed {body : WriteBody} (h : node.leaseConfirmed = false) :
    (node.handle options digestOf io nowMs laterMs (.write body)).1.content = node.content := by
  obtain ⟨faults, ⟨-, heq, -⟩ | ⟨-, heq, -⟩⟩ := handle_faults options digestOf node io nowMs laterMs (.write body)
  · rw [heq]
    rfl
  · rw [heq]
    unfold dispatch write
    dsimp only
    split
    · rfl
    · rfl
    split
    · rfl
    · rfl
    · rename_i hauthority _
      have hlive := (mutates_of_requireAuthority hauthority).live
      unfold leaseLive at hlive
      dsimp only at hlive
      rw [h] at hlive
      split at hlive <;> cases hlive

end NodeState

end FabricEvolution
