import FabricEvolution.Node.Writes

/-!
# Replicated batches

* `ReplicationRecord.fromJson` : a record as the successor reads it; `digest_of_fromJson` : its digest is that of its contents;
* `Presents` : what a batch has passed when its first record is looked at; `Continues` : every record of it is admitted in turn;
* `applyAll_ok` : what an applied batch is and does; `continues_of_applyAll`, `applyAll_of_continues` : a batch is applied
  exactly if its records continue the state.
-/

namespace FabricEvolution
open Lib

/-- Read a record; its digest is computed, and compared with the declared one if there is one. -/
def ReplicationRecord.fromJson (digestOf : Json → Digest) (value : Json) : Result ReplicationRecord := do
  refuseUnless value.isObject (malformed "replication record must be an object")
  let lsn ← orRefuse (jsonPositive value "lsn") (malformed "replication record lsn must be positive")
  let key ← orRefuse ((jsonString value "key").filter fun key => key ≠ "" && key.length ≤ maxStateKeyBytes)
    (malformed "replication record key is missing or out of range")
  let text ← orRefuse ((jsonString value "value").filter fun text => text.length ≤ maxStateValueBytes)
    (malformed "replication record value is missing or out of range")
  let epoch ← orRefuse (jsonPositive value "epoch") (malformed "replication record epoch/generation must be positive")
  let generation ← orRefuse (jsonPositive value "generation")
    (malformed "replication record epoch/generation must be positive")
  let originValue ← orRefuse (value.find "origin") (malformed "replication record is missing origin")
  let origin ← incarnationFromJson originValue
  let record : ReplicationRecord := { lsn, key, value := text, epoch, generation, origin, digest := .zero }
  let record := { record with digest := replicationRecordDigest digestOf record }
  match jsonString value "digest" with
  | none => return record
  | some recorded =>
    let declared ← orRefuse (Digest.fromHex recorded) (malformed "replication record digest is not a sha256 hex digest")
    refuseUnless (declared = record.digest)
      (.plain .integrityFailure "replication record digest does not match its contents")
    return record

theorem ReplicationRecord.digest_of_fromJson {digestOf : Json → Digest} {value : Json} {record : ReplicationRecord}
    (h : fromJson digestOf value = .ok record) : record.digest = replicationRecordDigest digestOf record := by
  unfold fromJson at h
  simp only [Result.bind_eq_ok] at h
  obtain ⟨-, -, lsn, -, key, -, text, -, epoch, -, generation, -, originValue, -, origin, -, h⟩ := h
  split at h
  · cases h
    rfl
  · simp only [Result.bind_eq_ok] at h
    obtain ⟨-, -, -, -, h⟩ := h
    cases h
    rfl

/-- The records originate from the prepared source, run on from the log position, and the document takes their fields one
after another. -/
inductive Continues (expected : SourceBinding) : StateDocument → Nat → List (Result ReplicationRecord) → Prop where
  | nil (document : StateDocument) (lsn : Nat) : Continues expected document lsn []
  | cons {document document' : StateDocument} {lsn : Nat} {record : ReplicationRecord}
      {rest : List (Result ReplicationRecord)} (horigin : record.origin = expected.source)
      (hnext : nextId lsn = some record.lsn) (hput : document.put record.key record.value = .ok document')
      (hrest : Continues expected document' record.lsn rest) : Continues expected document lsn (.ok record :: rest)

namespace NodeState

/-- A batch for the prepared handoff, with the prepared binding and of a permitted size. -/
structure Presents (options : NodeOptions) (node : NodeState) (body : ApplyBody) (expected : SourceBinding)
    (entries : List (Result ReplicationRecord)) : Prop where
  prepared : node.expectedSource = some expected
  handoff : body.handoff = some expected.handoff
  positive : expected.handoff ≠ 0
  source : ∃ presented, body.source = some (.ok presented) ∧ { presented with handoff := expected.handoff } = expected
  records : body.records = some entries
  size : entries.length ≤ options.maxRecordsPerResponse

/-- The records are applied in their order: the document with all their fields, the log position and the operation count
moved on, the records at the end of the log. -/
structure Applied (node node' : NodeState) (records : List ReplicationRecord) : Prop where
  document : records.foldlM (fun document record => document.put record.key record.value) node.document = .ok node'.document
  lsns : records.map (·.lsn) = List.range' (node.lsn + 1) records.length
  lsn : node'.lsn = node.lsn + records.length
  operationId : node'.operationId = (wrapAdd · 1)^[records.length] node.operationId
  log : node'.records <:+ node.records ++ records

variable (options : NodeOptions) (digestOf : Json → Digest)

/-- With every file effect succeeding: an error leaves content and state directory as they were, an answer stands for every
record of the batch. -/
structure AllOrNothing (node : NodeState) (body : ApplyBody) (nowMs laterMs : Nat) : Prop where
  refused : ∀ refusal, (node.handle options digestOf {} nowMs laterMs (.applyRecords body)).2.1 = .error refusal →
    SameContent node (node.handle options digestOf {} nowMs laterMs (.applyRecords body)).1 ∧
      (node.handle options digestOf {} nowMs laterMs (.applyRecords body)).1.disk = node.disk
  accepted : ∀ answer, (node.handle options digestOf {} nowMs laterMs (.applyRecords body)).2.1 = .ok answer →
    ∃ records, body.records = some (records.map .ok) ∧
      Applied node (node.handle options digestOf {} nowMs laterMs (.applyRecords body)).1 records ∧
      (node.handle options digestOf {} nowMs laterMs (.applyRecords body)).1.disk.saved =
        some (node.handle options digestOf {} nowMs laterMs (.applyRecords body)).1.toSaved

/-- A batch whose records are looked at is admitted as a whole if its first record is. -/
def FirstDecides (node : NodeState) (body : ApplyBody) : Prop :=
  (node.takeFault "node.apply_records").2 ≠ some "error" → ∀ expected entries, node.Presents options body expected entries →
    Continues expected node.document node.lsn (entries.take 1) → Continues expected node.document node.lsn entries

/-- An answered batch was presented under the prepared binding, and every record of it is bound to that source, epoch and
generation, carries the digest of its contents and has the next log position. -/
def KeepsBinding (node : NodeState) (handoff : Option Nat) (source : Option (Result SourceBinding)) (values : List Json) : Prop :=
  ∀ io nowMs laterMs answer,
    (node.handle options digestOf io nowMs laterMs (.applyRecords
      ⟨handoff, source, some (values.map (ReplicationRecord.fromJson digestOf))⟩)).2.1 = .ok answer →
    ∃ (expected presented : SourceBinding) (records : List ReplicationRecord),
      node.expectedSource = some expected ∧ handoff = some expected.handoff ∧
      source = some (.ok presented) ∧ { presented with handoff := expected.handoff } = expected ∧
      values.map (ReplicationRecord.fromJson digestOf) = records.map .ok ∧
      Applied node (node.handle options digestOf io nowMs laterMs (.applyRecords
        ⟨handoff, source, some (values.map (ReplicationRecord.fromJson digestOf))⟩)).1 records ∧
      ∀ record ∈ records, record.origin = expected.source ∧ record.epoch = expected.epoch ∧
        record.generation = expected.generation ∧ record.digest = replicationRecordDigest digestOf record

/-- The records of a batch that is admitted carry the prepared epoch and generation. -/
def OfPreparedTerm (node : NodeState) (handoff : Option Nat) (source : Option (Result SourceBinding)) (values : List Json) :
    Prop :=
  (node.takeFault "node.apply_records").2 ≠ some "error" → ∀ (expected : SourceBinding) (records : List ReplicationRecord),
    node.Presents options ⟨handoff, source, some (values.map (ReplicationRecord.fromJson digestOf))⟩ expected
      (records.map .ok) →
    Continues expected node.document node.lsn (records.map .ok) →
    ∀ record ∈ records, record.epoch = expected.epoch ∧ record.generation = expected.generation

end NodeState

namespace NodeState
variable {options : NodeOptions} {digestOf : Json → Digest} {io : NodeIo} {nowMs laterMs : Nat}
  {node : NodeState} {body : ApplyBody} {expected : SourceBinding} {entries : List (Result ReplicationRecord)}

/-! ## The checks before the records -/

theorem matches_iff {presented : SourceBinding} {handoff : Nat} (hhandoff : expected.handoff = handoff) :
    ({ presented with handoff := handoff } : SourceBinding).matches expected = true ↔
      ({ presented with handoff := expected.handoff } : SourceBinding) = expected := by
  subst hhandoff
  simp only [SourceBinding.matches, Bool.and_eq_true, decide_eq_true_eq, and_assoc]
  constructor
  · rintro ⟨hsource, hepoch, hgeneration, htoken, hschema⟩
    rw [hsource, hepoch, hgeneration, htoken, hschema]
  · intro heq
    rw [← heq]
    exact ⟨rfl, rfl, rfl, rfl, rfl⟩

/-- The checks of `applyRecords` before the first record. -/
def readBatch (options : NodeOptions) (node : NodeState) (body : ApplyBody) :
    Result (SourceBinding × List (Result ReplicationRecord)) := do
  let handoff ← parseHandoffId body.handoff
  let expected ← node.preparedFor handoff
  let source ← orRefuse body.source (invalidArgument "apply_records requires the source binding")
  let presented ← source
  let presented := { presented with handoff := handoff }
  refuseUnless (presented.matches expected) ⟨.staleGeneration,
    "replicated state is not bound to the generation the successor was prepared for",
    .ofPairs [("presented", presented.toJson), ("expected", expected.toJson)]⟩
  let entries ← orRefuse body.records (invalidArgument "apply_records requires a records array")
  refuseUnless (entries.length ≤ options.maxRecordsPerResponse)
    ⟨.boundsExceeded, "apply_records batch exceeds the permitted size",
      .ofPairs [("records", .uint entries.length), ("limit", .uint options.maxRecordsPerResponse)]⟩
  return (expected, entries)

theorem applyRecords_eq (options : NodeOptions) (io : NodeIo) (node : NodeState) (body : ApplyBody) :
    node.applyRecords options io body =
      match node.readBatch options body with
      | .error refusal => (node, .error refusal)
      | .ok (expected, entries) =>
        match applyAll options io expected node entries with
        | (node, .error refusal) => (node, .error refusal)
        | (node, .ok ()) => node.saveThen io (.applied entries.length node.lsn) := rfl

theorem readBatch_ok : node.readBatch options body = .ok (expected, entries) ↔
    node.Presents options body expected entries := by
  simp only [readBatch, parseHandoffId, preparedFor, Result.bind_eq_ok, orRefuse_eq_ok, refuseUnless_eq_ok,
    Option.filter_eq_some_iff, decide_eq_true_eq]
  constructor
  · rintro ⟨handoff, ⟨hhandoff, hpositive⟩, expected', ⟨hprepared, hfor⟩, source, hsource, presented, rfl, -, hmatches,
      entries', hrecords, -, hsize, hpair⟩
    cases hpair
    exact ⟨hprepared, hfor ▸ hhandoff, hfor ▸ hpositive, ⟨presented, hsource, (matches_iff hfor).1 hmatches⟩, hrecords, hsize⟩
  · rintro ⟨hprepared, hhandoff, hpositive, ⟨presented, hsource, hbound⟩, hrecords, hsize⟩
    exact ⟨expected.handoff, ⟨hhandoff, hpositive⟩, expected, ⟨hprepared, rfl⟩, _, hsource, presented, rfl, (),
      (matches_iff rfl).2 hbound, entries, hrecords, (), hsize, rfl⟩

/-! ## The records -/

theorem applyRecord_of_admitted {record : ReplicationRecord} {document : StateDocument} (options : NodeOptions) (io : NodeIo)
    (horigin : record.origin = expected.source) (hnext : nextId node.lsn = some record.lsn)
    (hput : node.document.put record.key record.value = .ok document) :
    node.applyRecord options io expected (.ok record) =
      { node with document := document, lsn := record.lsn, operationId := wrapAdd node.operationId 1 }.appendRecordEntry
        options io record := by
  unfold applyRecord
  dsimp only
  rw [if_neg (not_not_intro horigin), if_neg (not_not_intro hnext), hput]

/-- A record that is not admitted is refused, and the node is as it was. -/
theorem applyRecord_refused {entry : Result ReplicationRecord} (options : NodeOptions) (io : NodeIo)
    (h : ¬ Continues expected node.document node.lsn [entry]) :
    ∃ refusal, node.applyRecord options io expected entry = (node, .error refusal) := by
  unfold applyRecord
  cases entry with
  | error refusal => exact ⟨refusal, rfl⟩
  | ok record =>
    dsimp only
    by_cases horigin : record.origin = expected.source
    · rw [if_neg (not_not_intro horigin)]
      by_cases hnext : nextId node.lsn = some record.lsn
      · rw [if_neg (not_not_intro hnext)]
        cases hput : node.document.put record.key record.value with
        | error refusal => exact ⟨refusal, rfl⟩
        | ok document => exact absurd (.cons horigin hnext hput (.nil document record.lsn)) h
      · exact ⟨_, if_pos hnext⟩
    · exact ⟨_, if_pos horigin⟩

/-- The node with an admitted record, and with the log as the file effects leave it. -/
def withRecord (node : NodeState) (record : ReplicationRecord) (document : StateDocument) (log logged : List ReplicationRecord) :
    NodeState :=
  { node with
    document := document
    lsn := record.lsn
    operationId := wrapAdd node.operationId 1
    records := log
    disk := { node.disk with records := logged } }

section
variable (record : ReplicationRecord) (document : StateDocument) (log logged : List ReplicationRecord)

@[simp] theorem withRecord_document : (node.withRecord record document log logged).document = document := rfl
@[simp] theorem withRecord_lsn : (node.withRecord record document log logged).lsn = record.lsn := rfl
@[simp] theorem withRecord_operationId : (node.withRecord record document log logged).operationId = wrapAdd node.operationId 1 := rfl
@[simp] theorem withRecord_records : (node.withRecord record document log logged).records = log := rfl

end

/-- What becomes of a node with a record: nothing, or the record is admitted, whether or not its entry gets into the log. -/
theorem applyRecord_cases (options : NodeOptions) (io : NodeIo) (node : NodeState) (expected : SourceBinding)
    (entry : Result ReplicationRecord) :
    (∃ refusal, node.applyRecord options io expected entry = (node, .error refusal)) ∧
        ¬ Continues expected node.document node.lsn [entry] ∨
      ∃ record document log logged, entry = .ok record ∧ record.origin = expected.source ∧
        nextId node.lsn = some record.lsn ∧ node.document.put record.key record.value = .ok document ∧
        (node.applyRecord options io expected entry).1 = node.withRecord record document log logged ∧
        ((node.applyRecord options io expected entry).2 = .ok () → log <:+ node.records ++ [record]) := by
  by_cases h : Continues expected node.document node.lsn [entry]
  · cases h with
    | cons horigin hnext hput _ =>
      rw [applyRecord_of_admitted options io horigin hnext hput]
      obtain ⟨log, logged, heq, hlog⟩ := appendRecordEntry_fst options io { node with
        document := _, lsn := _, operationId := wrapAdd node.operationId 1 } _
      exact .inr ⟨_, _, log, logged, rfl, horigin, hnext, hput, heq, hlog⟩
  · exact .inl ⟨applyRecord_refused options io h, h⟩

/-- One record more, before a batch that is applied. -/
theorem Applied.cons {node' : NodeState} {record : ReplicationRecord} {document : StateDocument}
    {log logged rest : List ReplicationRecord} (hnext : nextId node.lsn = some record.lsn)
    (hput : node.document.put record.key record.value = .ok document) (hlog : log <:+ node.records ++ [record])
    (h : Applied (node.withRecord record document log logged) node' rest) : Applied node node' (record :: rest) := by
  have hlsn : record.lsn = node.lsn + 1 := eq_succ_of_nextId hnext
  refine ⟨?_, ?_, ?_, ?_, ?_⟩
  · rw [List.foldlM_cons, hput]
    exact h.document
  · rw [List.map_cons, List.length_cons, List.range'_succ, h.lsns, withRecord_lsn, hlsn]
  · rw [h.lsn, List.length_cons, withRecord_lsn, hlsn]
    omega
  · rw [h.operationId, List.length_cons, Function.iterate_succ_apply, withRecord_operationId]
  · have hsuffix : log ++ rest <:+ node.records ++ [record] ++ rest := by
      obtain ⟨before, hbefore⟩ := hlog
      exact ⟨before, by rw [← hbefore, List.append_assoc]⟩
    rw [← List.append_cons] at hsuffix
    exact h.log.trans hsuffix

/-- What an applied batch is, and what it has done. -/
theorem applyAll_ok {node : NodeState} (h : (applyAll options io expected node entries).2 = .ok ()) :
    Continues expected node.document node.lsn entries ∧ ∃ records, entries = records.map .ok ∧
      (∀ record ∈ records, record.origin = expected.source) ∧
      Applied node (applyAll options io expected node entries).1 records := by
  induction entries generalizing node with
  | nil =>
    refine ⟨.nil _ _, [], rfl, nofun, rfl, rfl, rfl, rfl, ?_⟩
    rw [List.append_nil]
    exact List.suffix_rfl
  | cons entry rest ih =>
    rcases applyRecord_cases options io node expected entry with
      ⟨⟨refusal, heq⟩, -⟩ | ⟨record, document, log, logged, rfl, horigin, hnext, hput, heq, hlog⟩
    · rw [applyAll, heq] at h
      cases h
    · cases happly : node.applyRecord options io expected (.ok record) with
      | mk node₁ outcome =>
        rw [happly] at heq hlog
        obtain rfl := heq
        cases outcome with
        | error refusal =>
          rw [applyAll, happly] at h
          cases h
        | ok u =>
          simp only [applyAll, happly] at h ⊢
          obtain ⟨hcontinues, records, rfl, horigins, happlied⟩ := ih h
          exact ⟨.cons horigin hnext hput hcontinues, record :: records, rfl, List.forall_mem_cons.2 ⟨horigin, horigins⟩,
            happlied.cons hnext hput (hlog rfl)⟩

theorem applyRecord_of_continues {entry : Result ReplicationRecord} (options : NodeOptions)
    (h : Continues expected node.document node.lsn [entry]) : (node.applyRecord options {} expected entry).2 = .ok () := by
  cases h with
  | cons horigin hnext hput _ =>
    rw [applyRecord_of_admitted options {} horigin hnext hput]
    exact (appendRecordEntry_ok _).2 ⟨rfl, fun _ => rfl⟩

/-- With every file effect succeeding, a batch whose records continue the state is applied. -/
theorem applyAll_of_continues {node : NodeState} (options : NodeOptions) (h : Continues expected node.document node.lsn entries) :
    (applyAll options {} expected node entries).2 = .ok () := by
  induction entries generalizing node with
  | nil => rfl
  | cons entry rest ih =>
    cases h with
    | cons horigin hnext hput hrest =>
      rename_i document record
      have hfirst : Continues expected node.document node.lsn [.ok record] := .cons horigin hnext hput (.nil _ _)
      rcases applyRecord_cases options {} node expected (.ok record) with
        ⟨-, hno⟩ | ⟨record', document', log, logged, hentry, -, -, hput', heq, -⟩
      · exact absurd hfirst hno
      · cases hentry
        cases hput.symm.trans hput'
        have hok := applyRecord_of_continues options hfirst
        cases happly : node.applyRecord options {} expected (.ok record) with
        | mk node₁ outcome =>
          rw [happly] at heq hok
          obtain rfl := heq
          obtain rfl := hok
          simp only [applyAll, happly]
          exact ih hrest

/-- Whatever becomes of a batch, the log position does not go back. -/
theorem lsn_le_applyAll (options : NodeOptions) (io : NodeIo) (expected : SourceBinding) (node : NodeState)
    (entries : List (Result ReplicationRecord)) : node.lsn ≤ (applyAll options io expected node entries).1.lsn := by
  induction entries generalizing node with
  | nil => exact le_rfl
  | cons entry rest ih =>
    have hstep : node.lsn ≤ (node.applyRecord options io expected entry).1.lsn := by
      rcases applyRecord_cases options io node expected entry with
        ⟨⟨refusal, heq⟩, -⟩ | ⟨record, document, log, logged, -, -, hnext, -, heq, -⟩
      · rw [heq]
      · rw [heq, withRecord_lsn, eq_succ_of_nextId hnext]
        exact Nat.le_succ node.lsn
    rw [applyAll]
    split
    · rename_i node₁ refusal happly
      rw [happly] at hstep
      exact hstep
    · rename_i node₁ happly
      rw [happly] at hstep
      exact hstep.trans (ih node₁)

/-- A batch that is refused at its first record changes nothing. -/
theorem applyAll_refused (options : NodeOptions) (io : NodeIo) (h : ¬ Continues expected node.document node.lsn (entries.take 1)) :
    ∃ refusal, applyAll options io expected node entries = (node, .error refusal) := by
  cases entries with
  | nil => exact absurd (.nil _ _) h
  | cons entry rest =>
    obtain ⟨refusal, heq⟩ := applyRecord_refused options io h
    exact ⟨refusal, by rw [applyAll, heq]⟩

/-- Once its first record is admitted, the log position has moved. -/
theorem lsn_lt_applyAll {entry : Result ReplicationRecord} (options : NodeOptions) (io : NodeIo)
    (rest : List (Result ReplicationRecord)) (h : Continues expected node.document node.lsn [entry]) :
    node.lsn < (applyAll options io expected node (entry :: rest)).1.lsn := by
  have hstep : node.lsn < (node.applyRecord options io expected entry).1.lsn := by
    rcases applyRecord_cases options io node expected entry with
      ⟨-, hno⟩ | ⟨record, document, log, logged, -, -, hnext, -, heq, -⟩
    · exact absurd h hno
    · rw [heq, withRecord_lsn, eq_succ_of_nextId hnext]
      exact Nat.lt_succ_self node.lsn
  rw [applyAll]
  split
  · rename_i node₁ refusal happly
    rw [happly] at hstep
    exact hstep
  · rename_i node₁ happly
    rw [happly] at hstep
    exact hstep.trans_le (lsn_le_applyAll options io expected node₁ rest)

/-! ## The batch -/

theorem presents_faults (faults : List FaultRule) :
    { node with faults := faults }.Presents options body expected entries ↔ node.Presents options body expected entries :=
  ⟨fun h => ⟨h.prepared, h.handoff, h.positive, h.source, h.records, h.size⟩,
    fun h => ⟨h.prepared, h.handoff, h.positive, h.source, h.records, h.size⟩⟩

theorem Presents.unique {expected' : SourceBinding} {entries' : List (Result ReplicationRecord)}
    (h : node.Presents options body expected entries) (h' : node.Presents options body expected' entries') :
    expected' = expected ∧ entries' = entries :=
  ⟨Option.some.inj (h'.prepared.symm.trans h.prepared), Option.some.inj (h'.records.symm.trans h.records)⟩

theorem Applied.of_same {node₁ node' node₁' : NodeState} {records : List ReplicationRecord} (h : Applied node node' records)
    (hbefore : SameContent node node₁) (hafter : SameContent node' node₁') : Applied node₁ node₁' records := by
  refine ⟨?_, ?_, ?_, ?_, ?_⟩
  · rw [hbefore.document, hafter.document]
    exact h.document
  · rw [hbefore.lsn]
    exact h.lsns
  · rw [hbefore.lsn, hafter.lsn]
    exact h.lsn
  · rw [hbefore.operationId, hafter.operationId]
    exact h.operationId
  · rw [hbefore.records, hafter.records]
    exact h.log

/-- What an answered batch is, and what it has done. -/
theorem applyRecords_ok {answer : NodeAnswer} (h : (node.applyRecords options io body).2 = .ok answer) :
    ∃ expected records, node.Presents options body expected (records.map .ok) ∧
      Continues expected node.document node.lsn (records.map .ok) ∧ (∀ record ∈ records, record.origin = expected.source) ∧
      Applied node (node.applyRecords options io body).1 records ∧
      (node.applyRecords options io body).1.disk.saved = some (node.applyRecords options io body).1.toSaved := by
  have heq := applyRecords_eq options io node body
  cases hread : node.readBatch options body with
  | error refusal =>
    rw [hread] at heq
    rw [heq] at h
    cases h
  | ok terms =>
    obtain ⟨expected, entries⟩ := terms
    rw [hread] at heq
    dsimp only at heq
    cases happly : applyAll options io expected node entries with
    | mk node₁ outcome =>
      rw [happly] at heq
      cases outcome with
      | error refusal =>
        rw [heq] at h
        cases h
      | ok u =>
        obtain ⟨hcontinues, records, rfl, horigins, happlied⟩ := applyAll_ok (congrArg Prod.snd happly)
        rw [happly] at happlied
        refine ⟨expected, records, readBatch_ok.1 hread, hcontinues, horigins, ?_⟩
        rw [heq] at h ⊢
        dsimp only at h ⊢
        cases hsave : io.save with
        | error refusal =>
          rw [saveThen, saveState, hsave] at h
          cases h
        | ok u =>
          rw [saveThen_ok _ hsave]
          exact ⟨happlied.of_same ⟨rfl, rfl, rfl, rfl⟩ ⟨rfl, rfl, rfl, rfl⟩, rfl⟩

/-- With every file effect succeeding, a presented batch whose records continue the state is answered. -/
theorem applyRecords_of_continues (hpresents : node.Presents options body expected entries)
    (hcontinues : Continues expected node.document node.lsn entries) :
    ∃ answer, (node.applyRecords options {} body).2 = .ok answer := by
  have heq := applyRecords_eq options {} node body
  have hok := applyAll_of_continues options hcontinues
  rw [readBatch_ok.2 hpresents] at heq
  cases happly : applyAll options {} expected node entries with
  | mk node₁ outcome =>
    rw [happly] at hok
    obtain rfl := hok
    dsimp only at heq
    rw [happly] at heq
    dsimp only at heq
    rw [heq, saveThen_ok _ rfl]
    exact ⟨_, rfl⟩

/-- What a batch can do, with every file effect succeeding: it is refused before its first record is admitted, or after it,
or it is answered. -/
theorem applyRecords_cases (options : NodeOptions) (node : NodeState) (body : ApplyBody) :
    (∃ refusal, node.applyRecords options {} body = (node, .error refusal)) ∧
        (∀ expected entries, node.Presents options body expected entries →
          ¬ Continues expected node.document node.lsn (entries.take 1)) ∨
      (∃ expected entries, node.Presents options body expected entries ∧
        Continues expected node.document node.lsn (entries.take 1) ∧ ¬ Continues expected node.document node.lsn entries ∧
        (∃ refusal, (node.applyRecords options {} body).2 = .error refusal) ∧
        node.lsn < (node.applyRecords options {} body).1.lsn) ∨
      ∃ expected entries, node.Presents options body expected entries ∧ Continues expected node.document node.lsn entries ∧
        ∃ answer, (node.applyRecords options {} body).2 = .ok answer := by
  have heq := applyRecords_eq options {} node body
  cases hread : node.readBatch options body with
  | error refusal =>
    rw [hread] at heq
    refine .inl ⟨⟨refusal, heq⟩, fun expected entries hpresents => ?_⟩
    cases (readBatch_ok.2 hpresents).symm.trans hread
  | ok terms =>
    obtain ⟨expected, entries⟩ := terms
    have hpresents := readBatch_ok.1 hread
    rw [hread] at heq
    dsimp only at heq
    by_cases hfirst : Continues expected node.document node.lsn (entries.take 1)
    · by_cases hcontinues : Continues expected node.document node.lsn entries
      · exact .inr (.inr ⟨expected, entries, hpresents, hcontinues, applyRecords_of_continues hpresents hcontinues⟩)
      · refine .inr (.inl ⟨expected, entries, hpresents, hfirst, hcontinues, ?_⟩)
        cases entries with
        | nil => exact absurd (.nil _ _) hcontinues
        | cons entry rest =>
          have hmoved := lsn_lt_applyAll options {} rest hfirst
          cases happly : applyAll options {} expected node (entry :: rest) with
          | mk node₁ outcome =>
            rw [happly] at hmoved heq
            cases outcome with
            | error refusal =>
              rw [heq]
              exact ⟨⟨refusal, rfl⟩, hmoved⟩
            | ok u => exact absurd (applyAll_ok (congrArg Prod.snd happly)).1 hcontinues
    · obtain ⟨refusal, hrefused⟩ := applyAll_refused options {} hfirst
      rw [hrefused] at heq
      refine .inl ⟨⟨refusal, heq⟩, fun expected' entries' h => ?_⟩
      obtain ⟨rfl, rfl⟩ := hpresents.unique h
      exact hfirst

end NodeState

/-- For every node and batch, with every file effect succeeding: the batch is applied as a whole or not at all exactly if
its first record decides. -/
theorem applyRecords_atomic_iff (options : NodeOptions) (digestOf : Json → Digest) (node : NodeState) (body : ApplyBody)
    (nowMs laterMs : Nat) : node.AllOrNothing options digestOf body nowMs laterMs ↔ node.FirstDecides options body := by
  obtain ⟨faults, ⟨herror, hnode, refusal, hanswer⟩ | ⟨herror, hnode, hanswer⟩⟩ :=
    NodeState.handle_faults options digestOf node {} nowMs laterMs (.applyRecords body)
  · refine ⟨fun _ hno => absurd herror hno, fun _ => ⟨fun _ _ => ?_, fun answer hok => ?_⟩⟩
    · rw [hnode]
      exact ⟨⟨rfl, rfl, rfl, rfl⟩, rfl⟩
    · cases hanswer.symm.trans hok
  · rcases NodeState.applyRecords_cases options { node with faults := faults } body with
      ⟨⟨refusal, heq⟩, hrefused⟩ | ⟨expected, entries, hpresents, hfirst, htorn, ⟨refusal, hrefusal⟩, hmoved⟩ |
      ⟨expected, entries, hpresents, hcontinues, answer, hok⟩
    · constructor
      · intro _ _ expected entries hpresents hfirst
        exact absurd hfirst (hrefused expected entries ((NodeState.presents_faults faults).2 hpresents))
      · refine fun _ => ⟨fun _ _ => ?_, fun answer hok => ?_⟩
        · rw [hnode, NodeState.dispatch, heq]
          exact ⟨⟨rfl, rfl, rfl, rfl⟩, rfl⟩
        · rw [hanswer, NodeState.dispatch, heq] at hok
          cases hok
    · constructor
      · intro hall
        have hsame := (hall.refused refusal (hanswer.trans hrefusal)).1.lsn
        rw [hnode] at hsame
        exact absurd hsame hmoved.ne'
      · intro hdecides
        exact absurd (hdecides herror expected entries ((NodeState.presents_faults faults).1 hpresents) hfirst) htorn
    · constructor
      · intro _ _ expected' entries' hpresents' _
        obtain ⟨rfl, rfl⟩ := hpresents.unique ((NodeState.presents_faults faults).2 hpresents')
        exact hcontinues
      · intro _
        refine ⟨fun refusal hrefusal => ?_, fun _ _ => ?_⟩
        · cases (hanswer.trans hok).symm.trans hrefusal
        · obtain ⟨_, records, hbatch, _, _, happlied, hsaved⟩ := NodeState.applyRecords_ok hok
          rw [hnode]
          exact ⟨records, hbatch.records, happlied.of_same ⟨rfl, rfl, rfl, rfl⟩ ⟨rfl, rfl, rfl, rfl⟩, hsaved⟩

namespace Sample

/-- The successor is prepared for generation 2 of the source. -/
def preparedBinding : SourceBinding := ⟨incarnation 1, 1, 2, tokens 0, 1, 1⟩

def prepareBody : PrepareBody :=
  { handoff := some 1, role := some "successor", targetSoftware := some ⟨"1.0.0", some ⟨1, 0, 0, ""⟩⟩
    targetProtocol := some ⟨"1.0", some ⟨1, 0⟩⟩, targetSchema := some 1, source := some (.ok preparedBinding) }

def preparedSuccessor : NodeState := (served booted.startServer (.prepare prepareBody)).1

/-- A record of the source at a position, written in a generation. -/
def sourceRecord (lsn generation : Nat) : ReplicationRecord :=
  ⟨lsn, "key", "value", 1, generation, incarnation 1, .zero⟩

/-- The second record has the position of the first. -/
def tornBatch : ApplyBody :=
  { handoff := some 1, source := some (.ok preparedBinding), records := some [.ok (sourceRecord 1 2), .ok (sourceRecord 1 2)] }

end Sample

open Sample in
/-- The second record of the batch is refused, and the first stays applied. -/
theorem torn_batch_applied : ¬ ∀ (options : NodeOptions) (digestOf : Json → Digest) (node : NodeState) (body : ApplyBody)
    (nowMs laterMs : Nat), node.AllOrNothing options digestOf body nowMs laterMs := by
  intro hall
  have hatomic := hall nodeOptions (fun _ => .zero) preparedSuccessor tornBatch 1 1
  cases hanswer : (served preparedSuccessor (.applyRecords tornBatch)).2.1 with
  | ok answer =>
    have hrefused : (served preparedSuccessor (.applyRecords tornBatch)).2.1.isOk = false := by decide +kernel
    rw [hanswer] at hrefused
    cases hrefused
  | error refusal =>
    have hmoved : (served preparedSuccessor (.applyRecords tornBatch)).1.lsn ≠ preparedSuccessor.lsn := by decide +kernel
    exact hmoved (hatomic.refused refusal hanswer).1.lsn

/-- For every node, presented binding and batch: an answered batch keeps the binding exactly if the records of an admitted
one carry the prepared epoch and generation. -/
theorem applyRecords_binding_iff (options : NodeOptions) (digestOf : Json → Digest) (node : NodeState) (handoff : Option Nat)
    (source : Option (Result SourceBinding)) (values : List Json) :
    node.KeepsBinding options digestOf handoff source values ↔ node.OfPreparedTerm options digestOf handoff source values := by
  constructor
  · intro hkeeps hfault expected records hpresents hcontinues
    obtain ⟨faults, ⟨herror, -, -⟩ | ⟨-, -, hanswer⟩⟩ := NodeState.handle_faults options digestOf node {} 0 0
      (.applyRecords ⟨handoff, source, some (values.map (ReplicationRecord.fromJson digestOf))⟩)
    · exact absurd herror hfault
    · obtain ⟨answer, hok⟩ := NodeState.applyRecords_of_continues ((NodeState.presents_faults faults).2 hpresents) hcontinues
      obtain ⟨expected', -, records', hprepared, -, -, -, hentries, -, hbound⟩ := hkeeps {} 0 0 answer (hanswer.trans hok)
      obtain rfl : expected' = expected := Option.some.inj (hprepared.symm.trans hpresents.prepared)
      have hsame : records'.map Except.ok = records.map Except.ok :=
        hentries.symm.trans (Option.some.inj hpresents.records)
      obtain rfl := List.map_injective_iff.2 (fun _ _ => Except.ok.inj) hsame
      exact fun record hmem => ⟨(hbound record hmem).2.1, (hbound record hmem).2.2.1⟩
  · intro hterm io nowMs laterMs answer hok
    obtain ⟨faults, ⟨-, -, refusal, hrefused⟩ | ⟨hfault, hnode, hanswer⟩⟩ := NodeState.handle_faults options digestOf node io
      nowMs laterMs (.applyRecords ⟨handoff, source, some (values.map (ReplicationRecord.fromJson digestOf))⟩)
    · cases hrefused.symm.trans hok
    · obtain ⟨expected, records, hpresents, hcontinues, horigins, happlied, -⟩ :=
        NodeState.applyRecords_ok (hanswer.symm.trans hok)
      have hpresented := (NodeState.presents_faults faults).1 hpresents
      have hentries := Option.some.inj hpresented.records
      obtain ⟨presented, hsource, hbound⟩ := hpresented.source
      refine ⟨expected, presented, records, hpresented.prepared, hpresented.handoff, hsource, hbound, hentries, ?_, ?_⟩
      · rw [hnode]
        exact happlied.of_same ⟨rfl, rfl, rfl, rfl⟩ ⟨rfl, rfl, rfl, rfl⟩
      · intro record hmem
        obtain ⟨hepoch, hgeneration⟩ := hterm hfault expected records hpresented hcontinues record hmem
        have hread : Except.ok record ∈ values.map (ReplicationRecord.fromJson digestOf) := by
          rw [hentries]
          exact List.mem_map_of_mem hmem
        obtain ⟨value, -, hvalue⟩ := List.mem_map.1 hread
        exact ⟨horigins record hmem, hepoch, hgeneration, ReplicationRecord.digest_of_fromJson hvalue⟩

open Sample in
/-- A record written in generation 1 is taken by the successor of generation 2. -/
theorem old_record_taken : ¬ ∀ (options : NodeOptions) (digestOf : Json → Digest) (node : NodeState) (handoff : Option Nat)
    (source : Option (Result SourceBinding)) (values : List Json),
    node.KeepsBinding options digestOf handoff source values := by
  intro hall
  let values : List Json := [(sourceRecord 1 1).content]
  obtain ⟨answer, htaken⟩ := exists_answer (served preparedSuccessor (.applyRecords
    ⟨some 1, some (.ok preparedBinding), some (values.map (ReplicationRecord.fromJson fun _ => .zero))⟩)).2.1 (by decide +kernel)
  obtain ⟨expected, -, records, hprepared, -, -, -, hentries, -, hbound⟩ :=
    hall nodeOptions (fun _ => .zero) preparedSuccessor (some 1) (some (.ok preparedBinding)) values {} 1 1 answer htaken
  have hexpected : preparedSuccessor.expectedSource.map (·.generation) = some 2 := by decide +kernel
  have hread : (values.map (ReplicationRecord.fromJson fun _ => .zero)).map (fun entry => entry.toOption.map (·.generation)) =
      [some 1] := by
    decide +kernel
  have hold : some 1 ∈ records.map fun record => some record.generation := by
    rw [hentries, List.map_map] at hread
    exact hread ▸ List.mem_singleton_self _
  obtain ⟨record, hmem, hgeneration⟩ := List.mem_map.1 hold
  have hterm := (hbound record hmem).2.2.1
  rw [hprepared] at hexpected
  cases hexpected.symm.trans (congrArg some (hterm.symm.trans (Option.some.inj hgeneration)))

end FabricEvolution
