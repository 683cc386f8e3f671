import FabricEvolution.Node.Messages

/-!
# The state file of a node

* `MigrationJournal.toJson`, `MigrationJournal.load` : the journal of applied steps as it is written and read;
* `NodeSaved.toJson`, `NodeSaved.fromJson` : the document of the state file;
* `MigrationJournal.load_toJson`, `NodeSaved.fromJson_toJson` : what is written is read, but for a lease that does not decode.
-/

namespace FabricEvolution
open Lib

/-! ## Writers -/

def MigrationJournalRecord.toJson (record : MigrationJournalRecord) : Json :=
  (Json.object []).set "shard" (.string record.shard.str)
    |>.set "component" (.string record.component.str)
    |>.set "step" (.string record.step.str)
    |>.set "from" (.uint record.source)
    |>.set "to" (.uint record.target)
    |>.set "state_digest_after" (.string record.stateDigestAfter.toHex)
    |>.set "applied_at_ms" (.uint record.appliedAtMs)
    |>.set "irreversible_boundary" (.bool record.irreversibleBoundary)

def MigrationJournal.toJson (journal : MigrationJournal) : Json :=
  (Json.object []).set "records" (.array (journal.records.map MigrationJournalRecord.toJson))

def NodeSaved.toJson (saved : NodeSaved) : Json :=
  let out := (Json.object []).set "schema" (.uint saved.document.schema)
    |>.set "fields" saved.document.fieldsToJson
    |>.set "lsn" (.uint saved.lsn)
    |>.set "operation_id" (.uint saved.operationId)
    |>.set "retired" (.bool saved.retired)
    |>.set "migration_journal" saved.journal.toJson
    |>.set "snapshot_lsn" (.uint saved.snapshotLsn)
    |>.set "snapshot_id" (.uint saved.snapshotId)
    |>.set "snapshot_digest" (.string saved.snapshotDigest.toHex)
  match saved.lease with
  | none => out
  | some lease => out.set "lease" lease.toJson

/-! ## Readers -/

def MigrationJournalRecord.fromJson (value : Json) : Result MigrationJournalRecord := do
  refuseUnless value.isObject (malformed "migration journal entry must be an object")
  let (shard, component, step) ← orRefuse
    (both (jsonString value "shard") (both (jsonString value "component") (jsonString value "step")))
    (malformed "migration journal entry is missing an identity")
  let (shard, component, step) ← orRefuse
    (both (TaggedName.parse shard) (both (TaggedName.parse component) (TaggedName.parse step)))
    (malformed "migration journal entry identity is invalid")
  let (source, target) ← orRefuse (both (jsonSchema value "from") (jsonSchema value "to"))
    (malformed "migration journal entry schema versions are missing or out of range")
  let stateDigestAfter ← digestMember value "state_digest_after"
    (malformed "migration journal entry digest is not a sha256 hex digest")
  return {
    shard, component, step, source, target, stateDigestAfter
    appliedAtMs := jsonU64Or value "applied_at_ms" 0
    irreversibleBoundary := jsonBoolOr value "irreversible_boundary" false }

/-- The oldest records are dropped beyond the capacity. -/
def MigrationJournal.load (journal : MigrationJournal) (value : Json) : Result MigrationJournal := do
  refuseUnless value.isObject (malformed "migration journal must be an object")
  let entries ← orRefuse ((value.find "records").bind Json.tryArray) (malformed "migration journal must contain a records array")
  let records ← entries.mapM MigrationJournalRecord.fromJson
  return { journal with records := records.drop (records.length - journal.capacity) }

def NodeSaved.fromJson (value : Json) : Result NodeSaved := do
  let fields ← orRefuse ((value.find "fields").bind Json.tryObject)
    (.plain .integrityFailure "durable node state has no fields object")
  let schema ← orRefuse (jsonSchema value "schema") (.plain .integrityFailure "durable node state has no valid schema version")
  let document ← StateDocument.putAll
    (fun key => .plain .integrityFailure ("durable node state field is not a string: " ++ key)) { schema := schema }
    (fields.map fun entry => (entry.1, entry.2.tryString))
  let journal ← loadJournal value
  return {
    document, journal
    lsn := jsonU64Or value "lsn" 0
    operationId := jsonU64Or value "operation_id" 0
    retired := jsonBoolOr value "retired" false
    snapshotLsn := jsonU64Or value "snapshot_lsn" 0
    snapshotId := jsonU64Or value "snapshot_id" 0
    snapshotDigest := ((jsonString value "snapshot_digest").bind Digest.fromHex).getD .zero
    -- A lease that cannot be read is left out.
    lease := (value.find "lease").bind fun lease => (authorityLeaseFromJson lease).toOption }
where
  loadJournal (value : Json) : Result MigrationJournal :=
    match value.find "migration_journal" with
    | none => return {}
    | some journal => MigrationJournal.load {} journal

/-! ## Read back -/

/-- What the decoder of a journal entry asks. -/
structure MigrationJournalRecord.Readable (record : MigrationJournalRecord) : Prop where
  shard : record.shard.isValid = true
  component : record.component.isValid = true
  step : record.step.isValid = true
  source : record.source ≠ 0 ∧ record.source ≤ maxU32
  target : record.target ≠ 0 ∧ record.target ≤ maxU32

/-- A journal of the capacity of a node, with entries that are read back. -/
structure MigrationJournal.Readable (journal : MigrationJournal) : Prop where
  capacity : journal.capacity = 1024
  length : journal.records.length ≤ 1024
  records : ∀ record ∈ journal.records, record.Readable

theorem MigrationJournalRecord.fromJson_toJson {record : MigrationJournalRecord} (h : record.Readable) :
    fromJson record.toJson = .ok record := by
  have hobject : record.toJson.isObject = true := by simp [toJson]
  have hnames : jsonString record.toJson "shard" = some record.shard.str ∧
      jsonString record.toJson "component" = some record.component.str ∧ jsonString record.toJson "step" = some record.step.str := by
    simp [toJson, Json.tryString]
  have hsource : jsonSchema record.toJson "from" = some record.source :=
    jsonSchema_eq (by simp [toJson, Json.tryU64]) h.source
  have htarget : jsonSchema record.toJson "to" = some record.target :=
    jsonSchema_eq (by simp [toJson, Json.tryU64]) h.target
  have hdigest : jsonString record.toJson "state_digest_after" = some record.stateDigestAfter.toHex := by simp [toJson, Json.tryString]
  have hrest : jsonU64Or record.toJson "applied_at_ms" 0 = record.appliedAtMs ∧
      jsonBoolOr record.toJson "irreversible_boundary" false = record.irreversibleBoundary := by
    simp [toJson, jsonU64Or, jsonBoolOr, Json.tryU64, Json.tryBool]
  unfold fromJson
  simp only [hobject, refuseUnless_true, Result.ok_bind, hnames, both_some, orRefuse_some, TaggedName.parse_str h.shard,
    TaggedName.parse_str h.component, TaggedName.parse_str h.step, hsource, htarget, digestMember_toHex hdigest, hrest]
  rfl

theorem MigrationJournal.load_toJson {journal : MigrationJournal} (h : journal.Readable) : load {} journal.toJson = .ok journal := by
  obtain ⟨records, capacity⟩ := journal
  obtain ⟨rfl, hlength, hrecords⟩ := h
  have hread : (records.map MigrationJournalRecord.toJson).mapM MigrationJournalRecord.fromJson = .ok records :=
    mapM_read fun record hrecord => MigrationJournalRecord.fromJson_toJson (hrecords record hrecord)
  have hkept : records.drop (records.length - 1024) = records := by
    rw [Nat.sub_eq_zero_of_le hlength, List.drop_zero]
  have hobject : (toJson { records := records }).isObject = true := Json.isObject_set _ _ _
  have hfind : (toJson { records := records }).find "records" = some (.array (records.map MigrationJournalRecord.toJson)) := by
    simp [toJson]
  simp only [load, hobject, refuseUnless_true, Result.ok_bind, hfind, Option.bind_some, Json.tryArray, orRefuse_some, hread, hkept]
  rfl

/-- What the decoder of the state file asks, but for the lease. -/
structure NodeSaved.Readable (saved : NodeSaved) : Prop where
  document : saved.document.Bounded
  journal : saved.journal.Readable

/-- A state file is read back as it was written; a lease that does not decode is left out. -/
theorem NodeSaved.fromJson_toJson {saved : NodeSaved} (h : saved.Readable) : fromJson saved.toJson =
    .ok { saved with lease := saved.lease.bind fun lease => (authorityLeaseFromJson lease.toJson).toOption } := by
  have hfields : (saved.toJson.find "fields").bind Json.tryObject =
      some (saved.document.fields.entries.map fun entry => (entry.1, Json.string entry.2)) := by
    have hfind : saved.toJson.find "fields" = some saved.document.fieldsToJson := by
      unfold toJson
      cases saved.lease <;> simp
    rw [hfind, StateDocument.fieldsToJson_eq]
    rfl
  have hmembers : ((saved.document.fields.entries.map fun entry => (entry.1, Json.string entry.2)).map fun entry =>
      (entry.1, entry.2.tryString)) = saved.document.members := by
    rw [List.map_map]
    rfl
  have hschema : jsonSchema saved.toJson "schema" = some saved.document.schema := by
    refine jsonSchema_eq ?_ ⟨h.document.schema_pos.ne', h.document.schema_le⟩
    unfold toJson
    cases saved.lease <;> simp [Json.tryU64]
  have hjournal : fromJson.loadJournal saved.toJson = .ok saved.journal := by
    have hfind : saved.toJson.find "migration_journal" = some saved.journal.toJson := by
      unfold toJson
      cases saved.lease <;> simp
    rw [fromJson.loadJournal, hfind]
    exact MigrationJournal.load_toJson h.journal
  have hnumbers : jsonU64Or saved.toJson "lsn" 0 = saved.lsn ∧ jsonU64Or saved.toJson "operation_id" 0 = saved.operationId ∧
      jsonBoolOr saved.toJson "retired" false = saved.retired ∧ jsonU64Or saved.toJson "snapshot_lsn" 0 = saved.snapshotLsn ∧
      jsonU64Or saved.toJson "snapshot_id" 0 = saved.snapshotId := by
    unfold toJson
    cases saved.lease <;> simp [jsonU64Or, jsonBoolOr, Json.tryU64, Json.tryBool]
  have hdigest : ((jsonString saved.toJson "snapshot_digest").bind Digest.fromHex).getD .zero = saved.snapshotDigest := by
    unfold toJson
    cases saved.lease <;> simp [Json.tryString, Digest.fromHex_toHex]
  have hlease : saved.toJson.find "lease" = saved.lease.map AuthorityLease.toJson := by
    unfold toJson
    cases saved.lease <;> simp
  unfold fromJson
  simp only [hfields, orRefuse_some, Result.ok_bind, hschema, hmembers, h.document.putAll_members, hjournal, hnumbers, hdigest, hlease]
  cases saved.lease <;> rfl

/-! ## The values in the file -/

def AuthorityLease.numbers (lease : AuthorityLease) : List Nat :=
  [lease.id, lease.holder.boot, lease.epoch, lease.generation, lease.issuedAtMs, lease.expiresAtMs, lease.attestationSeq, lease.handoff]

def MigrationJournalRecord.numbers (record : MigrationJournalRecord) : List Nat := [record.source, record.target, record.appliedAtMs]

def NodeSaved.numbers (saved : NodeSaved) : List Nat :=
  saved.document.schema :: saved.lsn :: saved.operationId :: saved.snapshotLsn :: saved.snapshotId ::
    (saved.journal.records.flatMap MigrationJournalRecord.numbers ++ saved.lease.toList.flatMap AuthorityLease.numbers)

section
variable {depth : Nat}

end

end FabricEvolution
