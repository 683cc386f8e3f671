import FabricEvolution.Controller.Memory
import FabricEvolution.Persistence.CutLog
import FabricEvolution.Wire.Equal
import FabricEvolution.Wire.Reading

/-!
# The epoch journal

* `EpochEvent.toJson`, `epochEventFromJson` : an event as it is written and read; `encodeEpochEvent` : the text of its record;
* `EpochLog` : the events a process holds; `EpochLog.replay`, `EpochLog.retained` : what it reads, and what a compaction keeps;
* `EpochJournal` : the file and the process that has it open; `EpochJournal.after` : appends, compactions and restarts;
* `HoldsRecords`, `JournalBounded` : the records of a file, and what is promised of them;
* `epoch_journal_bounded` : the promise holds in every run whose restarts replay no more records than the capacity;
* `epoch_journal_outgrows` : a run whose restarts replay more.
-/

namespace FabricEvolution
open Lib

/-! ## Events -/

namespace EpochEventKind

def name : EpochEventKind → String
  | shardEstablished => "shard_established"
  | leaseGranted => "lease_granted"
  | leaseRenewed => "lease_renewed"
  | fenceRequested => "fence_requested"
  | fenceAcknowledged => "fence_acknowledged"
  | leaseRevoked => "lease_revoked"
  | epochAdvanced => "epoch_advanced"
  | handoffPhase => "handoff_phase"
  | campaignTransition => "campaign_transition"
  | migrationApplied => "migration_applied"
  | reconciliation => "reconciliation"
  | refusal => "refusal"

def fromName (text : String) : Option EpochEventKind :=
  [shardEstablished, leaseGranted, leaseRenewed, fenceRequested, fenceAcknowledged, leaseRevoked, epochAdvanced, handoffPhase,
    campaignTransition, migrationApplied, reconciliation, refusal].find? fun kind => kind.name = text

theorem fromName_name (kind : EpochEventKind) : fromName kind.name = some kind := by
  cases kind <;> rfl

end EpochEventKind

def EpochEvent.toJson (event : EpochEvent) : Json :=
  (Json.object []).set "kind" (.string event.kind.name)
    |>.set "shard" (.string event.shard.str)
    |>.set "epoch" (.uint event.epoch)
    |>.set "generation" (.uint event.generation)
    |>.set "at_ms" (.uint event.atMs)
    |>.set "payload" event.payload

/-- An absent shard is none. -/
def epochShardFromJson (value : Json) : Result ShardId :=
  match jsonString value "shard" with
  | none => return default
  | some text => orRefuse (TaggedName.parse text) (malformed ("epoch event shard is invalid: " ++ text))

def epochPayloadFromJson (value : Json) : Result Json :=
  match value.find "payload" with
  | none => return .object []
  | some payload =>
    if payload.isObject then return payload
    else .error (malformed "epoch event payload must be an object")

def epochEventFromJson (value : Json) : Result EpochEvent := do
  refuseUnless value.isObject (malformed "epoch event must be an object")
  let kindText ← orRefuse (jsonString value "kind") (malformed "epoch event is missing kind")
  let kind ← orRefuse (EpochEventKind.fromName kindText) (malformed ("epoch event kind is invalid: " ++ kindText))
  let shard ← epochShardFromJson value
  let payload ← epochPayloadFromJson value
  return { kind, shard, epoch := jsonU64Or value "epoch" 0, generation := jsonU64Or value "generation" 0
           atMs := jsonU64Or value "at_ms" 0, payload }

/-- An event of a shard is read back, if its payload is an object. -/
theorem epochEventFromJson_toJson {event : EpochEvent} (hshard : event.shard.isValid = true)
    (hpayload : event.payload.isObject = true) : epochEventFromJson event.toJson = .ok event := by
  have hobject : event.toJson.isObject = true := by simp [EpochEvent.toJson]
  have hkind : jsonString event.toJson "kind" = some event.kind.name := by simp [EpochEvent.toJson, jsonString, Json.tryString]
  have hname : epochShardFromJson event.toJson = .ok event.shard := by
    have htext : jsonString event.toJson "shard" = some event.shard.str := by simp [EpochEvent.toJson, jsonString, Json.tryString]
    rw [epochShardFromJson, htext]
    show orRefuse (TaggedName.parse event.shard.str) _ = _
    rw [TaggedName.parse_str hshard, orRefuse_some]
  have hread : epochPayloadFromJson event.toJson = .ok event.payload := by
    have hfind : event.toJson.find "payload" = some event.payload := by simp [EpochEvent.toJson]
    rw [epochPayloadFromJson, hfind]
    exact if_pos hpayload
  have hepoch : jsonU64Or event.toJson "epoch" 0 = event.epoch := by simp [EpochEvent.toJson, jsonU64Or, jsonU64, Json.tryU64]
  have hgeneration : jsonU64Or event.toJson "generation" 0 = event.generation := by
    simp [EpochEvent.toJson, jsonU64Or, jsonU64, Json.tryU64]
  have htime : jsonU64Or event.toJson "at_ms" 0 = event.atMs := by simp [EpochEvent.toJson, jsonU64Or, jsonU64, Json.tryU64]
  rw [epochEventFromJson, hobject, hkind, orRefuse_some, refuseUnless_true, Result.ok_bind, Result.ok_bind,
    EpochEventKind.fromName_name, orRefuse_some, Result.ok_bind, hname, Result.ok_bind, hread, Result.ok_bind, hepoch, hgeneration,
    htime]
  rfl

section
variable (floats : FloatText)

def encodeEpochEvent (event : EpochEvent) : Bytes := event.toJson.dump floats

/-- The event of a record, or what is said of a record that holds none. -/
def readEpochEvent (record : Bytes) : Except String EpochEvent :=
  match parseJson floats {} record with
  | .error message => .error ("epoch journal record is not valid JSON: " ++ message)
  | .ok value =>
    match epochEventFromJson value with
    | .error refusal => .error refusal.message
    | .ok event => .ok event

/-- The events of records up to the first that holds none. -/
def readEpochEvents : List Bytes → List EpochEvent × Option String
  | [] => ([], none)
  | record :: records =>
    match readEpochEvent floats record with
    | .error diagnostic => ([], some diagnostic)
    | .ok event => (event :: (readEpochEvents records).1, (readEpochEvents records).2)

/-! ## The log of a process -/

structure EpochLog where
  path : String
  capacity : Nat
  events : List EpochEvent := []
  replayedRecords : Nat := 0
  tailDamaged : Bool := false
  diagnostic : String := ""

namespace EpochLog

/-- A log without a capacity has one of one. -/
def new (path : String) (capacity : Nat) : EpochLog := { path, capacity := if capacity = 0 then 1 else capacity }

variable (log : EpochLog)

/-- The last events, as many as the capacity. -/
def trimmed (events : List EpochEvent) : List EpochEvent := events.drop (events.length - log.capacity)

/-- The log after a replay, and whether it was refused; the file stays as it is. -/
def replay (file : Option Bytes) : EpochLog × Result Unit :=
  let cleared : EpochLog := { path := log.path, capacity := log.capacity }
  match readRecords log.path file with
  | .error refusal => (cleared, .error refusal)
  | .ok read =>
    let found := readEpochEvents floats read.records
    ({ cleared with
        events := log.trimmed found.1
        replayedRecords := read.totalRecords
        tailDamaged := read.truncated || read.damaged || found.2.isSome
        diagnostic := found.2.getD read.diagnostic }, .ok ())

/-- An append is followed by a compaction; `capacity * 2` at the width of `std::size_t`. -/
def compactionDue : Bool := log.events.length > log.capacity * 2 % 2 ^ 64

/-- How many events a compaction keeps at most. -/
def keep : Nat := if log.capacity / 2 = 0 then 1 else log.capacity / 2

/-- The events that a compaction keeps. -/
def retained : List EpochEvent := log.events.drop (if log.events.length > log.keep then log.events.length - log.keep else 0)

/-- The file that a compaction writes. -/
def compacted : Result Bytes :=
  if ∃ event ∈ log.retained, (encodeEpochEvent floats event).length > maxRecordBytes then
    .error (.plain .boundsExceeded "epoch journal record exceeds the permitted size")
  else .ok (log.retained.flatMap fun event => encodeRecord (encodeEpochEvent floats event))

end EpochLog

/-! ## The journal -/

inductive EpochJournalEvent where
  /-- An append up to its compaction. -/
  | append (event : EpochEvent)
  /-- The compaction of an append, or one of its own. -/
  | compact
  /-- The process ends, another opens the journal and replays it. -/
  | restart

/-- The file, and the log of the process that has it open; `due` : an append has still to compact. -/
structure EpochJournal where
  file : Option Bytes := none
  log : EpochLog
  opened : Bool := true
  due : Bool := false

namespace EpochJournal
variable (journal : EpochJournal)

/-- A journal before its first event. -/
def start (path : String) (capacity : Nat) : EpochJournal := { log := .new path capacity }

def append (event : EpochEvent) : EpochJournal :=
  match appendRecord journal.file (encodeEpochEvent floats event) with
  | .error _ => journal
  | .ok file =>
    let log := { journal.log with events := journal.log.events ++ [event] }
    { journal with file := some file, log, due := log.compactionDue }

def compact : EpochJournal :=
  match journal.log.compacted floats with
  | .error _ => { journal with due := false }
  | .ok file => { journal with file := some file, log := { journal.log with events := journal.log.retained }, due := false }

def restart : EpochJournal :=
  let replayed := (EpochLog.new journal.log.path journal.log.capacity).replay floats journal.file
  { journal with log := replayed.1, opened := replayed.2.toOption.isSome, due := false }

/-- An append waits for the compaction of the one before, and a journal that was not opened takes neither. -/
def after : EpochJournalEvent → Option EpochJournal
  | .append event => if journal.opened && !journal.due then some (journal.append floats event) else none
  | .compact => if journal.opened then some (journal.compact floats) else none
  | .restart => some (journal.restart floats)

def step (journal : EpochJournal) (event : EpochJournalEvent) (journal' : EpochJournal) : Prop :=
  journal.after floats event = some journal'

end EpochJournal

end

/-! ## Files of records -/

/-- The records that a file holds, one behind another. -/
structure HoldsRecords (file : Option Bytes) (records : List Bytes) : Prop where
  contents : file.getD [] = records.flatMap encodeRecord
  sizes : ∀ record ∈ records, record.length ≤ maxRecordBytes

section
variable {floats : FloatText} {file : Option Bytes} {records : List Bytes}

/-- A reader that does not refuse a file of records finds them all. -/
theorem HoldsRecords.read {path : String} {report : LogReadReport} (h : HoldsRecords file records)
    (hread : readRecords path file = .ok report) : report.records = records := by
  cases file with
  | none =>
    cases hread
    have hnil : [] = records.flatMap encodeRecord := h.contents
    cases records with
    | nil => rfl
    | cons record records =>
      rw [List.flatMap_cons] at hnil
      exact absurd (List.append_eq_nil_iff.mp hnil.symm).1 (recordFrames.encode_ne_nil record)
  | some contents =>
    obtain rfl : contents = records.flatMap encodeRecord := h.contents
    rw [readRecords, Result.bind_eq_ok] at hread
    obtain ⟨raw, hraw, hreport⟩ := hread
    unfold readBinaryFile at hraw
    split_ifs at hraw
    cases hraw
    rcases Nat.lt_or_ge maxLogRecords records.length with hmany | hfew
    · have hfull := recordFrames.scan_overfull h.sizes hmany
      generalize scan readRecord maxLogRecords (records.flatMap encodeRecord) = scanned at hfull hreport
      obtain ⟨found, how⟩ := scanned
      obtain rfl : how = .overfull := hfull
      cases hreport
    · rw [recordFrames.scan_flatMap h.sizes hfew] at hreport
      cases hreport
      rfl

theorem HoldsRecords.append {file' : Bytes} {record : Bytes} (h : HoldsRecords file records)
    (happend : appendRecord file record = .ok file') : HoldsRecords (some file') (records ++ [record]) := by
  unfold appendRecord at happend
  split_ifs at happend with hsize
  cases happend
  refine ⟨?_, fun record' hrecord' => ?_⟩
  · rw [Option.getD_some, h.contents, List.flatMap_append, List.flatMap_singleton]
  · rcases List.mem_append.mp hrecord' with hrecord' | hrecord'
    · exact h.sizes record' hrecord'
    · rw [List.mem_singleton.mp hrecord']
      exact Nat.le_of_not_lt hsize

theorem HoldsRecords.readable (h : HoldsRecords file records) (hfew : records.length ≤ maxLogRecords)
    (hbytes : (file.getD []).length ≤ maxIntegrityPayloadBytes + integrityHeaderBytes) (path : String) :
    ∃ report, readRecords path file = .ok report ∧ report.records = records := by
  have hlimits : RecordLogState.WithinLimits { file } := by
    refine ⟨hbytes, ?_⟩
    rw [h.contents, recordFrames.scan_flatMap h.sizes hfew]
    exact nofun
  obtain ⟨report, hread, -⟩ := RecordLogState.readRecords_of_withinLimits hlimits path
  exact ⟨report, hread, h.read hread⟩

/-- A file holds one list of records. -/
theorem HoldsRecords.unique {records' : List Bytes} (h : HoldsRecords file records) (h' : HoldsRecords file records') :
    records = records' := by
  have hscan := recordFrames.scan_flatMap h.sizes (Nat.le_max_left records.length records'.length)
  have hscan' := recordFrames.scan_flatMap h'.sizes (Nat.le_max_right records.length records'.length)
  rw [← h.contents] at hscan
  rw [← h'.contents] at hscan'
  exact congrArg Prod.fst (hscan.symm.trans hscan')

/-- A record that reads back, as an event with the same text. -/
def ReadsBack (floats : FloatText) (record : Bytes) : Prop :=
  ∃ event, readEpochEvent floats record = .ok event ∧ encodeEpochEvent floats event = record

theorem readEpochEvent_encode {event : EpochEvent} (hshard : event.shard.isValid = true) (hpayload : event.payload.isObject = true)
    (hfits : Json.Fits {} 0 event.toJson) (hbytes : (encodeEpochEvent floats event).length ≤ ({} : JsonParseLimits).maxBytes) :
    readEpochEvent floats (encodeEpochEvent floats event) = .ok event := by
  unfold readEpochEvent encodeEpochEvent
  rw [parseJson_dump hfits hbytes]
  dsimp only
  rw [epochEventFromJson_toJson hshard hpayload]

theorem readEpochEvents_map {events : List EpochEvent}
    (h : ∀ event ∈ events, readEpochEvent floats (encodeEpochEvent floats event) = .ok event) :
    readEpochEvents floats (events.map (encodeEpochEvent floats)) = (events, none) := by
  induction events with
  | nil => rfl
  | cons event events ih =>
    obtain ⟨hread, hrest⟩ := List.forall_mem_cons.mp h
    rw [List.map_cons, readEpochEvents, hread]
    dsimp only
    rw [ih hrest]

theorem readEpochEvents_readsBack (h : ∀ record ∈ records, ReadsBack floats record) :
    (readEpochEvents floats records).1.map (encodeEpochEvent floats) = records ∧ (readEpochEvents floats records).2 = none := by
  induction records with
  | nil => exact ⟨rfl, rfl⟩
  | cons record records ih =>
    obtain ⟨⟨event, hread, htext⟩, hrest⟩ := List.forall_mem_cons.mp h
    obtain ⟨hevents, hnone⟩ := ih hrest
    simp only [readEpochEvents, hread, List.map_cons, htext, hevents, hnone, and_self]

end

/-! ## Runs -/

/-- What is promised of a journal of a capacity. -/
structure JournalBounded (floats : FloatText) (capacity : Nat) (journal : EpochJournal) : Prop where
  holds : ∃ records, HoldsRecords journal.file records ∧ records.length ≤ 2 * capacity + 1 ∧
    journal.log.events.map (encodeEpochEvent floats) <:+ records

/-- A restart replays no more records than the capacity, and each reads back. -/
def ReplaysAll (floats : FloatText) (journal : EpochJournal) (event : EpochJournalEvent) : Prop :=
  event = .restart → ∀ records, HoldsRecords journal.file records →
    records.length ≤ journal.log.capacity ∧ ∀ record ∈ records, ReadsBack floats record

/-- The process that has the journal open holds all events of the file, of which there are too many only before a compaction. -/
structure EpochJournal.Mirrored (floats : FloatText) (capacity : Nat) (journal : EpochJournal) : Prop where
  sized : journal.log.capacity = capacity
  positive : 0 < capacity
  holds : ∃ records, HoldsRecords journal.file records ∧ records.length ≤ 2 * capacity + 1 ∧
    (journal.due = false → records.length ≤ 2 * capacity) ∧
    journal.log.events.map (encodeEpochEvent floats) = if journal.opened then records else []

namespace EpochJournal
variable {floats : FloatText} {capacity : Nat} {journal : EpochJournal}

theorem Mirrored.bounded (h : journal.Mirrored floats capacity) : JournalBounded floats capacity journal := by
  obtain ⟨records, hholds, hlength, -, hevents⟩ := h.holds
  refine ⟨records, hholds, hlength, ?_⟩
  rw [hevents]
  split_ifs
  · exact List.suffix_refl _
  · exact List.nil_suffix

theorem mirrored_start (path : String) (capacity : Nat) :
    (start path capacity).Mirrored floats (EpochLog.new path capacity).capacity := by
  have hpositive : 0 < (EpochLog.new path capacity).capacity := by
    unfold EpochLog.new
    dsimp only
    split_ifs <;> omega
  exact ⟨rfl, hpositive, [], ⟨rfl, fun _ h => absurd h List.not_mem_nil⟩, Nat.zero_le _, fun _ => Nat.zero_le _, rfl⟩

theorem Mirrored.append (h : journal.Mirrored floats capacity) (hopened : journal.opened = true) (hdue : journal.due = false)
    (event : EpochEvent) : (journal.append floats event).Mirrored floats capacity := by
  obtain ⟨records, hholds, -, hlength, hevents⟩ := h.holds
  rw [hopened, if_pos rfl] at hevents
  have hsame : journal.log.events.length = records.length := by rw [← hevents, List.length_map]
  have hshort := hlength hdue
  unfold EpochJournal.append
  cases happend : appendRecord journal.file (encodeEpochEvent floats event) with
  | error refusal => exact h
  | ok file =>
    refine ⟨h.sized, h.positive, records ++ [encodeEpochEvent floats event], hholds.append happend, ?_, fun hnotDue => ?_, ?_⟩
    · rw [List.length_append, List.length_singleton]
      omega
    · have hsmall : ¬ (journal.log.events ++ [event]).length > journal.log.capacity * 2 % 2 ^ 64 := of_decide_eq_false hnotDue
      have hmod := Nat.mod_le (journal.log.capacity * 2) (2 ^ 64)
      rw [List.length_append, List.length_singleton] at hsmall ⊢
      rw [h.sized] at hsmall hmod
      omega
    · show (journal.log.events ++ [event]).map _ = _
      rw [hopened, if_pos rfl, List.map_append, hevents]
      rfl

theorem Mirrored.compact (h : journal.Mirrored floats capacity) (hopened : journal.opened = true) :
    (journal.compact floats).Mirrored floats capacity := by
  obtain ⟨records, hholds, -, -, hevents⟩ := h.holds
  rw [hopened, if_pos rfl] at hevents
  -- Every event was written, so every one that is kept fits.
  have hsizes : ∀ event ∈ journal.log.retained, (encodeEpochEvent floats event).length ≤ maxRecordBytes := by
    intro event hevent
    apply hholds.sizes
    rw [← hevents]
    exact List.mem_map_of_mem (List.mem_of_mem_drop hevent)
  have hcompacted : journal.log.compacted floats =
      .ok (journal.log.retained.flatMap fun event => encodeRecord (encodeEpochEvent floats event)) := by
    refine if_neg ?_
    rintro ⟨event, hevent, hlarge⟩
    exact absurd (hsizes event hevent) (Nat.not_le.mpr hlarge)
  have hkeep : journal.log.retained.length ≤ capacity := by
    have hpositive := h.positive
    unfold EpochLog.retained EpochLog.keep
    rw [List.length_drop, h.sized]
    split_ifs <;> omega
  have hlength : (journal.log.retained.map (encodeEpochEvent floats)).length ≤ capacity := by
    rw [List.length_map]
    exact hkeep
  unfold EpochJournal.compact
  rw [hcompacted]
  refine ⟨h.sized, h.positive, journal.log.retained.map (encodeEpochEvent floats), ⟨?_, ?_⟩, by omega, fun _ => by omega, ?_⟩
  · rw [Option.getD_some, List.flatMap_map]
  · intro record hrecord
    obtain ⟨event, hevent, rfl⟩ := List.mem_map.mp hrecord
    exact hsizes event hevent
  · show journal.log.retained.map _ = if journal.opened then _ else _
    rw [hopened, if_pos rfl]

theorem Mirrored.restart (h : journal.Mirrored floats capacity) (hreplays : ReplaysAll floats journal .restart) :
    (journal.restart floats).Mirrored floats capacity := by
  obtain ⟨records, hholds, -, -, -⟩ := h.holds
  obtain ⟨hfew, hreads⟩ := hreplays rfl records hholds
  rw [h.sized] at hfew
  have hcapacity : (EpochLog.new journal.log.path journal.log.capacity).capacity = capacity := by
    rw [EpochLog.new, h.sized]
    exact if_neg (Nat.ne_of_gt h.positive)
  unfold EpochJournal.restart EpochLog.replay
  cases hread : readRecords (EpochLog.new journal.log.path journal.log.capacity).path journal.file with
  | error refusal => exact ⟨hcapacity, h.positive, records, hholds, by omega, fun _ => by omega, rfl⟩
  | ok report =>
    refine ⟨hcapacity, h.positive, records, hholds, by omega, fun _ => by omega, ?_⟩
    obtain ⟨hevents, -⟩ := readEpochEvents_readsBack hreads
    have hall : (EpochLog.new journal.log.path journal.log.capacity).trimmed (readEpochEvents floats records).1 =
        (readEpochEvents floats records).1 := by
      have hlength : (readEpochEvents floats records).1.length = records.length := by
        rw [← List.length_map (encodeEpochEvent floats), hevents]
      rw [EpochLog.trimmed, hcapacity, hlength, Nat.sub_eq_zero_of_le hfew, List.drop_zero]
    show ((EpochLog.new journal.log.path journal.log.capacity).trimmed (readEpochEvents floats report.records).1).map _ = records
    rw [hholds.read hread, hall, hevents]

theorem mirrored_step {journal' : EpochJournal} {event : EpochJournalEvent} (h : journal.Mirrored floats capacity)
    (hreplays : ReplaysAll floats journal event) (hstep : journal.step floats event journal') :
    journal'.Mirrored floats capacity := by
  cases event with
  | append event =>
    have hafter : (if journal.opened && !journal.due then some (journal.append floats event) else none) = some journal' := hstep
    split_ifs at hafter with henabled
    cases hafter
    rw [Bool.and_eq_true, Bool.not_eq_true'] at henabled
    exact h.append henabled.1 henabled.2 event
  | compact =>
    have hafter : (if journal.opened then some (journal.compact floats) else none) = some journal' := hstep
    split_ifs at hafter with hopened
    cases hafter
    exact h.compact hopened
  | restart =>
    cases hstep
    exact h.restart hreplays

end EpochJournal

/-! ## A journal of one event -/

namespace Sample

def established : EpochEvent :=
  { kind := .shardEstablished, shard := ⟨"a", .inr (by decide)⟩, epoch := 1, generation := 1, atMs := 0, payload := .object [] }

/-- No number of the event is a float. -/
def integersOnly : FloatText := ⟨fun _ => none, fun _ => none⟩

def establishedRecord : Bytes := encodeEpochEvent integersOnly established

theorem establishedRecord_length : establishedRecord.length ≤ 128 := by decide +kernel

theorem established_reads : readEpochEvent integersOnly establishedRecord = .ok established :=
  readEpochEvent_encode rfl rfl (Json.fits_of_fitsIn (by decide +kernel)) (establishedRecord_length.trans (by decide))

/-- The file holds `written` records of the event, and the process remembers `remembered`. -/
structure Repeated (journal : EpochJournal) (written remembered : Nat) : Prop where
  sized : journal.log.capacity = 1
  opened : journal.opened = true
  idle : journal.due = false
  file : HoldsRecords journal.file (List.replicate written establishedRecord)
  events : journal.log.events = List.replicate remembered established

theorem Repeated.append {journal : EpochJournal} {written remembered : Nat} (h : Repeated journal written remembered)
    (hfew : remembered ≤ 1) : Repeated (journal.append integersOnly established) (written + 1) (remembered + 1) := by
  obtain ⟨file, happend⟩ : ∃ file, appendRecord journal.file establishedRecord = .ok file := by
    have hsize : ¬ establishedRecord.length > maxRecordBytes := Nat.not_lt.mpr (establishedRecord_length.trans (by decide))
    exact ⟨_, if_neg hsize⟩
  have hevents : journal.log.events ++ [established] = List.replicate (remembered + 1) established := by
    rw [h.events, List.replicate_succ']
  have hafter : journal.append integersOnly established =
      { journal with file := some file, log := { journal.log with events := journal.log.events ++ [established] }
                     due := ({ journal.log with events := journal.log.events ++ [established] } : EpochLog).compactionDue } := by
    unfold EpochJournal.append
    rw [show encodeEpochEvent integersOnly established = establishedRecord from rfl, happend]
  rw [hafter]
  refine ⟨h.sized, h.opened, ?_, ?_, hevents⟩
  · apply decide_eq_false
    rw [h.sized, hevents, List.length_replicate]
    omega
  · rw [List.replicate_succ']
    exact h.file.append happend

theorem Repeated.append_step {journal : EpochJournal} {written remembered : Nat} (h : Repeated journal written remembered) :
    journal.step integersOnly (.append established) (journal.append integersOnly established) := by
  refine if_pos ?_
  rw [h.opened, h.idle]
  rfl

theorem Repeated.restart {journal : EpochJournal} {written remembered : Nat} (h : Repeated journal written remembered)
    (hfew : written ≤ 1000) : Repeated (journal.restart integersOnly) written (min written 1) := by
  have hbytes : (journal.file.getD []).length ≤ maxIntegrityPayloadBytes + integrityHeaderBytes := by
    rw [h.file.contents, List.flatMap_replicate, List.length_flatten, List.map_replicate, List.sum_replicate_nat]
    have hlength : (encodeRecord establishedRecord).length ≤ 152 := by decide +kernel
    calc written * (encodeRecord establishedRecord).length ≤ 1000 * 152 := Nat.mul_le_mul hfew hlength
      _ ≤ maxIntegrityPayloadBytes + integrityHeaderBytes := by decide
  have hmany : (List.replicate written establishedRecord).length ≤ maxLogRecords := by
    rw [List.length_replicate]
    exact hfew.trans (by decide)
  have hsized : (EpochLog.new journal.log.path journal.log.capacity).capacity = 1 := by
    rw [EpochLog.new, h.sized]
    rfl
  obtain ⟨report, hread, hrecords⟩ := h.file.readable hmany hbytes (EpochLog.new journal.log.path journal.log.capacity).path
  have hevents : readEpochEvents integersOnly report.records = (List.replicate written established, none) := by
    rw [hrecords, show List.replicate written establishedRecord = (List.replicate written established).map _ from
      List.map_replicate.symm]
    apply readEpochEvents_map
    intro event hevent
    rw [List.eq_of_mem_replicate hevent]
    exact established_reads
  unfold EpochJournal.restart EpochLog.replay
  rw [hread]
  refine ⟨hsized, rfl, rfl, h.file, ?_⟩
  show (EpochLog.new journal.log.path journal.log.capacity).trimmed (readEpochEvents integersOnly report.records).1 = _
  rw [hevents, EpochLog.trimmed, hsized, List.drop_replicate, List.length_replicate]
  congr 1
  omega

theorem repeated_start : Repeated (.start "epochs.fxr" 1) 0 0 :=
  ⟨rfl, rfl, rfl, ⟨rfl, fun _ h => absurd h List.not_mem_nil⟩, rfl⟩

theorem Repeated.replaysAll {journal : EpochJournal} {written remembered : Nat} (h : Repeated journal written remembered)
    (hfew : written ≤ 1) (event : EpochJournalEvent) : ReplaysAll integersOnly journal event := by
  intro _ records hholds
  rw [hholds.unique h.file, List.length_replicate, h.sized]
  refine ⟨hfew, fun record hrecord => ?_⟩
  rw [List.eq_of_mem_replicate hrecord]
  exact ⟨established, established_reads, rfl⟩

end Sample

/-- In every run whose restarts replay no more records than the capacity, each of which reads back, the file never holds more than
twice the capacity and one record, and the events in memory are the last of the file. -/
theorem epoch_journal_bounded {floats : FloatText} {path : String} {capacity : Nat} {events : List EpochJournalEvent}
    {journal : EpochJournal}
    (hrun : Run (Guarded (ReplaysAll floats) (EpochJournal.step floats)) (.start path capacity) events journal) :
    JournalBounded floats (EpochLog.new path capacity).capacity journal := by
  have hmirrored := hrun.invariant (EpochJournal.Mirrored floats (EpochLog.new path capacity).capacity)
    (fun _ _ _ h hstep => EpochJournal.mirrored_step h hstep.1 hstep.2) (EpochJournal.mirrored_start path capacity)
  exact hmirrored.bounded

open Sample in
theorem epoch_journal_bounded_sample : ∃ journal,
    Run (Guarded (ReplaysAll integersOnly) (EpochJournal.step integersOnly)) (.start "epochs.fxr" 1)
      [.append established, .restart, .append established] journal ∧
      (∃ records, HoldsRecords journal.file records ∧ records.length = 2) ∧ JournalBounded integersOnly 1 journal := by
  have h₀ := repeated_start
  have h₁ := h₀.append (by decide)
  have h₂ := h₁.restart (by decide)
  have h₃ := h₂.append (by decide)
  have hrun : Run (Guarded (ReplaysAll integersOnly) (EpochJournal.step integersOnly)) (.start "epochs.fxr" 1)
      [.append established, .restart, .append established] _ :=
    .cons ⟨h₀.replaysAll (by decide) _, h₀.append_step⟩ <| .cons ⟨h₁.replaysAll (by decide) _, rfl⟩ <|
      .cons ⟨h₂.replaysAll (by decide) _, h₂.append_step⟩ <| .nil _
  exact ⟨_, hrun, ⟨_, h₃.file, List.length_replicate⟩, epoch_journal_bounded hrun⟩

open Sample in
/-- With room for one event, two appends after the first start and one after each of two restarts leave four records. -/
theorem epoch_journal_outgrows : ∃ floats path events journal,
    Run (EpochJournal.step floats) (.start path 1) events journal ∧
      (∃ records, HoldsRecords journal.file records ∧ records.length = 4) ∧ ¬ JournalBounded floats 1 journal := by
  have h₀ := repeated_start
  have h₁ := h₀.append (by decide)
  have h₂ := h₁.append (by decide)
  have h₃ := h₂.restart (by decide)
  have h₄ := h₃.append (by decide)
  have h₅ := h₄.restart (by decide)
  have h₆ := h₅.append (by decide)
  refine ⟨integersOnly, "epochs.fxr", [.append established, .append established, .restart, .append established, .restart,
    .append established], _, .cons h₀.append_step <| .cons h₁.append_step <| .cons rfl <| .cons h₃.append_step <| .cons rfl <|
      .cons h₅.append_step <| .nil _, ⟨_, h₆.file, List.length_replicate⟩, ?_⟩
  rintro ⟨records, hholds, hlength, -⟩
  rw [hholds.unique h₆.file, List.length_replicate] at hlength
  omega

end FabricEvolution
