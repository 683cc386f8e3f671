import FabricEvolution.Lib.Log
import FabricEvolution.Lib.Run
import FabricEvolution.Persistence.Bytes
import FabricEvolution.Wire.Status

/-!
# The record log

An append-only file of length-prefixed, checksummed records: the record log of a node and the epoch journal.

* `encodeRecord`, `readRecord` : a record as it is written, and as it is taken off the front of a log;
* `appendRecord`, `readRecords` : the writer and the reader of a log file;
* `recordFrames` : the reader takes off what the writer wrote.
-/

namespace FabricEvolution
open Lib

def recordMagic : Bytes := ['F', 'X', 'R', '1']

def formatVersion : Nat := 1

def recordHeaderBytes : Nat := 24

def maxRecordBytes : Nat := 8 * 1024 * 1024

def maxLogRecords : Nat := 1000000

def integrityHeaderBytes : Nat := 128

def maxIntegrityPayloadBytes : Nat := 64 * 1024 * 1024

/-! ## Records -/

def recordHeader (payload : Bytes) : Bytes :=
  recordMagic ++ leBytes 4 formatVersion ++ leBytes 8 payload.length ++ leBytes 4 (crc32 payload).toNat ++ leBytes 4 0

def encodeRecord (payload : Bytes) : Bytes := recordHeader payload ++ payload

/-- Why a log is not read on: it ends inside a record, or a record fails verification. -/
structure TailFault where
  truncated : Bool
  diagnostic : String
deriving DecidableEq

/-- The record at the front of a log. -/
def readRecord (contents : Bytes) : Front Bytes Char TailFault :=
  if contents.length < recordHeaderBytes then .stop ⟨true, "log ends inside a record header"⟩
  else if contents.take 4 ≠ recordMagic then .stop ⟨false, "log record magic mismatch"⟩
  else if readLe ((contents.drop 4).take 4) ≠ formatVersion then .stop ⟨false, "log record format version mismatch"⟩
  else
    let length := readLe ((contents.drop 8).take 8)
    let recordedCrc := readLe ((contents.drop 16).take 4)
    if length > maxRecordBytes then .stop ⟨false, "log record declares an implausible length"⟩
    else if recordHeaderBytes + length > contents.length then .stop ⟨true, "log ends inside a record payload"⟩
    else
      let payload := (contents.drop recordHeaderBytes).take length
      if (crc32 payload).toNat ≠ recordedCrc then .stop ⟨false, "log record CRC mismatch"⟩
      else .record payload (contents.drop (recordHeaderBytes + length))

/-! ## Files -/

structure LogReadReport where
  records : List Bytes := []
  totalRecords : Nat := 0
  damagedTailBytes : Nat := 0
  truncated : Bool := false
  damaged : Bool := false
  diagnostic : String := ""

/-- The file after an append that succeeds. -/
def appendRecord (file : Option Bytes) (payload : Bytes) : Result Bytes :=
  if payload.length > maxRecordBytes then
    .error ⟨.boundsExceeded, "log record exceeds the permitted size",
      .ofPairs [("bytes", .uint payload.length), ("limit", .uint maxRecordBytes)]⟩
  else .ok (file.getD [] ++ encodeRecord payload)

/-- A file as a whole, within the size that readers permit. -/
def readBinaryFile (path : String) (contents : Bytes) : Result Bytes :=
  if contents.length > maxIntegrityPayloadBytes + integrityHeaderBytes then
    .error ⟨.boundsExceeded, "file exceeds the permitted size",
      .ofPairs [("path", .string path), ("bytes", .uint contents.length)]⟩
  else .ok contents

/-- The report of a scan. -/
def scanReport (path : String) (scanned : List Bytes × ScanEnd TailFault) : Result LogReadReport :=
  match scanned with
  | (records, .finished) => .ok { records, totalRecords := records.length }
  | (records, .stopped fault left) => .ok
    { records, totalRecords := records.length, damagedTailBytes := left, truncated := fault.truncated,
      damaged := !fault.truncated, diagnostic := fault.diagnostic }
  | (_, .overfull) => .error ⟨.resourceExhausted, "log contains more records than the reader permits",
      .ofPairs [("path", .string path), ("limit", .uint maxLogRecords)]⟩

def readRecords (path : String) (file : Option Bytes) : Result LogReadReport :=
  match file with
  | none => .ok {}
  | some contents => do
    let contents ← readBinaryFile path contents
    scanReport path (scan readRecord maxLogRecords contents)

/-! ## What is written is read -/

@[simp] theorem length_recordHeader (payload : Bytes) : (recordHeader payload).length = recordHeaderBytes := by
  simp [recordHeader, recordMagic, recordHeaderBytes]

theorem readRecord_encode (payload rest : Bytes) (h : payload.length ≤ maxRecordBytes) :
    readRecord (encodeRecord payload ++ rest) = .record payload rest := by
  have hlength : payload.length < 256 ^ 8 := h.trans_lt (by decide)
  have hcrc : (crc32 payload).toNat < 256 ^ 4 := (crc32 payload).isLt
  have hdrop : ∀ n, (encodeRecord payload ++ rest).drop (recordHeaderBytes + n) = (payload ++ rest).drop n := by
    intro n
    rw [encodeRecord, List.append_assoc, ← List.drop_drop, List.drop_left' (length_recordHeader payload)]
  have hpayload : ((encodeRecord payload ++ rest).drop recordHeaderBytes).take payload.length = payload := by
    simpa using congrArg (List.take payload.length) (hdrop 0)
  have hrest : (encodeRecord payload ++ rest).drop (recordHeaderBytes + payload.length) = rest := by
    rw [hdrop, List.drop_left]
  have hsize : (encodeRecord payload ++ rest).length = recordHeaderBytes + payload.length + rest.length := by
    simp [encodeRecord, Nat.add_assoc]
  have hfields : (encodeRecord payload ++ rest).take 4 = recordMagic ∧
      ((encodeRecord payload ++ rest).drop 4).take 4 = leBytes 4 formatVersion ∧
      ((encodeRecord payload ++ rest).drop 8).take 8 = leBytes 8 payload.length ∧
      ((encodeRecord payload ++ rest).drop 16).take 4 = leBytes 4 (crc32 payload).toNat := by
    refine ⟨?_, ?_, ?_, ?_⟩ <;>
      simp [encodeRecord, recordHeader, recordMagic, List.take_append, List.drop_append, List.take_of_length_le]
  obtain ⟨hmagic, hversion, hlengthField, hcrcField⟩ := hfields
  unfold readRecord
  rw [if_neg (by rw [hsize]; omega), if_neg (by simp [hmagic]), hversion,
    if_neg (by rw [readLe_leBytes (by decide)]; simp), hlengthField, hcrcField, readLe_leBytes hlength, readLe_leBytes hcrc]
  dsimp only
  rw [if_neg (by omega), if_neg (by rw [hsize]; omega), hpayload, if_neg (by simp), hrest]

/-- What it takes to be a record. -/
theorem readRecord_eq_record {contents payload rest : Bytes} (h : readRecord contents = .record payload rest) :
    recordHeaderBytes + payload.length ≤ contents.length ∧ payload.length ≤ maxRecordBytes ∧
      contents.take 4 = recordMagic ∧ readLe ((contents.drop 4).take 4) = formatVersion ∧
      readLe ((contents.drop 8).take 8) = payload.length ∧ readLe ((contents.drop 16).take 4) = (crc32 payload).toNat ∧
      contents.drop recordHeaderBytes = payload ++ rest := by
  unfold readRecord at h
  dsimp only at h
  split_ifs at h with hheader hmagic hversion hlength hpayload hcrc
  injection h with hp hr
  subst hp hr
  have hsize : ((contents.drop recordHeaderBytes).take (readLe ((contents.drop 8).take 8))).length =
      readLe ((contents.drop 8).take 8) := by
    rw [List.length_take, List.length_drop]
    omega
  rw [hsize]
  refine ⟨by omega, by omega, not_not.mp hmagic, not_not.mp hversion, rfl, (not_not.mp hcrc).symm, ?_⟩
  rw [← List.drop_drop, List.take_append_drop]

theorem readRecord_append (contents payload rest more : Bytes) (h : readRecord contents = .record payload rest) :
    readRecord (contents ++ more) = .record payload (rest ++ more) := by
  obtain ⟨hsize, hmax, hmagic, hversion, hlength, hcrc, hdrop⟩ := readRecord_eq_record h
  have hheader : recordHeaderBytes = 24 := rfl
  have hfield : ∀ n k, n + k ≤ 24 → ((contents ++ more).drop n).take k = (contents.drop n).take k := by
    intro n k hnk
    rw [List.drop_append_of_le_length (by omega), List.take_append_of_le_length (by rw [List.length_drop]; omega)]
  have hbody : (contents ++ more).drop recordHeaderBytes = payload ++ (rest ++ more) := by
    rw [List.drop_append_of_le_length (by omega), hdrop, List.append_assoc]
  have hmagic' := hfield 0 4 (by omega)
  rw [List.drop_zero, List.drop_zero] at hmagic'
  unfold readRecord
  rw [if_neg (by rw [List.length_append]; omega), if_neg (by rw [hmagic', hmagic]; simp), hfield 4 4 (by omega), hversion,
    if_neg (by simp), hfield 8 8 (by omega), hlength, hfield 16 4 (by omega), hcrc]
  dsimp only
  rw [if_neg (by omega), if_neg (by rw [List.length_append]; omega), hbody, List.take_left, if_neg (by simp),
    ← List.drop_drop, hbody, List.drop_left]

/-- The reader takes off what the writer wrote. -/
theorem recordFrames : LawfulFrames encodeRecord readRecord fun payload => payload.length ≤ maxRecordBytes where
  encode_ne_nil payload := by simp [encodeRecord, recordHeader, recordMagic]
  read_encode payload rest h := readRecord_encode payload rest h
  read_append := readRecord_append

/-! ## Runs of one log file -/

inductive RecordLogEvent where
  | append (payload : Bytes)
  /-- The writer dies in an append, `kept` bytes of the record are on disk. -/
  | crash (payload : Bytes) (kept : Nat)
  /-- A process reads the log and goes on with it. -/
  | restart

/-- A log file, and the payloads whose append returned success. -/
structure RecordLogState where
  file : Option Bytes := none
  acked : List Bytes := []

namespace RecordLogState

def after (s : RecordLogState) : RecordLogEvent → RecordLogState
  | .append payload =>
    match appendRecord s.file payload with
    | .error _ => s
    | .ok file => { file := some file, acked := s.acked ++ [payload] }
  | .crash payload kept =>
    match appendRecord s.file payload with
    | .error _ => s
    | .ok _ => { s with file := some (s.file.getD [] ++ (encodeRecord payload).take kept) }
  | .restart => s

def step (s : RecordLogState) (e : RecordLogEvent) (t : RecordLogState) : Prop := t = s.after e

section
variable {s : RecordLogState} {payload : Bytes} {kept : Nat}

theorem after_append (h : payload.length ≤ maxRecordBytes) : s.after (.append payload) =
    { file := some (s.file.getD [] ++ encodeRecord payload), acked := s.acked ++ [payload] } := by
  simp only [after, appendRecord, if_neg (Nat.not_lt.mpr h)]

theorem after_crash (h : payload.length ≤ maxRecordBytes) : s.after (.crash payload kept) =
    { s with file := some (s.file.getD [] ++ (encodeRecord payload).take kept) } := by
  simp only [after, appendRecord, if_neg (Nat.not_lt.mpr h)]

theorem after_append_of_lt (h : maxRecordBytes < payload.length) : s.after (.append payload) = s := by
  simp only [after, appendRecord, if_pos h]

theorem after_crash_of_lt (h : maxRecordBytes < payload.length) : s.after (.crash payload kept) = s := by
  simp only [after, appendRecord, if_pos h]

end

/-- The reader meets none of its limits: not that of the size, not that of the number of records. -/
def WithinLimits (s : RecordLogState) : Prop :=
  (s.file.getD []).length ≤ maxIntegrityPayloadBytes + integrityHeaderBytes ∧
    (scan readRecord maxLogRecords (s.file.getD [])).2 ≠ .overfull

/-- Nothing is appended behind a torn or damaged record. -/
def appendsToIntact (path : String) (s : RecordLogState) (e : RecordLogEvent) : Prop :=
  ∀ payload report, e = .append payload → readRecords path s.file = .ok report →
    report.truncated = false ∧ report.damaged = false

/-- Within its limits a log is read. -/
theorem readRecords_of_withinLimits {s : RecordLogState} (h : s.WithinLimits) (path : String) :
    ∃ report, readRecords path s.file = .ok report ∧ report.records = (scan readRecord maxLogRecords (s.file.getD [])).1 ∧
      (report.truncated = false ∧ report.damaged = false →
        (scan readRecord maxLogRecords (s.file.getD [])).2 = .finished) := by
  obtain ⟨hsize, hcount⟩ := h
  cases hfile : s.file with
  | none => exact ⟨{}, rfl, by simp, by simp⟩
  | some contents =>
    rw [hfile, Option.getD_some] at hsize hcount
    have hread : readRecords path (some contents) = scanReport path (scan readRecord maxLogRecords contents) := by
      simp only [readRecords, readBinaryFile, if_neg (Nat.not_lt.mpr hsize)]
      rfl
    rw [hread, Option.getD_some]
    clear hread
    revert hcount
    obtain ⟨records, how⟩ := scan readRecord maxLogRecords contents
    cases how with
    | finished => exact fun _ => ⟨_, rfl, rfl, fun _ => rfl⟩
    | stopped fault left =>
      refine fun _ => ⟨_, rfl, rfl, fun hintact => ?_⟩
      have htruncated : fault.truncated = false := hintact.1
      have hdamaged : (!fault.truncated) = false := hintact.2
      rw [htruncated] at hdamaged
      cases hdamaged
    | overfull => exact fun hcount => absurd rfl hcount

/-- Whatever is appended, a log that is within its limits was so before. -/
theorem withinLimits_of_grown {s t : RecordLogState} {more : Bytes} (hfile : t.file.getD [] = s.file.getD [] ++ more)
    (ht : t.WithinLimits) : s.WithinLimits := by
  obtain ⟨hsize, hcount⟩ := ht
  rw [hfile] at hsize hcount
  rw [List.length_append] at hsize
  exact ⟨by omega, (recordFrames.scan_prefix hcount).1⟩

/-- Within the limits, the reader returns what was acknowledged. -/
def Kept (s : RecordLogState) : Prop :=
  s.WithinLimits → s.acked.Sublist (scan readRecord maxLogRecords (s.file.getD [])).1

theorem kept_step {path : String} {s t : RecordLogState} {e : RecordLogEvent} (hs : s.Kept) (hintact : appendsToIntact path s e)
    (hstep : step s e t) : t.Kept := by
  subst hstep
  intro ht
  cases e with
  | restart => exact hs ht
  | crash payload kept =>
    rcases Nat.lt_or_ge maxRecordBytes payload.length with hmax | hmax
    · rw [after_crash_of_lt hmax] at ht ⊢
      exact hs ht
    · rw [after_crash hmax] at ht ⊢
      exact (hs (withinLimits_of_grown rfl ht)).trans (recordFrames.scan_prefix ht.2).2.sublist
  | append payload =>
    rcases Nat.lt_or_ge maxRecordBytes payload.length with hmax | hmax
    · rw [after_append_of_lt hmax] at ht ⊢
      exact hs ht
    · rw [after_append hmax] at ht ⊢
      have hbefore : s.WithinLimits := withinLimits_of_grown rfl ht
      obtain ⟨report, hread, -, hfinished⟩ := readRecords_of_withinLimits hbefore path
      have hscan := hfinished (hintact payload report rfl hread)
      exact recordFrames.sublist_scan_append (hs hbefore) hscan hmax ht.2

end RecordLogState

/-- As long as nothing is appended behind a torn or damaged record, a log within the limits of the reader is read with every
acknowledged record in it, in order, however many writers died. -/
theorem acknowledged_records_read {path : String} {es : List RecordLogEvent} {s : RecordLogState}
    (hrun : Run (Guarded (RecordLogState.appendsToIntact path) RecordLogState.step) {} es s) (hlimits : s.WithinLimits) :
    ∃ report, readRecords path s.file = .ok report ∧ s.acked.Sublist report.records := by
  have hkept : s.Kept := hrun.invariant RecordLogState.Kept (fun _ _ _ hs hstep => RecordLogState.kept_step hs hstep.1 hstep.2)
    fun _ => List.nil_sublist _
  obtain ⟨report, hread, hrecords, -⟩ := RecordLogState.readRecords_of_withinLimits hlimits path
  exact ⟨report, hread, hrecords ▸ hkept hlimits⟩

/-! ## A torn tail -/

namespace Sample

/-- A writer dies in its second record, the next process goes on where the file ends. -/
def tornThenAppended : List RecordLogEvent :=
  [.append "first".toList, .crash "second".toList 10, .restart, .append "third".toList]

/-- The same, but the record that was cut off is complete. -/
def wholeThenAppended : List RecordLogEvent :=
  [.append "first".toList, .crash "second".toList 30, .restart, .append "third".toList]

/-- Whether an append finds an intact file. -/
def findsIntact (path : String) (s : RecordLogState) : RecordLogEvent → Bool
  | .append _ => (readRecords path s.file).toOption.all fun report => !report.truncated && !report.damaged
  | _ => true

def passes (path : String) (s : RecordLogState) : List RecordLogEvent → Bool
  | [] => true
  | e :: es => findsIntact path s e && passes path (s.after e) es

theorem appendsToIntact_of_findsIntact {path : String} {s : RecordLogState} {e : RecordLogEvent}
    (h : findsIntact path s e = true) : RecordLogState.appendsToIntact path s e := by
  rintro payload report rfl hread
  simpa [findsIntact, hread, Except.toOption] using h

theorem run_of_passes {path : String} {s : RecordLogState} {es : List RecordLogEvent} (h : passes path s es = true) :
    Run (Guarded (RecordLogState.appendsToIntact path) RecordLogState.step) s es (es.foldl RecordLogState.after s) := by
  induction es generalizing s with
  | nil => exact .nil s
  | cons e es ih =>
    obtain ⟨hintact, hrest⟩ := Bool.and_eq_true_iff.mp h
    exact .cons ⟨appendsToIntact_of_findsIntact hintact, rfl⟩ (ih hrest)

theorem free_run (s : RecordLogState) (es : List RecordLogEvent) :
    Run RecordLogState.step s es (es.foldl RecordLogState.after s) := by
  induction es generalizing s with
  | nil => exact .nil s
  | cons e es ih => exact .cons rfl (ih _)

/-- What a reader gets after a run. -/
def recordsAfter (es : List RecordLogEvent) : Option (List Bytes) :=
  (readRecords "records.fxr" (es.foldl RecordLogState.after {}).file).toOption.map (·.records)

end Sample

open Sample in
theorem acknowledged_records_read_sample : ∃ es s,
    Run (Guarded (RecordLogState.appendsToIntact "records.fxr") RecordLogState.step) {} es s ∧ s.WithinLimits ∧
      ∃ report, readRecords "records.fxr" s.file = .ok report ∧ s.acked.Sublist report.records := by
  have hrun : Run (Guarded (RecordLogState.appendsToIntact "records.fxr") RecordLogState.step) {} wholeThenAppended
      (wholeThenAppended.foldl RecordLogState.after {}) := run_of_passes (by decide +kernel)
  have hlimits : (wholeThenAppended.foldl RecordLogState.after {}).WithinLimits := ⟨by decide +kernel, by decide +kernel⟩
  exact ⟨_, _, hrun, hlimits, acknowledged_records_read hrun hlimits⟩

open Sample in
/-- The record that was appended behind the torn one is acknowledged and never read. -/
theorem torn_tail_hides_append : ∃ es s report, Run RecordLogState.step {} es s ∧ s.WithinLimits ∧
    readRecords "records.fxr" s.file = .ok report ∧ ¬ s.acked.Sublist report.records := by
  have hlimits : (tornThenAppended.foldl RecordLogState.after {}).WithinLimits := ⟨by decide +kernel, by decide +kernel⟩
  obtain ⟨report, hread, -⟩ := RecordLogState.readRecords_of_withinLimits hlimits "records.fxr"
  refine ⟨_, _, report, free_run {} tornThenAppended, hlimits, hread, ?_⟩
  have hrecords : recordsAfter tornThenAppended = some ["first".toList] := by decide +kernel
  have hacked : (tornThenAppended.foldl RecordLogState.after {}).acked = ["first".toList, "third".toList] := by decide +kernel
  rw [recordsAfter, hread] at hrecords
  rw [hacked, show report.records = ["first".toList] from Option.some.inj hrecords]
  decide

end FabricEvolution
