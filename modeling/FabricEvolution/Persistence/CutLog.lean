import FabricEvolution.Persistence.RecordLog

/-!
# Logs that are cut off anywhere

* `appendRecords` : the log that a list of payloads makes, one append after another;
* `readRecord_torn` : a part of a record reads as a truncated one;
* `HoldsWhole`, `CutsInside` : the payloads that a prefix of a log wholly holds, and whether it ends inside a record;
* `readRecords_prefix` : what a reader finds in a prefix of a log.
-/

namespace FabricEvolution
open Lib

/-- The appends of a list of payloads. -/
def appendRecords (file : Option Bytes) : List Bytes → Result (Option Bytes)
  | [] => .ok file
  | payload :: payloads => do
    let file ← appendRecord file payload
    appendRecords (some file) payloads

theorem appendRecords_eq {payloads : List Bytes} (h : ∀ payload ∈ payloads, payload.length ≤ maxRecordBytes)
    (file : Option Bytes) : ∃ file', appendRecords file payloads = .ok file' ∧
      file'.getD [] = file.getD [] ++ payloads.flatMap encodeRecord := by
  induction payloads generalizing file with
  | nil => exact ⟨file, rfl, by rw [List.flatMap_nil, List.append_nil]⟩
  | cons payload payloads ih =>
    have happend : appendRecord file payload = .ok (file.getD [] ++ encodeRecord payload) :=
      if_neg (Nat.not_lt.mpr (h payload List.mem_cons_self))
    obtain ⟨file', hfile', hcontents⟩ := ih (fun p hp => h p (List.mem_cons_of_mem payload hp))
      (some (file.getD [] ++ encodeRecord payload))
    refine ⟨file', ?_, ?_⟩
    · rw [appendRecords, happend]
      exact hfile'
    · rw [hcontents, Option.getD_some, List.flatMap_cons, List.append_assoc]

/-! ## A part of a record -/

/-- A part of a record is found to be cut off: its header is, or its payload. -/
theorem readRecord_torn {payload part : Bytes} (h : payload.length ≤ maxRecordBytes) (hcutOff : part <+: encodeRecord payload)
    (hshort : part.length < (encodeRecord payload).length) :
    ∃ why, readRecord part = .stop why ∧ why.truncated = true := by
  have hread := readRecord_encode payload [] h
  rw [List.append_nil] at hread
  obtain ⟨-, -, hmagic, hversion, hlength, -, -⟩ := readRecord_eq_record hread
  have hheader : recordHeaderBytes = 24 := rfl
  have hsize : (encodeRecord payload).length = 24 + payload.length := by
    rw [encodeRecord, List.length_append, length_recordHeader, hheader]
  by_cases hcut : part.length < recordHeaderBytes
  · unfold readRecord
    rw [if_pos hcut]
    exact ⟨_, rfl, rfl⟩
  · -- The header is whole, so its fields are those of the record.
    obtain ⟨rest, hrest⟩ := hcutOff
    have hfield : ∀ n k, n + k ≤ 24 → (part.drop n).take k = ((encodeRecord payload).drop n).take k := by
      intro n k hnk
      rw [← hrest, List.drop_append_of_le_length (by omega), List.take_append_of_le_length (by rw [List.length_drop]; omega)]
    have hmagic' := hfield 0 4 (by omega)
    rw [List.drop_zero, List.drop_zero] at hmagic'
    unfold readRecord
    rw [if_neg hcut, if_neg (by rw [hmagic', hmagic]; simp), hfield 4 4 (by omega), hversion, if_neg (by simp),
      hfield 8 8 (by omega), hlength]
    dsimp only
    rw [if_neg (by omega), if_pos (by omega)]
    exact ⟨_, rfl, rfl⟩

/-! ## The prefix law -/

/-- `whole` are the payloads from the front of which the log holds every byte. -/
structure HoldsWhole (payloads : List Bytes) (log : Bytes) (whole : List Bytes) : Prop where
  front : whole <+: payloads
  inside : whole.flatMap encodeRecord <+: log
  next : ∀ payload, whole ++ [payload] <+: payloads → ¬ (whole ++ [payload]).flatMap encodeRecord <+: log

/-- The log ends strictly inside the record of some payload. -/
def CutsInside (payloads : List Bytes) (log : Bytes) : Prop := ∃ front payload, front ++ [payload] <+: payloads ∧
  (front.flatMap encodeRecord).length < log.length ∧ log.length < ((front ++ [payload]).flatMap encodeRecord).length

theorem length_flatMap_encodeRecord_mono {front payloads : List Bytes} (h : front <+: payloads) :
    (front.flatMap encodeRecord).length ≤ (payloads.flatMap encodeRecord).length := by
  obtain ⟨rest, rfl⟩ := h
  rw [List.flatMap_append, List.length_append]
  omega

/-- A log that ends where a record does ends inside none. -/
theorem not_cutsInside {payloads whole : List Bytes} (h : whole <+: payloads) :
    ¬ CutsInside payloads (whole.flatMap encodeRecord) := by
  rintro ⟨front, payload, hfront, hafter, hbefore⟩
  rcases List.prefix_or_prefix_of_prefix h ((List.prefix_append front [payload]).trans hfront) with hle | hge
  · have := length_flatMap_encodeRecord_mono hle
    omega
  · -- The payload that is cut is one of those that are whole.
    rcases List.prefix_or_prefix_of_prefix h hfront with hle | hge'
    · rw [List.prefix_concat_iff] at hle
      rcases hle with rfl | hle
      · omega
      · have := length_flatMap_encodeRecord_mono hle
        omega
    · have := length_flatMap_encodeRecord_mono hge'
      omega

/-- A reader finds in a prefix of a log exactly the payloads that it wholly holds, in order; it reports a truncated log exactly
when the prefix ends strictly inside a record, and a damaged one never. -/
theorem readRecords_prefix {path : String} {payloads : List Bytes} {file : Option Bytes} {log : Bytes}
    (hsize : ∀ payload ∈ payloads, payload.length ≤ maxRecordBytes) (hfile : appendRecords none payloads = .ok file)
    (hbytes : (file.getD []).length ≤ maxIntegrityPayloadBytes + integrityHeaderBytes) (hcount : payloads.length ≤ maxLogRecords)
    (hcutOff : log <+: file.getD []) : ∃ report, readRecords path (some log) = .ok report ∧
      HoldsWhole payloads log report.records ∧ (report.truncated = true ↔ CutsInside payloads log) ∧ report.damaged = false := by
  obtain ⟨file', hfile', hcontents⟩ := appendRecords_eq hsize none
  rw [hfile] at hfile'
  cases hfile'
  rw [Option.getD_none, List.nil_append] at hcontents
  have hlog : log.length ≤ maxIntegrityPayloadBytes + integrityHeaderBytes := hcutOff.length_le.trans hbytes
  rw [hcontents] at hcutOff
  have hread : readRecords path (some log) = scanReport path (scan readRecord maxLogRecords log) := by
    simp only [readRecords, readBinaryFile, if_neg (Nat.not_lt.mpr hlog)]
    rfl
  obtain ⟨whole, hcut⟩ := exists_cut hcutOff
  have hscan := recordFrames.scan_cut (fun payload part hvalid _ hpart hshort => readRecord_torn hvalid hpart hshort) hsize
    hcount hcut
  rcases hscan with ⟨hends, hscan⟩ | ⟨payload, why, left, hnext, hafter, hbefore, hscan, htorn⟩
  · have hwhole : whole <+: payloads := by
      cases hcut with
      | between hwhole _ => exact hwhole
      | inside _ _ hwhole _ _ _ _ => exact (List.prefix_append _ _).trans hwhole
    refine ⟨{ records := whole, totalRecords := whole.length }, ?_, ⟨hwhole, hends ▸ List.prefix_refl _, ?_⟩, ?_, rfl⟩
    · rw [hread, hscan]
      rfl
    · intro payload _ hmore
      have hlength : ((whole ++ [payload]).flatMap encodeRecord).length ≤ log.length := hmore.length_le
      rw [hends, List.flatMap_append, List.flatMap_singleton, List.length_append] at hlength
      have hpos := List.length_pos_iff.mpr (recordFrames.encode_ne_nil payload)
      omega
    · rw [hends]
      constructor
      · intro hfalse
        cases hfalse
      · intro hinside
        exact absurd hinside (not_cutsInside hwhole)
  · have hfront : whole <+: payloads := (List.prefix_append _ _).trans hnext
    have hinside : whole.flatMap encodeRecord <+: log := by
      cases hcut with
      | between _ hlog' => exact hlog' ▸ List.prefix_refl _
      | inside _ part _ hlog' _ _ _ => exact hlog' ▸ List.prefix_append _ part
    refine ⟨{ records := whole, totalRecords := whole.length, damagedTailBytes := left, truncated := why.truncated,
              damaged := !why.truncated, diagnostic := why.diagnostic }, ?_, ⟨hfront, hinside, ?_⟩, ?_, ?_⟩
    · rw [hread, hscan]
      rfl
    · -- Only one payload comes next, and the log ends inside its record.
      intro payload' hnext' hmore
      have hsame : whole ++ [payload'] = whole ++ [payload] := by
        rcases List.prefix_or_prefix_of_prefix hnext' hnext with hle | hge
        · exact hle.eq_of_length (by simp)
        · exact (hge.eq_of_length (by simp)).symm
      have hlength : ((whole ++ [payload']).flatMap encodeRecord).length ≤ log.length := hmore.length_le
      rw [hsame] at hlength
      omega
    · exact ⟨fun _ => ⟨whole, payload, hnext, hafter, hbefore⟩, fun _ => htorn⟩
    · show (!why.truncated) = false
      rw [htorn]
      rfl

theorem readRecords_prefix_sample : ∃ file log report, appendRecords none ["ab".toList, "c".toList] = .ok file ∧
    log <+: file.getD [] ∧ readRecords "records.fxr" (some log) = .ok report ∧ HoldsWhole ["ab".toList, "c".toList] log report.records ∧
      (report.truncated = true ↔ CutsInside ["ab".toList, "c".toList] log) ∧ report.damaged = false := by
  have hsize : ∀ payload ∈ ["ab".toList, "c".toList], payload.length ≤ maxRecordBytes := by decide
  obtain ⟨file, hfile, hcontents⟩ := appendRecords_eq hsize none
  have hbytes : (file.getD []).length ≤ maxIntegrityPayloadBytes + integrityHeaderBytes := by
    rw [hcontents]
    decide +kernel
  obtain ⟨report, hread⟩ := readRecords_prefix hsize hfile hbytes (by decide) (List.take_prefix 40 _)
  exact ⟨file, _, report, hfile, List.take_prefix 40 _, hread⟩

end FabricEvolution
