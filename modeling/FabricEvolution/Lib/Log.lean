import Mathlib

/-!
# Logs of self-delimiting records

A log is a list of symbols; a reader takes a record off its front or stops.

* `scan` : every record from the front of a log, at most `limit` of them, and how the scan ended;
* `LawfulFrames` : the reader takes off what was encoded, and does not change its mind about a record when the log grows;
* `scan_append`, `scan_prefix` : what a scan says of a log that has grown;
* `scan_flatMap`, `scan_overfull`, `scan_cut` : what a scan says of a whole log, of one with too many records, and of one that
  was cut off anywhere.
-/

namespace FabricEvolution.Lib

/-- What stands at the front of a log. -/
inductive Front (α β ε : Type) where
  | record (a : α) (rest : List β)
  | stop (why : ε)

inductive ScanEnd (ε : Type) where
  /-- The log was read to its end. -/
  | finished
  /-- No record stands at the front of what is left. -/
  | stopped (why : ε) (left : Nat)
  /-- There are more records than the limit. -/
  | overfull
deriving DecidableEq

variable {α β ε : Type}

/-- The records from the front of a log, at most `limit` of them. -/
def scan (read : List β → Front α β ε) (limit : Nat) (log : List β) : List α × ScanEnd ε :=
  match log, limit with
  | [], _ => ([], .finished)
  | _ :: _, 0 => ([], .overfull)
  | b :: log, limit + 1 =>
    match read (b :: log) with
    | .record a rest => ((a :: (scan read limit rest).1), (scan read limit rest).2)
    | .stop why => ([], .stopped why (b :: log).length)

/-- A reader for what `encode` writes. -/
structure LawfulFrames (encode : α → List β) (read : List β → Front α β ε) (Valid : α → Prop) : Prop where
  encode_ne_nil : ∀ a, encode a ≠ []
  read_encode : ∀ a rest, Valid a → read (encode a ++ rest) = .record a rest
  read_append : ∀ log a rest more, read log = .record a rest → read (log ++ more) = .record a (rest ++ more)

section
variable {encode : α → List β} {read : List β → Front α β ε} {Valid : α → Prop} {limit : Nat} {log more : List β}

@[simp] theorem scan_nil : scan read limit [] = ([], .finished) := by
  unfold scan
  rfl

theorem scan_succ (hlog : log ≠ []) : scan read (limit + 1) log =
    match read log with
    | .record a rest => ((a :: (scan read limit rest).1), (scan read limit rest).2)
    | .stop why => ([], .stopped why log.length) := by
  cases log with
  | nil => exact absurd rfl hlog
  | cons b log => rfl

theorem scan_zero (hlog : log ≠ []) : scan read 0 log = ([], .overfull) := by
  cases log with
  | nil => exact absurd rfl hlog
  | cons b log => rfl

namespace LawfulFrames
variable (h : LawfulFrames encode read Valid)
include h

/-- A log that is read to its end is read so when more is appended; what was appended is read next. -/
theorem scan_append (hend : (scan read limit log).2 = .finished) : scan read limit (log ++ more) =
    ((scan read limit log).1 ++ (scan read (limit - (scan read limit log).1.length) more).1,
      (scan read (limit - (scan read limit log).1.length) more).2) := by
  induction limit generalizing log with
  | zero =>
    by_cases hlog : log = []
    · simp [hlog]
    · rw [scan_zero hlog] at hend
      cases hend
  | succ limit ih =>
    by_cases hlog : log = []
    · simp [hlog]
    · have hmore : log ++ more ≠ [] := by simp [hlog]
      rw [scan_succ hlog] at hend ⊢
      rw [scan_succ hmore]
      cases hread : read log with
      | stop why =>
        rw [hread] at hend
        cases hend
      | record a rest =>
        rw [hread] at hend
        rw [h.read_append _ _ _ more hread]
        simp only [ih hend, List.cons_append, List.length_cons, Nat.succ_sub_succ]

/-- Unless the limit is met, a longer log has the records of the shorter one. -/
theorem scan_prefix (hend : (scan read limit (log ++ more)).2 ≠ .overfull) :
    (scan read limit log).2 ≠ .overfull ∧ (scan read limit log).1 <+: (scan read limit (log ++ more)).1 := by
  induction limit generalizing log with
  | zero =>
    by_cases hlog : log = []
    · simp [hlog]
    · exact absurd (by rw [scan_zero (by simp [hlog])]) hend
  | succ limit ih =>
    by_cases hlog : log = []
    · simp [hlog]
    · have hmore : log ++ more ≠ [] := by simp [hlog]
      rw [scan_succ hmore] at hend ⊢
      rw [scan_succ hlog]
      cases hread : read log with
      | stop why => exact ⟨by simp, List.nil_prefix⟩
      | record a rest =>
        rw [h.read_append _ _ _ more hread] at hend ⊢
        obtain ⟨hne, hcutOff⟩ := ih hend
        exact ⟨hne, (List.prefix_cons_inj a).mpr hcutOff⟩

theorem scan_encode {a : α} (ha : Valid a) : scan read (limit + 1) (encode a) = ([a], .finished) := by
  have hread := h.read_encode a [] ha
  rw [List.append_nil] at hread
  rw [scan_succ (h.encode_ne_nil a), hread]
  simp

end LawfulFrames

end

/-- What a scan returned it returns when one more record is appended to a log that was read to its end, and that record
too. -/
theorem LawfulFrames.sublist_scan_append {encode : α → List β} {read : List β → Front α β ε} {Valid : α → Prop} {limit : Nat}
    {log : List β} {as : List α} {a : α} (h : LawfulFrames encode read Valid) (has : as.Sublist (scan read limit log).1)
    (hend : (scan read limit log).2 = .finished) (ha : Valid a) (hlimit : (scan read limit (log ++ encode a)).2 ≠ .overfull) :
    (as ++ [a]).Sublist (scan read limit (log ++ encode a)).1 := by
  rw [h.scan_append hend] at hlimit ⊢
  -- The limit leaves room for one more record.
  obtain ⟨room, hroom⟩ : ∃ room, limit - (scan read limit log).1.length = room + 1 := by
    cases hroom : limit - (scan read limit log).1.length with
    | zero =>
      rw [hroom, scan_zero (h.encode_ne_nil a)] at hlimit
      exact absurd rfl hlimit
    | succ room => exact ⟨room, rfl⟩
  rw [hroom, h.scan_encode ha]
  exact has.append (List.Sublist.refl [a])

/-! ## Logs that are cut off -/

/-- A log that is cut off holds some records as a whole, and then nothing or a part of the next. -/
inductive Cut (encode : α → List β) (as : List α) (log : List β) (whole : List α) : Prop where
  | between (hwhole : whole <+: as) (hlog : log = whole.flatMap encode)
  | inside (a : α) (part : List β) (hwhole : whole ++ [a] <+: as) (hlog : log = whole.flatMap encode ++ part) (hpart : part ≠ [])
      (hcutOff : part <+: encode a) (hshort : part.length < (encode a).length)

theorem exists_cut {encode : α → List β} {as : List α} {log : List β} (h : log <+: as.flatMap encode) :
    ∃ whole, Cut encode as log whole := by
  induction as generalizing log with
  | nil => exact ⟨[], .between (List.prefix_refl []) (List.prefix_nil.mp h)⟩
  | cons a as ih =>
    rw [List.flatMap_cons] at h
    rcases List.prefix_or_prefix_of_prefix h (List.prefix_append (encode a) _) with hpart | ⟨rest, rfl⟩
    · by_cases hnil : log = []
      · exact ⟨[], .between List.nil_prefix hnil⟩
      · by_cases hshort : log.length < (encode a).length
        · exact ⟨[], .inside a log ((List.prefix_cons_inj a).mpr List.nil_prefix) rfl hnil hpart hshort⟩
        · have hall : log = encode a := hpart.eq_of_length_le (by omega)
          refine ⟨[a], .between ((List.prefix_cons_inj a).mpr List.nil_prefix) ?_⟩
          rw [hall, List.flatMap_singleton]
    · obtain ⟨whole, hcut⟩ := ih ((List.prefix_append_right_inj (encode a)).mp h)
      refine ⟨a :: whole, ?_⟩
      cases hcut with
      | between hwhole hlog =>
        refine .between ((List.prefix_cons_inj a).mpr hwhole) ?_
        rw [hlog, List.flatMap_cons]
      | inside b part hwhole hlog hpart hcutOff hshort =>
        refine .inside b part ((List.prefix_cons_inj a).mpr hwhole) ?_ hpart hcutOff hshort
        rw [hlog, List.flatMap_cons, List.append_assoc]

section
variable {encode : α → List β} {read : List β → Front α β ε} {Valid : α → Prop} {limit : Nat} {as : List α} {log : List β}

theorem LawfulFrames.scan_flatMap_append (h : LawfulFrames encode read Valid) (hvalid : ∀ a ∈ as, Valid a)
    (hlimit : as.length ≤ limit) (more : List β) : scan read limit (as.flatMap encode ++ more) =
      (as ++ (scan read (limit - as.length) more).1, (scan read (limit - as.length) more).2) := by
  induction as generalizing limit with
  | nil => rfl
  | cons a as ih =>
    obtain ⟨limit, rfl⟩ : ∃ n, limit = n + 1 := ⟨limit - 1, by rw [List.length_cons] at hlimit; omega⟩
    rw [List.length_cons] at hlimit
    have hne : (a :: as).flatMap encode ++ more ≠ [] := by simp [h.encode_ne_nil a]
    have hread : read ((a :: as).flatMap encode ++ more) = .record a (as.flatMap encode ++ more) := by
      rw [List.flatMap_cons, List.append_assoc]
      exact h.read_encode a _ (hvalid a List.mem_cons_self)
    rw [scan_succ hne, hread, List.length_cons, Nat.succ_sub_succ]
    dsimp only
    rw [ih (fun b hb => hvalid b (List.mem_cons_of_mem a hb)) (by omega)]
    rfl

theorem LawfulFrames.scan_flatMap (h : LawfulFrames encode read Valid) (hvalid : ∀ a ∈ as, Valid a) (hlimit : as.length ≤ limit) :
    scan read limit (as.flatMap encode) = (as, .finished) := by
  have hscan := h.scan_flatMap_append hvalid hlimit []
  rw [List.append_nil, scan_nil, List.append_nil] at hscan
  exact hscan

theorem LawfulFrames.scan_overfull (h : LawfulFrames encode read Valid) (hvalid : ∀ a ∈ as, Valid a) (hlimit : limit < as.length) :
    (scan read limit (as.flatMap encode)).2 = .overfull := by
  obtain ⟨a, rest, hdrop⟩ : ∃ a rest, as.drop limit = a :: rest := by
    apply List.exists_cons_of_ne_nil
    rw [Ne, List.drop_eq_nil_iff]
    omega
  have htake : (as.take limit).length = limit := by
    rw [List.length_take]
    omega
  have hscan := h.scan_flatMap_append (fun b hb => hvalid b (List.mem_of_mem_take hb)) htake.le ((as.drop limit).flatMap encode)
  have hne : (as.drop limit).flatMap encode ≠ [] := by
    rw [hdrop, List.flatMap_cons]
    exact List.append_ne_nil_of_left_ne_nil (h.encode_ne_nil a) _
  rw [← List.flatMap_append, List.take_append_drop, htake, Nat.sub_self, scan_zero hne] at hscan
  rw [hscan]

/-- The scan of a log that was cut off returns the records it holds as a whole, and finds out where the next is cut. -/
theorem LawfulFrames.scan_cut (h : LawfulFrames encode read Valid) {Torn : ε → Prop}
    (htorn : ∀ a part, Valid a → part ≠ [] → part <+: encode a → part.length < (encode a).length →
      ∃ why, read part = .stop why ∧ Torn why)
    (hvalid : ∀ a ∈ as, Valid a) (hlimit : as.length ≤ limit) {whole : List α} (hcut : Cut encode as log whole) :
    (log = whole.flatMap encode ∧ scan read limit log = (whole, .finished)) ∨
      (∃ a why left, whole ++ [a] <+: as ∧ (whole.flatMap encode).length < log.length ∧
        log.length < ((whole ++ [a]).flatMap encode).length ∧ scan read limit log = (whole, .stopped why left) ∧ Torn why) := by
  cases hcut with
  | between hwhole hlog =>
    have hshorter : whole.length ≤ limit := hwhole.length_le.trans hlimit
    exact .inl ⟨hlog, by rw [hlog, h.scan_flatMap (fun a ha => hvalid a (hwhole.subset ha)) hshorter]⟩
  | inside a part hwhole hlog hpart hcutOff hshort =>
    have hshorter : whole.length + 1 ≤ limit := by
      have hlength := hwhole.length_le
      rw [List.length_append, List.length_singleton] at hlength
      omega
    obtain ⟨why, hread, hwhy⟩ := htorn a part (hvalid a (hwhole.subset (by simp))) hpart hcutOff hshort
    have hscan := h.scan_flatMap_append (fun b hb => hvalid b (hwhole.subset (List.mem_append_left [a] hb)))
      (show whole.length ≤ limit by omega) part
    obtain ⟨room, hroom⟩ : ∃ room, limit - whole.length = room + 1 := ⟨limit - whole.length - 1, by omega⟩
    rw [hroom, scan_succ hpart, hread, List.append_nil] at hscan
    have hpos : 0 < part.length := List.length_pos_iff.mpr hpart
    refine .inr ⟨a, why, part.length, hwhole, ?_, ?_, ?_, hwhy⟩
    · rw [hlog, List.length_append]
      omega
    · rw [hlog, List.flatMap_append, List.flatMap_singleton, List.length_append, List.length_append]
      omega
    · rw [hlog, hscan]

end

end FabricEvolution.Lib
