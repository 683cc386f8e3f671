import FabricEvolution.Node.Shipping
import FabricEvolution.Node.Writes

/-!
# Reading the log

* `Contiguous` : the records run on, up to the log position; `filter_range'` : what is left of such positions behind one;
* `Serves` : an answer without the flag holds the next records, and an answer that misses the next record has it;
* `readSince_contract_iff` : the answers serve exactly if the log is not empty and, for a read from the start, begins there.
-/

namespace FabricEvolution
open Lib

/-- The positions behind `a` of those from `s` on. -/
theorem filter_range' (a s n : Nat) : (List.range' s n).filter (a < ·) = List.range' (max s (a + 1)) (s + n - max s (a + 1)) := by
  induction n generalizing s with
  | zero =>
    have hnone : s + 0 - max s (a + 1) = 0 := by omega
    rw [hnone]
    rfl
  | succ n ih =>
    rw [List.range'_succ, List.filter_cons, ih]
    by_cases hbehind : a < s
    · rw [if_pos (decide_eq_true hbehind), max_eq_left (by omega : a + 1 ≤ s), max_eq_left (by omega : a + 1 ≤ s + 1),
        Nat.add_sub_cancel_left, Nat.add_sub_cancel_left, List.range'_succ]
    · rw [if_neg (by simpa using hbehind), max_eq_right (by omega : s ≤ a + 1), max_eq_right (by omega : s + 1 ≤ a + 1),
        show s + (n + 1) = s + 1 + n by omega]

namespace NodeState

/-- The records run on, and the last of them is at the log position. -/
def Contiguous (node : NodeState) : Prop :=
  ∃ first, node.records.map (·.lsn) = List.range' first node.records.length ∧
    (node.records ≠ [] → first + node.records.length = node.lsn + 1)

/-- Without the flag an answer holds the records behind `fromLsn`, up to the limit or the log position, in their order;
where the next record is not retained, the flag is set. -/
structure Serves (node : NodeState) (fromLsn limit : Nat) (records : List ReplicationRecord) (truncated : Bool) : Prop where
  complete : truncated = false → records.Sublist node.records ∧
    records.map (·.lsn) = List.range' (fromLsn + 1) (min (fromLsn + limit) node.lsn - fromLsn)
  flagged : fromLsn < node.lsn → (∀ record ∈ node.records, record.lsn ≠ fromLsn + 1) → truncated = true

/-- A read from below the log position finds records, and from 0 it finds the first. -/
def ReachesBack (node : NodeState) (fromLsn : Nat) : Prop :=
  fromLsn < node.lsn → node.records ≠ [] ∧ (fromLsn = 0 → ∃ record ∈ node.records, record.lsn = 1)

variable {options : NodeOptions} {node : NodeState} {fromLsn maxRecords : Nat}

/-- The positions of a batch. -/
theorem lsns_batch {first : Nat} (h : node.records.map (·.lsn) = List.range' first node.records.length) :
    (batch options node fromLsn maxRecords).map (·.lsn) = List.range' (max first (fromLsn + 1))
      (min (min maxRecords options.maxRecordsPerResponse) (first + node.records.length - max first (fromLsn + 1))) := by
  have hfilter : (node.records.filter (fromLsn < ·.lsn)).map (·.lsn) =
      List.range' (max first (fromLsn + 1)) (first + node.records.length - max first (fromLsn + 1)) := by
    rw [← filter_range', ← h, List.filter_map]
    rfl
  rw [batch, List.map_take, hfilter]
  generalize max first (fromLsn + 1) = start
  generalize first + node.records.length - start = count
  rcases Nat.le_total count (min maxRecords options.maxRecordsPerResponse) with hle | hle
  · rw [List.take_range'_of_length_le hle, min_eq_right hle]
  · rw [List.take_range'_of_length_ge hle, min_eq_left hle]

theorem mem_lsns {first lsn : Nat} (h : node.records.map (·.lsn) = List.range' first node.records.length) :
    (∃ record ∈ node.records, record.lsn = lsn) ↔ first ≤ lsn ∧ lsn < first + node.records.length := by
  rw [← List.mem_range'_1, ← h, List.mem_map]

theorem oldestLsn_eq {first : Nat} (h : node.records.map (·.lsn) = List.range' first node.records.length)
    (hne : node.records ≠ []) : node.oldestLsn = first := by
  unfold oldestLsn
  cases hrecords : node.records with
  | nil => exact absurd hrecords hne
  | cons record rest =>
    rw [hrecords, List.map_cons, List.length_cons, List.range'_succ] at h
    exact (List.cons.inj h).1

/-- On a log that is not empty, the flag of a read behind a position other than 0 says that the log begins later. -/
theorem logTruncated_iff {first : Nat} (h : node.records.map (·.lsn) = List.range' first node.records.length)
    (hne : node.records ≠ []) : node.logTruncated fromLsn = true ↔ fromLsn ≠ 0 ∧ fromLsn + 1 < first := by
  have hnonempty : node.records.isEmpty = false := by rw [List.isEmpty_eq_false_iff]; exact hne
  unfold logTruncated
  rw [oldestLsn_eq h hne, hnonempty]
  simp only [Bool.and_eq_true, decide_eq_true_eq, Bool.not_false, and_true]
  omega

theorem logTruncated_nil (h : node.records = []) : node.logTruncated fromLsn = false := by
  simp [logTruncated, h]

theorem serves_of_reachesBack (h : node.Contiguous) (hback : node.ReachesBack fromLsn) :
    node.Serves fromLsn (min maxRecords options.maxRecordsPerResponse) (batch options node fromLsn maxRecords)
      (node.logTruncated fromLsn) := by
  obtain ⟨first, hlsns, hend⟩ := h
  have hfirst : fromLsn < node.lsn → node.records ≠ [] ∧ first + node.records.length = node.lsn + 1 ∧
      (fromLsn = 0 → first ≤ 1) := by
    intro hbelow
    obtain ⟨hne, hstart⟩ := hback hbelow
    exact ⟨hne, hend hne, fun hzero => ((mem_lsns hlsns).1 (hstart hzero)).1⟩
  refine ⟨fun hflag => ⟨(List.take_sublist _ _).trans List.filter_sublist, ?_⟩, fun hbelow hmissing => ?_⟩
  · rw [lsns_batch hlsns]
    by_cases hbelow : fromLsn < node.lsn
    · obtain ⟨hne, hlast, hzero⟩ := hfirst hbelow
      have hreaches : first ≤ fromLsn + 1 := by
        have hunset := mt (logTruncated_iff hlsns hne).2 (by rw [hflag]; nofun)
        omega
      rw [max_eq_right hreaches, hlast]
      congr 1
      omega
    · have hempty : first + node.records.length - max first (fromLsn + 1) = 0 := by
        by_cases hne : node.records = []
        · rw [hne, List.length_nil]
          omega
        · have hlast := hend hne
          omega
      have hnone : min (fromLsn + min maxRecords options.maxRecordsPerResponse) node.lsn - fromLsn = 0 := by omega
      rw [hempty, hnone, Nat.min_zero]
      rfl
  · obtain ⟨hne, hlast, hzero⟩ := hfirst hbelow
    have hbehind : ¬ (first ≤ fromLsn + 1 ∧ fromLsn + 1 < first + node.records.length) := by
      rw [← mem_lsns hlsns]
      rintro ⟨record, hmem, hlsn⟩
      exact hmissing record hmem hlsn
    rw [logTruncated_iff hlsns hne]
    omega

/-- The flag is never set on an empty log, nor for a read from 0. -/
theorem not_serves {limit : Nat} {records : List ReplicationRecord} (hback : ¬ node.ReachesBack fromLsn) :
    ¬ node.Serves fromLsn limit records (node.logTruncated fromLsn) := by
  intro hserves
  obtain ⟨hbelow, hback⟩ := Classical.not_imp.1 hback
  by_cases hnil : node.records = []
  · have hflag := hserves.flagged hbelow (by rw [hnil]; nofun)
    rw [logTruncated_nil hnil] at hflag
    cases hflag
  · obtain ⟨hzero, hstart⟩ := Classical.not_imp.1 (not_and.1 hback hnil)
    have hflag := hserves.flagged hbelow fun record hmem hlsn => hstart ⟨record, hmem, by rw [hlsn, hzero]⟩
    rw [hzero] at hflag
    simp [logTruncated] at hflag

end NodeState

/-- For every node whose records run on to its log position, every position and limit: the answers of a read serve its
reader exactly if the read ends at an armed fault, or the log reaches back as far as it asks. -/
theorem readSince_contract_iff (options : NodeOptions) (digestOf : Json → Digest) (node : NodeState) (fromLsn : Nat)
    (maxRecords : Option Nat) (h : node.Contiguous) :
    (∀ io nowMs laterMs records lsn oldestLsn truncated,
      (node.handle options digestOf io nowMs laterMs (.readSince (some fromLsn) maxRecords)).2.1 =
        .ok (.records records lsn oldestLsn truncated) →
      node.Serves fromLsn (min (maxRecords.getD 128) options.maxRecordsPerResponse) records truncated) ↔
    ((node.takeFault "node.read_since").2 ≠ some "error" → node.ReachesBack fromLsn) := by
  have hanswer : ∀ io nowMs laterMs, (node.takeFault "node.read_since").2 ≠ some "error" →
      (node.handle options digestOf io nowMs laterMs (.readSince (some fromLsn) maxRecords)).2.1 =
        .ok (.records (node.batch options fromLsn (maxRecords.getD 128)) node.lsn node.oldestLsn
          (node.logTruncated fromLsn)) := by
    intro io nowMs laterMs hfault
    obtain ⟨faults, ⟨herror, -, -⟩ | ⟨-, -, hanswer⟩⟩ := NodeState.handle_faults options digestOf node io nowMs laterMs
      (.readSince (some fromLsn) maxRecords)
    · exact absurd herror hfault
    · rw [hanswer]
      rfl
  constructor
  · intro hserves hfault
    by_contra hback
    exact NodeState.not_serves hback (hserves {} 0 0 _ _ _ _ (hanswer {} 0 0 hfault))
  · intro hback io nowMs laterMs records lsn oldestLsn truncated hread
    by_cases hfault : (node.takeFault "node.read_since").2 = some "error"
    · obtain ⟨faults, ⟨-, -, refusal, hrefused⟩ | ⟨hno, -, -⟩⟩ := NodeState.handle_faults options digestOf node io nowMs
        laterMs (.readSince (some fromLsn) maxRecords)
      · cases hrefused.symm.trans hread
      · exact absurd hfault hno
    · cases (hanswer io nowMs laterMs hfault).symm.trans hread
      exact NodeState.serves_of_reachesBack h (hback hfault)

namespace Sample

def shortLog : NodeOptions := { nodeOptions with maxLogRecords := 2 }

/-- After three writes the log has been cut down to the last. -/
def compactedNode : NodeState :=
  grantedNode.afterLives shortLog (fun _ => .zero) (List.replicate 3 (.request (.write writeBody) 1 1 {}))

theorem contiguous_compactedNode : compactedNode.Contiguous := ⟨3, by decide +kernel⟩

end Sample

open Sample in
/-- A read behind position 1 is answered with the rest of the log, and with the flag. -/
theorem readSince_contract_compacted : compactedNode.Contiguous ∧ compactedNode.Serves 1 5 compactedNode.records true := by
  have hreaches : compactedNode.ReachesBack 1 := fun _ => ⟨by decide +kernel, nofun⟩
  have hserves := (readSince_contract_iff shortLog (fun _ => .zero) compactedNode 1 (some 5) contiguous_compactedNode).2
    fun _ => hreaches
  exact ⟨contiguous_compactedNode, hserves {} 1 1 _ _ _ _ rfl⟩

open Sample in
/-- A read from the start is answered with the third record and without the flag. -/
theorem skipped_records_unflagged : ¬ ∀ (options : NodeOptions) (digestOf : Json → Digest) (node : NodeState)
    (fromLsn maxRecords : Nat),
    node.Contiguous → 0 < maxRecords → ∀ io nowMs laterMs records lsn oldestLsn truncated,
      (node.handle options digestOf io nowMs laterMs (.readSince (some fromLsn) (some maxRecords))).2.1 =
        .ok (.records records lsn oldestLsn truncated) →
      node.Serves fromLsn (min maxRecords options.maxRecordsPerResponse) records truncated := by
  intro hall
  have hserves := hall shortLog (fun _ => .zero) compactedNode 0 5 contiguous_compactedNode (by decide) {} 1 1 _ _ _ _ rfl
  have hlsns : compactedNode.records.map (·.lsn) = [3] := by decide +kernel
  have hflag := hserves.flagged (by decide +kernel) fun record hmem hlsn => by
    have hmember := List.mem_map_of_mem (f := (·.lsn)) hmem
    rw [hlsns, hlsn] at hmember
    cases List.mem_singleton.1 hmember
  cases hflag

end FabricEvolution
