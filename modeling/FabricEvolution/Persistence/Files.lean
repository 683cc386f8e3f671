import FabricEvolution.Lib.Program
import FabricEvolution.Persistence.Integrity

/-!
# File effects

* `Disk` : the files of a state directory, and which of them are not yet synced;
* `FileOp`, `FileOp.exec` : the effects of the durable writers and readers, and how they meet the disk: an effect succeeds, or
  fails having written a part;
* `Disk.Torn` : the files after a crash: what was not synced, or was being written, may hold anything;
* `FileProgram.readIntegrityFile`, `FileProgram.writeIntegrityFile` : the programs over them.
-/

namespace FabricEvolution
open Lib

/-- A file, its backup copy, and the temporary file a process writes before it installs it. -/
inductive FilePath where
  | main (name : String)
  | backup (name : String)
  | temporary (name : String) (process : Nat)
deriving DecidableEq

def FilePath.text : FilePath → String
  | main name => name
  | backup name => backupPath name
  | temporary name process => name ++ ".tmp-" ++ Nat.repr process

/-! ## The disk -/

abbrev Directory := FilePath → Option Bytes

structure Disk where
  files : Directory
  unsynced : FilePath → Bool

namespace Disk
variable (disk : Disk) (path : FilePath)

/-- A disk of which every file is synced. -/
def settled (files : Directory) : Disk := ⟨files, fun _ => false⟩

/-- Other contents for a file. -/
def put (contents : Option Bytes) (unsynced : Bool) : Disk :=
  ⟨fun other => if other = path then contents else disk.files other,
    fun other => if other = path then unsynced else disk.unsynced other⟩

@[simp] theorem files_put_same (contents : Option Bytes) (unsynced : Bool) : (disk.put path contents unsynced).files path = contents :=
  if_pos rfl

@[simp] theorem unsynced_put_same (contents : Option Bytes) (unsynced : Bool) :
    (disk.put path contents unsynced).unsynced path = unsynced := if_pos rfl

variable {disk path} {other : FilePath}

theorem files_put_other (h : other ≠ path) (contents : Option Bytes) (unsynced : Bool) :
    (disk.put path contents unsynced).files other = disk.files other := if_neg h

theorem unsynced_put_other (h : other ≠ path) (contents : Option Bytes) (unsynced : Bool) :
    (disk.put path contents unsynced).unsynced other = disk.unsynced other := if_neg h

end Disk

/-! ## Effects -/

/-- Where a file operation failed. -/
inductive IoStage where
  | opening | sizing | transferring | flushing | syncing | closing
deriving DecidableEq

/-- A failed file operation and the reason the operating system gives. -/
structure IoFault where
  stage : IoStage
  reason : String

inductive FileOp where
  | probe (path : FilePath)
  | read (path : FilePath)
  /-- An empty file, whatever was there. -/
  | create (path : FilePath)
  /-- Write to the end of a file. -/
  | write (path : FilePath) (bytes : Bytes)
  /-- Flush, sync and close. -/
  | sync (path : FilePath)
  /-- A copy that overwrites its target. -/
  | copy (source target : FilePath)
  | rename (source target : FilePath)
  | remove (path : FilePath)

namespace FileOp

abbrev Value : FileOp → Type
  | probe _ => Bool
  | read _ => Bytes
  | _ => Unit

abbrev Answer (o : FileOp) : Type := Except IoFault o.Value

/-- The files an effect may change; a rename changes both at once. -/
def touches : FileOp → List FilePath
  | create path | write path _ | sync path | copy _ path | remove path => [path]
  | rename source target => [source, target]
  | _ => []

/-- The files that a crash may leave in any state while the effect is on its way. -/
def tears : FileOp → List FilePath
  | create path | write path _ | sync path | copy _ path | remove path => [path]
  | _ => []

end FileOp

/-- How the operating system answers; a failed write or copy leaves the first `written` bytes, where it wrote at all. -/
inductive FileChoice where
  | done
  | failed (fault : IoFault) (written : Option Nat)

/-- What a failed effect leaves of the bytes it was to put behind others. -/
def Disk.part (disk : Disk) (path : FilePath) (before bytes : Bytes) : Option Nat → Disk
  | none => disk
  | some written => disk.put path (some (before ++ bytes.take written)) true

def FileOp.exec (o : FileOp) (choice : FileChoice) (disk : Disk) : o.Answer × Disk :=
  match o, choice with
  | probe path, .done => (.ok (disk.files path).isSome, disk)
  | read path, .done =>
    match disk.files path with
    | none => (.error ⟨.opening, "no such file"⟩, disk)
    | some contents => (.ok contents, disk)
  | create path, .done => (.ok (), disk.put path (some []) true)
  | write path bytes, .done => (.ok (), disk.put path (some ((disk.files path).getD [] ++ bytes)) true)
  | write path bytes, .failed fault written => (.error fault, disk.part path ((disk.files path).getD []) bytes written)
  | sync path, .done => (.ok (), disk.put path (disk.files path) false)
  | copy source target, .done =>
    match disk.files source with
    | none => (.error ⟨.opening, "no such file"⟩, disk)
    | some contents => (.ok (), disk.put target (some contents) true)
  | copy source target, .failed fault written => (.error fault, disk.part target [] ((disk.files source).getD []) written)
  | rename source target, .done =>
    match disk.files source with
    | none => (.error ⟨.opening, "no such file"⟩, disk)
    | some contents => (.ok (), (disk.put source none false).put target (some contents) (disk.unsynced source))
  | remove path, .done => (.ok (), disk.put path none false)
  | probe _, .failed fault _ | read _, .failed fault _ | create _, .failed fault _ | sync _, .failed fault _
  | rename _ _, .failed fault _ | remove _, .failed fault _ => (.error fault, disk)

theorem Disk.part_other {disk : Disk} {path other : FilePath} (h : other ≠ path) (before bytes : Bytes) (written : Option Nat) :
    (disk.part path before bytes written).files other = disk.files other ∧
      (disk.part path before bytes written).unsynced other = disk.unsynced other := by
  cases written with
  | none => exact ⟨rfl, rfl⟩
  | some written => exact ⟨files_put_other h _ _, unsynced_put_other h _ _⟩

/-- An effect changes no other file. -/
theorem FileOp.exec_other {o : FileOp} {path : FilePath} (h : path ∉ o.touches) (choice : FileChoice) (disk : Disk) :
    (o.exec choice disk).2.files path = disk.files path ∧ (o.exec choice disk).2.unsynced path = disk.unsynced path := by
  cases o <;> cases choice <;> simp only [touches, List.mem_cons, List.not_mem_nil, or_false, not_or] at h <;>
    simp only [exec, and_self] <;> (try split) <;>
    simp [Disk.files_put_other, Disk.unsynced_put_other, Disk.part_other, h]

/-- The files after a crash: those that are neither unsynced nor being written are as they were. -/
def Disk.Torn (disk : Disk) (written : List FilePath) (files : Directory) : Prop :=
  ∀ path, disk.unsynced path = false → path ∉ written → files path = disk.files path

/-! ## Programs -/

abbrev FileProgram (α : Type) := Eff Unit FileOp FileOp.Answer Status α

namespace FileProgram

/-- An effect whose failure is refused. -/
def demand (o : FileOp) (refuse : IoFault → Status) : FileProgram o.Value := do
  match ← Eff.perform o with
  | .ok value => pure value
  | .error fault => Eff.throw (refuse fault)

def ioFailure (message : String) (path : FilePath) : Status := ⟨.ioFailure, message, .ofPairs [("path", .string path.text)]⟩

/-- A failed existence check counts as absence. -/
def pathExists (path : FilePath) : FileProgram Bool := do
  match ← Eff.perform (.probe path) with
  | .ok found => pure found
  | .error _ => pure false

def readFault (path : FilePath) (fault : IoFault) : Status :=
  match fault.stage with
  | .opening => ioFailure "cannot open file for reading" path
  | .sizing => ioFailure "cannot determine file size" path
  | _ => ioFailure "failed to read file contents" path

def readIntegrityFile (path : FilePath) : FileProgram (Bytes × IntegrityFileInfo) := do
  let contents ← demand (.read path) (readFault path)
  Eff.lift (FabricEvolution.readIntegrityFile path.text (some contents))

def flushFault (path : FilePath) (fault : IoFault) : Status :=
  match fault.stage with
  | .flushing => ioFailure "failed to flush durable file" path
  | .syncing => ioFailure "failed to fsync durable file" path
  | _ => ioFailure "failed to close durable file" path

def replaceFile (source target : FilePath) : FileProgram Unit :=
  demand (.rename source target) fun fault => ⟨.ioFailure, "failed to install durable file",
    .ofPairs [("from", .string source.text), ("to", .string target.text), ("error", .string fault.reason)]⟩

/-- Contents written to a temporary file that then replaces the file; what is left of a failed attempt is removed. -/
def installFile (process : Nat) (name : String) (contents : Bytes) : FileProgram Unit := do
  let temporary : FilePath := .temporary name process
  demand (.create temporary) fun _ => ioFailure "cannot open temporary file for writing" temporary
  let attempt : FileProgram Unit := do
    demand (.write temporary contents) fun _ => ioFailure "failed to write durable file" temporary
    demand (.sync temporary) (flushFault temporary)
    replaceFile temporary (.main name)
  match ← Eff.attempt attempt with
  | .ok () => pure ()
  | .error refusal => do
    let _ ← Eff.perform (.remove temporary)
    Eff.throw refusal

/-- The digest of the payload that is replaced; its file is copied first where a backup is kept. -/
def previousDigest (name : String) (keepBackup : Bool) : FileProgram Digest := do
  if ← pathExists (.main name) then
    match ← Eff.attempt (readIntegrityFile (.main name)) with
    | .error _ => pure .zero
    | .ok (_, info) => do
      Eff.whenever (keepBackup = true) (demand (.copy (.main name) (.backup name)) fun fault => ⟨.ioFailure,
        "cannot refresh the integrity file backup", .ofPairs [("path", .string name), ("error", .string fault.reason)]⟩)
      pure info.payloadDigest
  else pure .zero

def writeIntegrityFile (process : Nat) (name : String) (payload : Bytes) (keepBackup : Bool) : FileProgram Unit := do
  if payload.length > maxIntegrityPayloadBytes then
    Eff.throw ⟨.boundsExceeded, "integrity file payload exceeds the permitted size",
      .ofPairs [("path", .string name), ("bytes", .uint payload.length)]⟩
  else
    let previous ← previousDigest name keepBackup
    installFile process name (encodeIntegrityFile payload previous)

end FileProgram

end FabricEvolution
