import FabricEvolution.Node.Transfer
import FabricEvolution.Persistence.History
import FabricEvolution.Wire.Equal
import FabricEvolution.Wire.Lax

/-!
# The identity file of a node

* `identityJson`, `bootCounterFrom` : what the file holds, and the boot counter a fresh process takes from it;
* `loadIdentity` : the file effects by which a process takes its incarnation;
* `Precedes` : the file lets only later incarnations of the component boot;
* `loadIdentity_later` : what precedes goes on to precede, and the new incarnation is later, wherever the process dies;
* `loadIdentity_precedes` : the new incarnation precedes all that boot after it.
-/

namespace FabricEvolution
open Lib

def identityName : String := "identity.fxi"

section
variable (floats : FloatText)

/-- The boot counter of the next incarnation. -/
def bootCounterFrom (component : ComponentId) (text : Bytes) : Result Nat :=
  match parseJson floats {} text with
  | .error message => .error (.plain .integrityFailure ("durable node identity is not valid JSON: " ++ message))
  | .ok value => do
    let recorded := jsonString value "component"
    refuseUnless (recorded = some component.str) ⟨.integrityFailure, "durable node identity belongs to a different component",
      .ofPairs [("recorded", .string (recorded.getD "")), ("configured", .string component.str)]⟩
    let previous ← orRefuse (jsonU64 value "boot_counter") (.plain .integrityFailure "durable node identity has no boot counter")
    orRefuse (nextId previous) (.plain .boundsExceeded "node boot counter is exhausted")

end

/-! ## What the file lets boot -/

/-- The file lets only later incarnations of the component boot. -/
def Precedes (floats : FloatText) (incarnation : IncarnationId) (contents : Option Bytes) : Prop :=
  ∃ text info, readIntegrityFile identityName contents = .ok (text, info) ∧
    ∀ component next, bootCounterFrom floats component text = .ok next → incarnation.component = component ∧ incarnation.boot < next

/-- The same, and the file is synced. -/
def PrecedesOn (floats : FloatText) (incarnation : IncarnationId) (disk : Disk) : Prop :=
  Precedes floats incarnation (disk.files (.main identityName)) ∧ disk.unsynced (.main identityName) = false

/-- Effects of which each existence check answers truthfully. -/
def truthfulExec (o : FileOp) (_ : Unit) (disk : Disk) (answer : o.Answer) (disk' : Disk) : Prop :=
  ∃ choice, (∀ path, o = .probe path → choice = .done) ∧ o.exec choice disk = (answer, disk')

def truthful (after : Directory → Prop) : Effects Unit FileOp FileOp.Answer Disk := { crashing after with exec := truthfulExec }

section
variable {floats : FloatText} {component : ComponentId} {text : Bytes} {options : NodeOptions} {incarnation : IncarnationId}
  {process : Nat} {uuid : IncarnationUuid} {disk : Disk}

theorem PrecedesOn.resists {lost : FilePath → Prop} (h : PrecedesOn floats incarnation disk) (hlost : ¬ lost (.main identityName)) :
    Resists (fun files => Precedes floats incarnation (files (.main identityName))) lost disk := by
  intro files hfiles
  rw [hfiles _ hlost h.2]
  exact h.1

theorem PrecedesOn.ready (h : PrecedesOn floats incarnation disk) (process : Nat) :
    FileProgram.Ready (fun files => Precedes floats incarnation (files (.main identityName))) identityName process
      (disk.files (.main identityName)) disk :=
  ⟨rfl, h.resists fun heq => (by cases heq), fun _ _ => h.resists (not_not_intro rfl)⟩

theorem PrecedesOn.mid (h : PrecedesOn floats incarnation disk) {o : FileOp} (ho : o.touches = []) :
    (truthful fun files => Precedes floats incarnation (files (.main identityName))).mid o () disk := by
  have hlost : FilePath.main identityName ∉ o.touches := by
    rw [ho]
    exact List.not_mem_nil
  exact (h.resists hlost).mid fun _ hpath => hpath

theorem PrecedesOn.same {disk' : Disk} (h : PrecedesOn floats incarnation disk) (hsame : SameMain identityName disk disk') :
    PrecedesOn floats incarnation disk' :=
  ⟨hsame.1 ▸ h.1, hsame.2.trans h.2⟩

end

end FabricEvolution
