import FabricEvolution.Authority.Run
import FabricEvolution.Controller.Admin

/-!
# The system: a controller and its two nodes

* `SystemSetup` : the configuration of the controller and of the two components under evolution;
* `World` : the clock, the two nodes, the state file and the journal of the controller;
* `Choice`, `perform` : how an effect of the controller meets the world; a call may find the node
  unreachable, and its response may be lost;
* `WorldEvent`, `World.after` : what happens beside the controller (time, clients, node restarts);
* `machine` : the system as a machine that runs one administrative operation at a time.

Which node a call reaches is a matter of its role: the manifests name the source node as their source and
the target node as their target (`SystemSetup.Plans`).
-/

namespace FabricEvolution
open Lib

structure SystemSetup where
  controller : ControllerSetup
  digestOf : Json → Digest
  source : NodeOptions
  target : NodeOptions
  /-- Predecessor and successor are different components. -/
  distinct : source.component ≠ target.component

structure World where
  clock : Nat
  source : NodeState
  target : NodeState
  /-- The state file of the controller. -/
  disk : Option Durable := none
  journal : List EpochEvent := []

def SystemSetup.options (S : SystemSetup) : NodeRole → NodeOptions
  | .source => S.source
  | .target => S.target

namespace World

def node (w : World) : NodeRole → NodeState
  | .source => w.source
  | .target => w.target

def setNode (w : World) (role : NodeRole) (node : NodeState) : World :=
  match role with
  | .source => { w with source := node }
  | .target => { w with target := node }

/-- A node handles a request and the clock moves on to `laterMs`. -/
def serve (S : SystemSetup) (w : World) (role : NodeRole) (request : NodeRequest) (io : NodeIo) (laterMs : Nat) :
    World × Result NodeAnswer × NodeState.Delivery :=
  let r := (w.node role).handle (S.options role) S.digestOf io w.clock laterMs request
  ({ w.setNode role r.1 with clock := laterMs }, r.2)

end World

/-! ## Effects -/

inductive Choice where
  | reading
  | readings (slotNowMs : Nat) (token : AuthorityToken)
  /-- The request does not reach the node. -/
  | unreachable (failure : Status)
  /-- The node handles the request, its response does not arrive. -/
  | lost (io : NodeIo) (laterMs : Nat) (failure : Status)
  | answered (io : NodeIo) (laterMs : Nat)
  | stored
  /-- A file effect fails. -/
  | failed (refusal : Status)
  | entered

/-- An effect of the controller meets the world. -/
def perform (S : SystemSetup) (op : ControllerOp) (c : Controller) (choice : Choice) (w : World) :
    Option (op.Answer × World) :=
  match op, choice with
  | .now, .reading => some (w.clock, w)
  | .authority _, .readings slotNowMs token =>
    if w.clock ≤ slotNowMs then some (⟨w.clock, slotNowMs, token⟩, { w with clock := slotNowMs }) else none
  | .call _ _, .unreachable failure => some (.error failure, w)
  | .call role request, .lost io laterMs failure =>
    if w.clock ≤ laterMs then some (.error failure, (w.serve S role request io laterMs).1) else none
  | .call role request, .answered io laterMs =>
    if w.clock ≤ laterMs then
      match w.serve S role request io laterMs with
      | (w, answer, .sent) => some (.ok answer, w)
      | (_, _, .suppressed) => none
    else none
  | .append event, .stored => some (.ok (), { w with journal := w.journal ++ [event] })
  | .append _, .failed refusal => some (.error refusal, w)
  | .save, .stored => some (.ok (), { w with disk := some c.toDurable })
  | .save, .failed refusal => some (.error refusal, w)
  | .enter _, .entered => some ((), w)
  | _, _ => none

/-! ## Beside the controller -/

/-- The requests of clients, and the fault injection of a node. -/
def NodeRequest.isClient : NodeRequest → Bool
  | hello | status | faults .. | write _ | read .. => true
  | _ => false

inductive WorldEvent where
  | tick (nowMs : Nat)
  | client (role : NodeRole) (request : NodeRequest) (io : NodeIo) (laterMs : Nat)
  /-- A node process dies and a fresh one opens its state directory. -/
  | restart (role : NodeRole) (uuid : IncarnationUuid)

def World.after (S : SystemSetup) (e : WorldEvent) (w : World) : Option World :=
  match e with
  | .tick nowMs => if w.clock ≤ nowMs then some { w with clock := nowMs } else none
  | .client role request io laterMs =>
    if request.isClient ∧ w.clock ≤ laterMs then some (w.serve S role request io laterMs).1 else none
  | .restart role uuid =>
    if (w.node role).disk.bootCounter + 1 < 2 ^ 64 then
      some (w.setNode role (NodeState.reopen (S.options role) (w.node role).disk uuid))
    else none

/-- `open`: the state file is read, the registry through its own codec, and written back. -/
def openController (incarnation : IncarnationId) (w : World) : Option (Controller × World) :=
  match w.disk with
  | none =>
    let c : Controller := { controllerIncarnation := incarnation }
    some (c, { w with disk := some c.toDurable })
  | some durable =>
    match AuthorityRegistry.empty.load durable.authority.toJson with
    | (authority, .ok ()) =>
      let c := (Controller.restore durable authority).opened incarnation
      some (c, { w with disk := some c.toDurable })
    | (_, .error _) => none

abbrev SystemConfig := Config Controller ControllerOp ControllerOp.Answer World Status

abbrev SystemEvent := Event AdminOp Choice WorldEvent IncarnationId

abbrev SystemPolicy (W : Type) := Policy Controller ControllerOp W AdminOp Choice WorldEvent

def machine (S : SystemSetup) :
    Machine Controller ControllerOp ControllerOp.Answer World Status AdminOp Choice WorldEvent IncarnationId where
  command op := op.control S.controller
  exec := perform S
  world := World.after S
  boot := openController

/-- The manifests that are planned name the two components in their roles. -/
def SystemSetup.Plans (S : SystemSetup) : AdminOp → Prop
  | .plan manifest => manifest.source.id = S.source.component ∧ manifest.target.id = S.target.component
  | _ => True

/-- The system before the controller opens: node processes on their state directories, no state file. -/
def SystemSetup.start (S : SystemSetup) (clock : Nat) (source target : NodeDisk) (sourceUuid targetUuid : IncarnationUuid) :
    SystemConfig :=
  .down
    { clock
      source := NodeState.reopen S.source source sourceUuid
      target := NodeState.reopen S.target target targetUuid }

/-! ## A concrete system -/

namespace Sample

def sourceComponent : ComponentId := ⟨"source-node", .inr (by decide)⟩

def targetComponent : ComponentId := ⟨"target-node", .inr (by decide)⟩

/-- Manifests are admitted as they are, digests are of no interest. -/
def setup : SystemSetup where
  controller :=
    { options := { controllerId := ⟨"controller", .inr (by decide)⟩ }
      admission := .ok
      negotiate := fun _ _ _ => .ok () }
  digestOf _ := .zero
  source := { component := sourceComponent, shard := shard }
  target := { component := targetComponent, shard := shard, software := ⟨2, 0, 0, ""⟩ }
  distinct := by decide

/-- The manifest of a campaign, under a digest of its own. -/
def manifest (campaign : CampaignId) (byte : Fin 256) : EvolutionManifest :=
  { id := ⟨"manifest", .inr (by decide)⟩
    campaign
    shard
    source := { id := sourceComponent, software := ⟨1, 0, 0, ""⟩, protocol := ⟨1, 0⟩, schema := 1, port := 7001 }
    target := { id := targetComponent, software := ⟨2, 0, 0, ""⟩, protocol := ⟨1, 0⟩, schema := 1, port := 7002 }
    digest := ⟨List.replicate 32 byte, List.length_replicate⟩ }

def firstCampaign : CampaignId := ⟨"campaign-1", .inr (by decide)⟩

def secondCampaign : CampaignId := ⟨"campaign-2", .inr (by decide)⟩

/-- The system before the controller opens. -/
def system : SystemConfig := setup.start 1 { bootCounter := 0 } { bootCounter := 0 } uuid uuid

def controllerIncarnation : IncarnationId := ⟨⟨"controller", .inr (by decide)⟩, uuid, 1⟩

def failure : Status := .plain .deadlineExceeded "no response"

/-! How the effects of an operation meet the world, at a clock that stands still. -/

def reading : SystemEvent := .exec .reading

/-- The readings of a registry operation, with the `n`th token. -/
def readings (n : Nat) : SystemEvent := .exec (.readings 1 (tokens n))

/-- A call answered by a node that has no file trouble. -/
def answered : SystemEvent := .exec (.answered {} 1)

def stored : SystemEvent := .exec .stored

/-- The effects of an accepted campaign action. -/
def action : List SystemEvent := [reading, reading, reading, stored, stored]

/-- A campaign is planned; the first plan also establishes the shard. -/
def planning (manifest : EvolutionManifest) (establish : List SystemEvent) : List SystemEvent :=
  .begin (.plan manifest) :: establish ++ [reading, reading, stored, .finish]

/-- Preflight grants the source its first lease. -/
def preflight : List SystemEvent :=
  .begin .preflight :: action ++
    [answered, answered, answered, answered, reading, readings 0, answered, reading, stored, stored, stored, .finish]

/-- The controller opens, plans a first campaign and runs its preflight. -/
def prepared (manifest : EvolutionManifest) : List SystemEvent :=
  .boot controllerIncarnation :: planning manifest [readings 0, reading, stored] ++ preflight

/-- A handoff begins. -/
def beginning : List SystemEvent :=
  action ++ [answered, answered] ++ List.replicate 6 reading ++ [stored, stored]

/-- A phase is recorded. -/
def recording : List SystemEvent := [reading, reading, reading, stored, stored]

/-- What comes before the step of a phase, while nothing is to be renewed. -/
def stepping : List SystemEvent := [answered, answered, reading, reading, reading, reading, .exec .entered]

/-- The steps of the first two phases. -/
def synchronizing : List SystemEvent :=
  stepping ++ [answered, answered, reading, reading, answered, answered] ++ recording ++
    stepping ++ [answered, answered, answered] ++ recording

/-- The steps of catch-up and readiness, nothing to migrate. -/
def readying : List SystemEvent :=
  stepping ++ [answered, answered, answered] ++ recording ++ stepping ++ [answered] ++ recording

/-- The step of the fence, its records under the `n`th token. -/
def fencing (n : Nat) : List SystemEvent :=
  stepping ++ [reading, readings n, stored, reading, answered, readings n, reading, stored] ++ recording

/-- The step of the transfer to the successor. -/
def transferring (n : Nat) : List SystemEvent :=
  [answered, answered, reading, reading, .exec .entered, answered, answered, readings n, answered, reading, stored] ++
    recording

/-- The handoff of a prepared campaign, until authority is transferred. -/
def transferred : List SystemEvent :=
  prepared (manifest firstCampaign 1) ++
    .begin .start :: beginning ++ synchronizing ++ readying ++ fencing 1 ++ transferring 2

end Sample

end FabricEvolution
