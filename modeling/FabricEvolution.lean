import FabricEvolution.Authority.LeaseStep
import FabricEvolution.Lib.Run
import FabricEvolution.Authority.Run
import FabricEvolution.Authority.Slot
import FabricEvolution.Authority.Stale
import FabricEvolution.Authority.History
import FabricEvolution.Authority.Incumbent
import FabricEvolution.Authority.Fence
import FabricEvolution.Migration.Document
import FabricEvolution.Migration.Step
import FabricEvolution.Node.State
import FabricEvolution.Node.Handlers
import FabricEvolution.Node.Step
import FabricEvolution.Controller.Campaign
import FabricEvolution.Lib.Program
import FabricEvolution.Controller.Memory
import FabricEvolution.Controller.Authority
import FabricEvolution.Controller.Phases
import FabricEvolution.Controller.Admin
import FabricEvolution.Authority.Restored
import FabricEvolution.Node.Process
import FabricEvolution.System.Boundaries
import FabricEvolution.System.Deeds
import FabricEvolution.System.Lineage
import FabricEvolution.System.Binding
import FabricEvolution.Authority.Account
import FabricEvolution.System.Fenced
import FabricEvolution.System.Budget
import FabricEvolution.System.Recorded
import FabricEvolution.Lib.Log
import FabricEvolution.Migration.Bounds
import FabricEvolution.Node.Bounds
import FabricEvolution.Node.Shipping
import FabricEvolution.Persistence.RecordLog
import FabricEvolution.Manifest.Bound
import FabricEvolution.Manifest.Chain
import FabricEvolution.Manifest.Negotiation
import FabricEvolution.Migration.Reverse
import FabricEvolution.Node.Attestation
import FabricEvolution.System.Strategy
import FabricEvolution.Authority.Snapshot
import FabricEvolution.System.Decisions
import FabricEvolution.System.Stored
import FabricEvolution.Wire.Canonical
import FabricEvolution.Wire.Fragments
import FabricEvolution.Node.Grants
import FabricEvolution.Node.Writes
import FabricEvolution.Node.Replication
import FabricEvolution.Node.ReadSince
import FabricEvolution.Authority.Refusals
import FabricEvolution.Persistence.Checksum
import FabricEvolution.Wire.Hasher
import FabricEvolution.Wire.IdentityText
import FabricEvolution.Persistence.CutLog
import FabricEvolution.Migration.Composition
import FabricEvolution.Migration.Table
import FabricEvolution.Migration.Answers
import FabricEvolution.Manifest.Agreement
import FabricEvolution.Persistence.Atomic
import FabricEvolution.Controller.EpochLog
import FabricEvolution.Lib.Mix
import FabricEvolution.Authority.Tokens
import FabricEvolution.Node.Content
import FabricEvolution.Node.Consecutive
import FabricEvolution.Node.Sourcing
import FabricEvolution.System.Following
import FabricEvolution.Persistence.History
import FabricEvolution.Wire.Lax
import FabricEvolution.Wire.Call
import FabricEvolution.Node.Identity
import FabricEvolution.System.Boots
import FabricEvolution.Node.Messages
import FabricEvolution.Node.Spoken
import FabricEvolution.Node.Saved
import FabricEvolution.Node.Journal
import FabricEvolution.Node.Directory
import FabricEvolution.Controller.Client
