import FabricEvolution.Node.ReadSince

/-!
# What a request does to the content of a node

* `NodeContent` : document, log position and records, in memory and on disk;
* `ContentMove` : the ways in which a request changes them: it saves, installs, applies, writes or migrates, and goes on after it
  or, where a file effect failed, ends;
* `content_handle` : every request is a sequence of such moves, whatever becomes of its file effects; `handle_keeps`;
* `content_opened` : what a restart makes of the content.
-/

namespace FabricEvolution
open Lib

/-- What a node replicates, and what of it is on disk. -/
structure NodeContent where
  document : StateDocument
  lsn : Nat
  records : List ReplicationRecord
  /-- Document and position of the state file. -/
  saved : Option (StateDocument × Nat)
  /-- The record log. -/
  logged : List ReplicationRecord

namespace NodeContent
variable (options : NodeOptions) (io : NodeIo) (record : ReplicationRecord) (content : NodeContent)

/-- How many records a compaction keeps. -/
def keep : Nat := if options.maxLogRecords / 2 = 0 then 1 else options.maxLogRecords / 2

def compact : Result Unit → NodeContent
  | .error _ => content
  | .ok () =>
    let retained := content.records.drop (content.records.length - keep options)
    { content with records := retained, logged := retained }

/-- A record behind the log, which is compacted once it is too long. -/
def push : NodeContent :=
  match io.append record.lsn with
  | .error _ => content
  | .ok () =>
    let content := { content with records := content.records ++ [record], logged := content.logged ++ [record] }
    if content.records.length > options.maxLogRecords then content.compact options (io.compact record.lsn) else content

/-- A record whose field the document has taken. -/
def take (document : StateDocument) : NodeContent :=
  { content with document := document, lsn := record.lsn }.push options io record

/-- The file effects behind a record succeed. -/
def Pushes : Prop :=
  io.append record.lsn = .ok () ∧ (options.maxLogRecords < content.records.length + 1 → io.compact record.lsn = .ok ())

/-- An installed document: the log is truncated, then the state file saved. -/
def replace (document : StateDocument) (lsn : Nat) : NodeContent :=
  match io.truncate, io.save with
  | .error _, _ => { content with document := document, lsn := lsn, records := [] }
  | .ok (), .error _ => { content with document := document, lsn := lsn, records := [], logged := [] }
  | .ok (), .ok () => ⟨document, lsn, [], some (document, lsn), []⟩

/-- The content of a fresh process: records beyond the committed position were never acknowledged. -/
def reopened : NodeContent :=
  let saved := content.saved.getD ({ schema := options.schema }, 0)
  let records := content.logged.filter (·.lsn ≤ saved.2)
  ⟨saved.1, saved.2, records, some saved, records⟩

end NodeContent

def NodeState.content (node : NodeState) : NodeContent :=
  ⟨node.document, node.lsn, node.records, node.disk.saved.map fun file => (file.document, file.lsn), node.disk.records⟩

/-- One change that a request makes to the content of a node, and whether the request goes on after it. -/
inductive ContentMove (options : NodeOptions) (digestOf : Json → Digest) (io : NodeIo) (node : NodeState) :
    NodeRequest → Bool → NodeContent → NodeContent → Prop
  | save {request : NodeRequest} {content : NodeContent} (hsave : io.save = .ok ()) :
      ContentMove options digestOf io node request true content { content with saved := some (content.document, content.lsn) }
  | install {handoff : Option Nat} {body : SnapshotBody} {expected : SourceBinding} {document : StateDocument} {lsn : Nat}
      {digest : Digest} {content : NodeContent} {goesOn : Bool} (hexpected : node.expectedSource = some expected)
      (hread : NodeState.readSnapshot digestOf expected body = .ok (document, lsn, digest))
      (hgoesOn : goesOn = true ↔ io.truncate = .ok () ∧ io.save = .ok ()) :
      ContentMove options digestOf io node (.installSnapshot handoff (some body)) goesOn content (content.replace io document lsn)
  | apply {body : ApplyBody} {entries : List (Result ReplicationRecord)} {expected : SourceBinding} {record : ReplicationRecord}
      {document : StateDocument} {content : NodeContent} {goesOn : Bool} (hexpected : node.expectedSource = some expected)
      (hentries : body.records = some entries) (hentry : .ok record ∈ entries) (horigin : record.origin = expected.source)
      (hnext : nextId content.lsn = some record.lsn) (hput : content.document.put record.key record.value = .ok document)
      (hgoesOn : goesOn = true ↔ content.Pushes options io record) :
      ContentMove options digestOf io node (.applyRecords body) goesOn content (content.take options io record document)
  | write {body : WriteBody} {record : ReplicationRecord} {document : StateDocument} {content : NodeContent} {goesOn : Bool}
      (hkey : body.key = some record.key) (hvalue : body.value = some record.value) (horigin : record.origin = node.incarnation)
      (hdigest : record.digest = replicationRecordDigest digestOf record)
      (hterms : ∃ lease, node.lease = some lease ∧ record.epoch = lease.epoch ∧ record.generation = lease.generation)
      (hnext : nextId content.lsn = some record.lsn) (hput : content.document.put record.key record.value = .ok document)
      (hgoesOn : goesOn = true ↔ content.Pushes options io record) :
      ContentMove options digestOf io node (.write body) goesOn content (content.take options io record document)
  | migrate {handoff : Option Nat} {steps : Option (List (Result MigrationStepSpec))} {path : List MigrationStepSpec}
      {document : StateDocument} {outcome : MigrationOutcome} {content : NodeContent}
      (hmigrate : migrateForward digestOf content.document path = .ok (document, outcome)) :
      ContentMove options digestOf io node (.migrate handoff steps) true content { content with document := document }

/-- Moves after which the request goes on, and at most one after which it ends. -/
def ContentMoves (options : NodeOptions) (digestOf : Json → Digest) (io : NodeIo) (node : NodeState) (request : NodeRequest)
    (content content' : NodeContent) : Prop :=
  ∃ last, Relation.ReflTransGen (ContentMove options digestOf io node request true) content last ∧
    (content' = last ∨ ContentMove options digestOf io node request false last content')

namespace ContentMoves
variable {options : NodeOptions} {digestOf : Json → Digest} {io : NodeIo} {node : NodeState} {request : NodeRequest}
  {content content' content'' : NodeContent} {goesOn : Bool}

theorem refl (content : NodeContent) : ContentMoves options digestOf io node request content content := ⟨content, .refl, .inl rfl⟩

theorem single (h : ContentMove options digestOf io node request goesOn content content') :
    ContentMoves options digestOf io node request content content' := by
  cases goesOn with
  | true => exact ⟨content', .single h, .inl rfl⟩
  | false => exact ⟨content, .refl, .inr h⟩

theorem head (h : ContentMove options digestOf io node request true content content')
    (hrest : ContentMoves options digestOf io node request content' content'') :
    ContentMoves options digestOf io node request content content'' := by
  obtain ⟨last, hmoves, hend⟩ := hrest
  exact ⟨last, .head h hmoves, hend⟩

end ContentMoves

namespace NodeState
variable {options : NodeOptions} {digestOf : Json → Digest} {io : NodeIo} {nowMs laterMs : Nat} {node node' : NodeState}
  {request : NodeRequest} {outcome : Result Unit}

/-! ## The effects of a request -/

theorem content_compactRecords (node : NodeState) (outcome : Result Unit) :
    (node.compactRecords options outcome).1.content = node.content.compact options outcome := by
  rcases outcome with refusal | ⟨⟩ <;> rfl

theorem content_appendRecordEntry (node : NodeState) (record : ReplicationRecord) :
    (node.appendRecordEntry options io record).1.content = node.content.push options io record := by
  unfold appendRecordEntry NodeContent.push
  rcases io.append record.lsn with refusal | ⟨⟩
  · rfl
  · show (ite (options.maxLogRecords < (node.records ++ [record]).length) _ _ : NodeState × Result Unit).1.content =
      ite (options.maxLogRecords < (node.records ++ [record]).length) _ _
    split_ifs
    · exact content_compactRecords _ _
    · rfl

theorem moves_saveState (node' : NodeState) :
    ContentMoves options digestOf io node request node'.content (node'.saveState io).1.content := by
  unfold saveState
  split
  · exact .refl _
  · rename_i hsave
    exact .single (.save hsave)

theorem moves_saveThen {content : NodeContent} (h : node'.content = content) (answer : NodeAnswer) :
    ContentMoves options digestOf io node request content (node'.saveThen io answer).1.content := by
  subst h
  rw [saveThen_fst]
  exact moves_saveState node'

theorem content_takeFault {op : String} {action : Option String} (h : node.takeFault op = (node', action)) :
    node'.content = node.content := by
  obtain ⟨faults, hfaults⟩ := takeFault_fst node op
  rw [h] at hfaults
  obtain rfl : node' = { node with faults := faults } := hfaults
  rfl

/-- A record is refused, or is a move; it is answered where the move goes on. -/
theorem move_applyRecord (options : NodeOptions) (digestOf : Json → Digest) (io : NodeIo) {body : ApplyBody}
    {expected : SourceBinding} {all : List (Result ReplicationRecord)}
    (hexpected : node.expectedSource = some expected) (hall : body.records = some all) (node' : NodeState)
    {entry : Result ReplicationRecord} (hentry : entry ∈ all) :
    (∃ refusal, node'.applyRecord options io expected entry = (node', .error refusal)) ∨ ∃ goesOn,
      ContentMove options digestOf io node (.applyRecords body) goesOn node'.content
          (node'.applyRecord options io expected entry).1.content ∧
        ((node'.applyRecord options io expected entry).2 = .ok () → goesOn = true) := by
  unfold applyRecord
  rcases entry with refusal | record
  · exact .inl ⟨refusal, rfl⟩
  dsimp only
  split_ifs with horigin hnext
  · exact .inl ⟨_, rfl⟩
  · exact .inl ⟨_, rfl⟩
  split
  · exact .inl ⟨_, rfl⟩
  rename_i document hput
  rw [content_appendRecordEntry, appendRecordEntry_ok]
  by_cases hpush : node'.content.Pushes options io record
  · exact .inr ⟨true, .apply hexpected hall hentry (not_not.mp horigin) (not_not.mp hnext) hput ⟨fun _ => hpush, fun _ => rfl⟩,
      fun _ => rfl⟩
  · exact .inr ⟨false, .apply hexpected hall hentry (not_not.mp horigin) (not_not.mp hnext) hput ⟨fun h => (by cases h),
      fun h => absurd h hpush⟩, fun h => absurd h hpush⟩

/-- A batch moves once for each of its records, up to the first that is refused or whose file effects fail. -/
theorem moves_applyAll {body : ApplyBody} {expected : SourceBinding} {all entries : List (Result ReplicationRecord)}
    {content : NodeContent} (hexpected : node.expectedSource = some expected) (hall : body.records = some all) (hsub : entries ⊆ all)
    (hthen : ∀ node' u, applyAll options io expected node entries = (node', .ok u) →
      ContentMoves options digestOf io node (.applyRecords body) node'.content content)
    (hend : ∀ node' refusal, applyAll options io expected node entries = (node', .error refusal) → content = node'.content) :
    ContentMoves options digestOf io node (.applyRecords body) node.content content := by
  suffices h : ∀ node' : NodeState,
      (∀ node'' u, applyAll options io expected node' entries = (node'', .ok u) →
        ContentMoves options digestOf io node (.applyRecords body) node''.content content) →
      (∀ node'' refusal, applyAll options io expected node' entries = (node'', .error refusal) → content = node''.content) →
      ContentMoves options digestOf io node (.applyRecords body) node'.content content by
    exact h node hthen hend
  clear hthen hend
  induction entries with
  | nil => exact fun node' hthen _ => hthen node' () rfl
  | cons entry rest ih =>
    intro node' hthen hend
    obtain ⟨hentry, hrest⟩ := List.cons_subset.mp hsub
    have hone := move_applyRecord options digestOf io hexpected hall node' hentry
    unfold applyAll at hthen hend
    rcases happly : node'.applyRecord options io expected entry with ⟨node₁, refusal | ⟨⟩⟩
    · rw [happly] at hone
      rw [hend node₁ refusal (by rw [happly])]
      rcases hone with ⟨refusal', hsame⟩ | ⟨goesOn, hmove, -⟩
      · cases hsame
        exact .refl _
      · exact .single hmove
    · rw [happly] at hone
      simp only [happly] at hthen hend
      rcases hone with ⟨refusal', hsame⟩ | ⟨goesOn, hmove, hok⟩
      · cases hsame
      · obtain rfl := hok rfl
        exact .head hmove (ih hrest node₁ hthen hend)

theorem moves_applyRecords (body : ApplyBody) :
    ContentMoves options digestOf io node (.applyRecords body) node.content (node.applyRecords options io body).1.content := by
  unfold applyRecords
  dsimp only
  split
  · exact .refl _
  · rename_i expected entries hchecked
    obtain ⟨handoff, -, hchecked⟩ := Result.bind_eq_ok.mp hchecked
    obtain ⟨expected', hprepared, hchecked⟩ := Result.bind_eq_ok.mp hchecked
    obtain ⟨source, -, hchecked⟩ := Result.bind_eq_ok.mp hchecked
    obtain ⟨presented, -, hchecked⟩ := Result.bind_eq_ok.mp hchecked
    obtain ⟨_, -, hchecked⟩ := Result.bind_eq_ok.mp hchecked
    obtain ⟨entries', hentries, hchecked⟩ := Result.bind_eq_ok.mp hchecked
    obtain ⟨_, -, hchecked⟩ := Result.bind_eq_ok.mp hchecked
    cases hchecked
    have hexpected := (Option.filter_eq_some_iff.mp (orRefuse_eq_ok.mp hprepared)).1
    refine moves_applyAll hexpected (orRefuse_eq_ok.mp hentries) (fun _ h => h) ?_ ?_
    · intro node' u happly
      rw [happly]
      exact moves_saveThen (by rfl) _
    · intro node' refusal happly
      rw [happly]

theorem moves_installSnapshot (handoff : Option Nat) (snapshot : Option SnapshotBody) :
    ContentMoves options digestOf io node (.installSnapshot handoff snapshot) node.content
      (node.installSnapshot digestOf io handoff snapshot).1.content := by
  unfold installSnapshot
  dsimp only
  split
  · exact .refl _
  · rename_i document lsn digest hchecked
    obtain ⟨handoff', -, hchecked⟩ := Result.bind_eq_ok.mp hchecked
    obtain ⟨expected, hprepared, hchecked⟩ := Result.bind_eq_ok.mp hchecked
    obtain ⟨body, hbody, hread⟩ := Result.bind_eq_ok.mp hchecked
    obtain rfl : snapshot = some body := orRefuse_eq_ok.mp hbody
    have hexpected := (Option.filter_eq_some_iff.mp (orRefuse_eq_ok.mp hprepared)).1
    have hinstall : ∀ goesOn, (goesOn = true ↔ io.truncate = .ok () ∧ io.save = .ok ()) → ContentMove options digestOf io node
        (.installSnapshot handoff (some body)) goesOn node.content (node.content.replace io document lsn) :=
      fun goesOn hgoesOn => .install hexpected hread hgoesOn
    unfold NodeContent.replace at hinstall
    unfold saveThen saveState
    rcases htruncate : io.truncate with refusal | ⟨⟩
    · rw [htruncate] at hinstall
      exact .single (hinstall false ⟨fun h => (by cases h), fun h => by cases h.1⟩)
    · rcases hsave : io.save with refusal | ⟨⟩
      · rw [htruncate, hsave] at hinstall
        exact .single (hinstall false ⟨fun h => (by cases h), fun h => by cases h.2⟩)
      · rw [htruncate, hsave] at hinstall
        exact .single (hinstall true ⟨fun _ => ⟨rfl, rfl⟩, fun _ => rfl⟩)

theorem moves_applyWrite (options : NodeOptions) (digestOf : Json → Digest) (io : NodeIo) (node : NodeState) {body : WriteBody}
    {key value : String} {lease : AuthorityLease} (hkey : body.key = some key) (hvalue : body.value = some value)
    (hlease : node.lease = some lease) : ContentMoves options digestOf io node (.write body) node.content
      (node.applyWrite options digestOf io key value lease.epoch lease.generation node.incarnation).1.content := by
  unfold applyWrite
  split
  · exact .refl _
  rename_i lsn hnext
  split
  · exact .refl _
  rename_i document hput
  dsimp only
  have htake : ∀ (record : ReplicationRecord) (goesOn : Bool), record.lsn = lsn → record.key = key → record.value = value →
      record.origin = node.incarnation → record.digest = replicationRecordDigest digestOf record →
      record.epoch = lease.epoch → record.generation = lease.generation → (goesOn = true ↔ node.content.Pushes options io record) →
      ContentMove options digestOf io node (.write body) goesOn node.content (node.content.take options io record document) := by
    rintro record goesOn rfl rfl rfl horigin hdigest hepoch hgeneration hgoesOn
    exact .write hkey hvalue horigin hdigest ⟨lease, hlease, hepoch, hgeneration⟩ hnext hput hgoesOn
  split
  · rename_i happend
    rw [← congrArg (fun r => r.1.content) happend, content_appendRecordEntry]
    refine .single (htake _ false rfl rfl rfl rfl rfl rfl rfl ⟨fun h => (by cases h), fun hpush => ?_⟩)
    cases (congrArg Prod.snd happend).symm.trans ((appendRecordEntry_ok _).mpr hpush)
  · rename_i happend
    refine .head ?_ (moves_saveState _)
    rw [← congrArg (fun r => r.1.content) happend, content_appendRecordEntry]
    have hpush := (appendRecordEntry_ok _).mp (congrArg Prod.snd happend)
    exact htake _ _ rfl rfl rfl rfl rfl rfl rfl ⟨fun _ => hpush, fun _ => rfl⟩

theorem moves_write (body : WriteBody) :
    ContentMoves options digestOf io node (.write body) node.content (node.write options digestOf io nowMs body).1.content := by
  unfold write
  split
  · exact .refl _
  · exact .refl _
  split
  · exact .refl _
  · exact .refl _
  · rename_i lease hauthority hlease
    split
    · rename_i key value hkey hvalue
      have hmoves := moves_applyWrite options digestOf io node
        (Option.filter_eq_some_iff.mp hkey).1 hvalue hlease
      split
      · rename_i happly
        rw [happly] at hmoves
        exact hmoves
      · rename_i happly
        rw [happly] at hmoves
        exact hmoves
    · exact .refl _

theorem content_recordSteps {steps : List MigrationStepRecord} (node : NodeState) :
    (recordSteps options nowMs node steps).1.content = node.content := by
  induction steps generalizing node with
  | nil => rfl
  | cons step rest ih =>
    unfold recordSteps
    split
    · rfl
    · exact ih _

theorem moves_migrate (handoff : Option Nat) (steps : Option (List (Result MigrationStepSpec))) :
    ContentMoves options digestOf io node (.migrate handoff steps) node.content
      (node.migrate options digestOf io nowMs handoff steps).1.content := by
  unfold migrate
  dsimp only
  split
  · exact .refl _
  · split
    · exact .refl _
    · rename_i document outcome hmigrate
      have hmove : ContentMove options digestOf io node (.migrate handoff steps) true node.content
          { node with document := document }.content := .migrate hmigrate
      have hrecorded : (recordSteps options nowMs { node with document := document } outcome.steps).1.content =
          { node with document := document }.content := content_recordSteps _
      rw [← hrecorded] at hmove
      split
      · rename_i heq
        rw [heq] at hmove
        exact .single hmove
      · rename_i heq
        rw [heq] at hmove
        exact .head hmove (moves_saveThen (by rfl) _)

theorem moves_snapshot (handoff : Option Nat) :
    ContentMoves options digestOf io node (.snapshot handoff) node.content (node.snapshot digestOf io handoff).1.content := by
  unfold snapshot
  split
  · exact .refl _
  · split_ifs
    · exact .refl _
    · exact .refl _
    · split
      rename_i node' corrupted htake
      rw [← content_takeFault htake]
      dsimp only
      split
      · exact .refl _
      · exact moves_saveThen (by rfl) _

theorem moves_dispatch (options : NodeOptions) (digestOf : Json → Digest) (io : NodeIo) (nowMs laterMs : Nat) (node : NodeState)
    (request : NodeRequest) :
    ContentMoves options digestOf io node request node.content
      (node.dispatch options digestOf io nowMs laterMs request).1.content := by
  cases request with
  | hello | status | unknown op => exact .refl _
  | faults op action count =>
    simp only [dispatch, faultsHandler, setFault]
    repeat' split
    all_goals exact .refl _
  | prepare body =>
    simp only [dispatch, prepare, prepareSuccessor, preparePredecessor]
    repeat' split
    all_goals exact .refl _
  | snapshot handoff => exact moves_snapshot handoff
  | installSnapshot handoff snapshot => exact moves_installSnapshot handoff snapshot
  | readSince fromLsn maxRecords =>
    simp only [dispatch, readSince]
    split <;> exact .refl _
  | applyRecords body => exact moves_applyRecords body
  | readiness handoff targetLsn targetSchema =>
    simp only [dispatch, readiness]
    repeat' split
    all_goals exact .refl _
  | fence body =>
    rcases fence_cases node io body with ⟨heq, -⟩ | ⟨-, id, answer, heq⟩ <;> simp only [dispatch, heq]
    · exact .refl _
    · exact moves_saveThen (by rfl) answer
  | grantAuthority body =>
    rcases grantAuthority_cases options node io nowMs laterMs body with ⟨heq, -⟩ | ⟨-, lease, answer, -, heq⟩ <;>
      simp only [dispatch, heq]
    · exact .refl _
    · exact moves_saveThen (by rfl) answer
  | reattest token =>
    rcases reattest_cases node nowMs token with ⟨heq, -⟩ | ⟨lease, answer, -, -, -, heq⟩ <;> simp only [dispatch, heq]
    · exact .refl _
    · exact .refl _
  | migrate handoff steps => exact moves_migrate handoff steps
  | retire handoff =>
    rcases retire_cases node io handoff with ⟨heq, -⟩ | ⟨answer, heq⟩ <;> simp only [dispatch, heq]
    · exact .refl _
    · exact moves_saveThen (by rfl) answer
  | write body => exact moves_write body
  | read key allowStale =>
    simp only [dispatch, read]
    repeat' split
    all_goals exact .refl _

/-- Every request is a sequence of moves. -/
theorem content_handle (options : NodeOptions) (digestOf : Json → Digest) (io : NodeIo) (nowMs laterMs : Nat) (node : NodeState)
    (request : NodeRequest) : ContentMoves options digestOf io node request node.content
      (node.handle options digestOf io nowMs laterMs request).1.content := by
  obtain ⟨faults, ⟨-, heq, -⟩ | ⟨-, heq, -⟩⟩ := handle_faults options digestOf node io nowMs laterMs request
  · rw [heq]
    exact .refl _
  · rw [heq]
    obtain ⟨last, hmoves, hend⟩ := moves_dispatch options digestOf io nowMs laterMs { node with faults := faults } request
    -- The moves look at the prepared source, the lease and the incarnation alone.
    have hsame : ∀ goesOn content content', ContentMove options digestOf io { node with faults := faults } request goesOn content
        content' → ContentMove options digestOf io node request goesOn content content' := by
      rintro goesOn content content' (h | ⟨h, h₁, h₂⟩ | ⟨h, h₁, h₂, h₃, h₄, h₅, h₆⟩ | ⟨h, h₁, h₂, h₃, h₄, h₅, h₆, h₇⟩ | h)
      · exact .save h
      · exact .install h h₁ h₂
      · exact .apply h h₁ h₂ h₃ h₄ h₅ h₆
      · exact .write h h₁ h₂ h₃ h₄ h₅ h₆ h₇
      · exact .migrate h
    exact ⟨last, Relation.ReflTransGen.mono (fun _ _ h => hsame _ _ _ h) _ _ hmoves, hend.imp_right fun h => hsame _ _ _ h⟩

/-- What every move keeps that goes on, and the last one turns into `Q`. -/
theorem handle_keeps {P Q : NodeContent → Prop}
    (hmove : ∀ content content', P content → ContentMove options digestOf io node request true content content' → P content')
    (hend : ∀ content, P content → Q content)
    (hlast : ∀ content content', P content → ContentMove options digestOf io node request false content content' → Q content')
    (h : P node.content) : Q (node.handle options digestOf io nowMs laterMs request).1.content := by
  obtain ⟨last, hmoves, hfinal⟩ := content_handle options digestOf io nowMs laterMs node request
  have hheld : P last := by
    clear hfinal
    induction hmoves with
    | refl => exact h
    | tail _ hstep ih => exact hmove _ _ ih hstep
  rcases hfinal with heq | hfinal
  · rw [heq]
    exact hend last hheld
  · exact hlast last _ hheld hfinal

/-- A restart restores what the state file holds, and of the log what is not beyond it. -/
theorem content_opened (options : NodeOptions) (node : NodeState) (uuid : IncarnationUuid) :
    (opened options node.disk uuid).content = node.content.reopened options := by
  rcases hsaved : node.disk.saved with _ | file <;> simp [content, opened, NodeContent.reopened, hsaved, toSaved]

end NodeState

end FabricEvolution
