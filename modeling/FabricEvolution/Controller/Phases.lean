import FabricEvolution.Controller.Authority

/-!
# The phases of a handoff

* `recordPhase`, `restartHandoff` : a phase entered, a handoff rewound;
* `reconcileIncarnations` : what a replaced participant process leads to;
* `advancePrepared`, `advanceSnapshot`, `advanceCatchUp`, `advanceReadiness`, `advanceFence`,
  `advanceTransfer`, `advanceVerify`, `advanceRetire` : the step of each phase.
-/

namespace FabricEvolution
open Lib

namespace Control
variable (setup : ControllerSetup)

/-! ## Entering a phase -/

/-- A journal entry under the terms of the handoff. -/
def handoffEvent (kind : EpochEventKind) (shard : ShardId) (handoff : HandoffRecord) (atMs : Nat) (payload : Json) :
    EpochEvent :=
  { kind, shard, epoch := handoff.epoch, generation := handoff.generation, atMs, payload }

/-- Handoff and campaign take the terms of the registry. -/
def syncTerms (c : Controller) : Controller :=
  let handoff := c.handoff.map fun handoff => { handoff with
    epoch := (currentEpoch c handoff.shard).getD handoff.epoch
    generation := (currentGeneration c handoff.shard).getD handoff.generation }
  { c with
    handoff
    campaign := c.campaign.map fun campaign => { campaign with
      epoch := (handoff.map (·.epoch)).getD campaign.epoch
      generation := (handoff.map (·.generation)).getD campaign.generation } }

def recordPhase (target : HandoffPhase) (note : String) : Control Unit := do
  let c ← Eff.get
  match c.handoff, c.campaign, c.manifest with
  | some handoff, some _, some _ =>
    match validateHandoffTransition handoff.phase target with
    | .error refusal => Eff.throw refusal
    | .ok () =>
      if handoff.phase = target then return ()
      else
        let atMs ← now
        modifyHandoff (HandoffRecord.moved · target atMs note)
        let updatedAtMs ← now
        modifyHandoff ({ · with updatedAtMs := updatedAtMs })
        Eff.modify syncTerms
        let eventAtMs ← now
        let moved ← theHandoff
        append (handoffEvent .handoffPhase moved.shard moved eventAtMs (.ofPairs [("handoff", .uint moved.id),
          ("from", .string handoff.phase.name), ("to", .string target.name), ("note", .string note)]))
        save
  | _, _, _ => Eff.throw noHandoff

/-- A handoff is restarted when a participant process is replaced: explicit, recorded and bounded. -/
def restartHandoff (predecessor successor : IncarnationId) (target : HandoffPhase) (note : String) :
    Control Unit := do
  let handoff ← theHandoff
  if target ≠ .notStarted ∧ target ≠ .prepared then
    Eff.throw (invalidArgument "a handoff can only rewind to the start or to the snapshot phase")
  else if handoff.attempt ≥ maxHandoffRestarts then
    Eff.throw ⟨.resourceExhausted, "handoff has been restarted too many times after process restarts",
      .ofPairs [("attempts", .uint handoff.attempt)]⟩
  else
    let atMs ← now
    Eff.modify fun c => { c with
      predecessorHistory := if handoff.predecessor ≠ predecessor then c.predecessorHistory ++ [handoff.predecessor]
        else c.predecessorHistory }
    modifyHandoff (HandoffRecord.rewound · predecessor successor target atMs note)
    let updatedAtMs ← now
    modifyHandoff ({ · with updatedAtMs := updatedAtMs })
    let eventAtMs ← now
    let handoff ← theHandoff
    append (handoffEvent .reconciliation handoff.shard handoff eventAtMs (.ofPairs [("handoff", .uint handoff.id),
      ("reason", .string "participant incarnation replaced"), ("note", .string note),
      ("rewind_to", .string target.name), ("predecessor", .string predecessor.toString),
      ("successor", .string successor.toString)]))
    save

/-! ## Replaced incarnations -/

/-- A later boot of the same component. -/
def provablyReplaced (recorded reported : IncarnationId) : Bool :=
  recorded.isValid && reported.isValid && recorded.component = reported.component && recorded ≠ reported &&
    reported.boot > recorded.boot

def currentSourceClaim : Control (Option AuthorityClaim) := do
  let c ← Eff.get
  match c.manifest with
  | none => return none
  | some manifest =>
    match c.fencedPredecessorClaim.filter (·.shard = manifest.shard) with
    | some claim => return some claim
    | none =>
      let view ← Eff.attempt (view manifest.shard)
      match view with
      | .error _ => return none
      | .ok view => return view.mutating.map (·.claim)

/-- The claim replicated state is bound to. -/
def sourceClaim (missing : String) : Control AuthorityClaim := do
  let claim ← currentSourceClaim
  orThrow claim (.plain .notAuthoritative missing)

/-- Acknowledge the outstanding fences of an incarnation, with `after` for each of them. -/
def acknowledgeFences (shard : ShardId) (target : IncarnationId) (after : FenceRecord → Control Unit) :
    List FenceRecord → Control Unit
  | [] => return ()
  | fence :: rest =>
    if !fence.acknowledged ∧ fence.target = target then do
      let outcome ← authorityOp (.acknowledgeFence shard target fence.id)
      Eff.lift outcome.check
      after fence
      acknowledgeFences shard target after rest
    else acknowledgeFences shard target after rest

/-- The report of the component an incarnation belongs to. -/
def reportOn (c : Controller) (holder : IncarnationId) : Option NodeReport :=
  match c.lastSourceReport.filter (·.component = holder.component) with
  | some report => some report
  | none => c.lastTargetReport.filter (·.component = holder.component)

/-- A lease held by an incarnation its component has provably replaced is revoked, together with any fence that
was still waiting for it. -/
def revokeReplaced (manifest : EvolutionManifest) (view : AuthorityView) : Control Unit := do
  let c ← Eff.get
  match view.slotHolder with
  | none => return ()
  | some holder =>
    match (reportOn c holder.holder).filter (provablyReplaced holder.holder ·.incarnation) with
    | none => return ()
    | some _ =>
      acknowledgeFences manifest.shard holder.holder (fun _ => return ()) view.fences
      let revoked ← authorityOp
        (.revoke manifest.shard holder.id "holder incarnation was provably replaced by a fresh boot")
      Eff.lift revoked.check
      let atMs ← now
      append
        { kind := .leaseRevoked
          shard := manifest.shard
          epoch := holder.epoch
          generation := holder.generation
          atMs
          payload := .ofPairs [("holder", .string holder.holder.toString),
            ("reason", .string "incarnation provably replaced")] }

/-- A report of a later boot of the component that `recorded` belongs to. -/
def replacing (report : Option NodeReport) (recorded : IncarnationId) : Option NodeReport :=
  report.filter fun report =>
    recorded.component = report.component && provablyReplaced recorded report.incarnation

/-- The successor was replaced: rewind, or re-bind once authority has moved. -/
def rebindSuccessor : Control Unit := do
  let c ← Eff.get
  let handoff ← theHandoff
  match replacing c.lastTargetReport handoff.successor with
  | none => return ()
  | some report =>
    if handoff.phase.value < HandoffPhase.authorityTransferred.value then
      restartHandoff handoff.predecessor report.incarnation
        (if HandoffPhase.predecessorFenced.value ≤ handoff.phase.value then .prepared else .notStarted)
        "successor incarnation was replaced during the handoff"
    else
      modifyHandoff ({ · with successor := report.incarnation })
      save

def reconcileIncarnations : Control Unit := do
  let c ← Eff.get
  match c.manifest, c.handoff with
  | some manifest, some _ =>
    let view ← Eff.attempt (view manifest.shard)
    match view with
    | .error _ => return ()
    | .ok view =>
      revokeReplaced manifest view
      let c ← Eff.get
      let handoff ← theHandoff
      match replacing c.lastSourceReport handoff.predecessor with
      | none => rebindSuccessor
      | some report =>
        if handoff.phase.value < HandoffPhase.predecessorFenced.value then
          restartHandoff report.incarnation handoff.successor .notStarted
            "predecessor incarnation was replaced before authority moved"
        else rebindSuccessor
  | _, _ => return ()

/-! ## Preparation and snapshot -/

/-- The request that prepares the successor for state of the source claim. -/
def prepareSuccessorBody (manifest : EvolutionManifest) (handoff : HandoffRecord) (claim : AuthorityClaim) :
    PrepareBody :=
  { handoff := some handoff.id
    role := some "successor"
    manifestDigest := some (some manifest.digest)
    targetSoftware := some ⟨manifest.target.software.toString, some manifest.target.software⟩
    targetProtocol := some ⟨manifest.target.protocol.toString, some manifest.target.protocol⟩
    targetSchema := some manifest.target.schema
    source := some (.ok (.ofClaim claim manifest.source.schema handoff.id)) }

def preparePredecessorBody (manifest : EvolutionManifest) (handoff : HandoffRecord) : PrepareBody :=
  { handoff := some handoff.id, role := some "predecessor", manifestDigest := some (some manifest.digest) }

def advancePrepared : Control Unit := do
  let source ← reportOf .source
  let target ← reportOf .target
  setReports source target
  ensurePredecessorAuthority setup
  let claim ← sourceClaim "predecessor holds no mutating authority to hand off"
  let manifest ← theManifest
  let handoff ← theHandoff
  let _ ← callOk .source (.prepare (preparePredecessorBody manifest handoff))
  let _ ← callOk .target (.prepare (prepareSuccessorBody manifest handoff claim))
  modifyHandoff ({ · with epoch := claim.epoch, generation := claim.generation })
  recordPhase .prepared "predecessor and successor prepared"

def advanceSnapshot : Control Unit := do
  let claim ← sourceClaim "no source authority claim is recorded"
  let manifest ← theManifest
  let handoff ← theHandoff
  -- Preparation is idempotent; a successor that restarted rejoins with a fresh binding.
  let _ ← callOk .target (.prepare (prepareSuccessorBody manifest handoff claim))
  let answer ← callOk .source (.snapshot (some handoff.id))
  let image ← Eff.lift answer.snapshot?
  let _ ← callOk .target (.installSnapshot (some handoff.id) (some image.body))
  modifyHandoff ({ · with
    snapshot := image.id, snapshotDigest := image.digest, snapshotLsn := image.lsn, targetLsn := image.lsn })
  recordPhase .snapshotSynchronized "snapshot transferred and verified by the successor"

/-! ## Catch-up and migration -/

/-- The request that applies a batch on the successor. -/
def applyBody (manifest : EvolutionManifest) (handoff : HandoffRecord) (claim : AuthorityClaim)
    (entries : List ReplicationRecord) : ApplyBody :=
  { handoff := some handoff.id
    source := some (.ok (.ofClaim claim manifest.source.schema handoff.id))
    records := some (entries.map .ok) }

def readRequest (setup : ControllerSetup) (fromLsn : Nat) : NodeRequest :=
  .readSince (some fromLsn) (some setup.options.maxRecordsPerRound)

/-- The rounds of incremental catch-up; a truncated log refreshes the snapshot, at most twice. -/
def catchUpLoop : Nat → Nat → Nat → Control Unit
  | 0, _, _ => return ()
  | rounds + 1, refreshes, targetLsn => do
    let answer ← callOk .source (readRequest setup targetLsn)
    if answer.isTruncated then
      if refreshes ≥ 2 then
        Eff.throw (.plain .migrationFailure ("incremental catch-up cannot proceed and the snapshot keeps being " ++
          "truncated by the predecessor log bound"))
      else
        advanceSnapshot
        let handoff ← theHandoff
        catchUpLoop rounds (refreshes + 1) handoff.targetLsn
    else
      let entries ← orThrow answer.records? (malformed "read_since response has no records array")
      if entries.isEmpty ∨ answer.lsnOr 0 ≤ targetLsn then return ()
      else
        let claim ← sourceClaim "no source authority claim is recorded"
        let manifest ← theManifest
        let handoff ← theHandoff
        let applied ← callOk .target (.applyRecords (applyBody manifest handoff claim entries))
        if applied.lsnOr targetLsn ≤ targetLsn then return ()
        else
          modifyHandoff ({ · with targetLsn := applied.lsnOr targetLsn })
          catchUpLoop rounds refreshes (applied.lsnOr targetLsn)

/-- The boundaries a campaign records when its migration crossed one. -/
def crossBoundaries (migrations : List MigrationStepSpec) (campaign : CampaignRecord) : CampaignRecord :=
  { campaign with
    irreversibleBoundaryCrossed := true
    crossedBoundaries := (migrations.filter (·.irreversibleBoundary)).foldl
      (fun crossed step => if step.id ∈ crossed then crossed else crossed ++ [step.id]) campaign.crossedBoundaries }

/-- The successor migrates; an irreversible boundary is recorded. -/
def migrateSuccessor (manifest : EvolutionManifest) : Control Unit := do
  let handoff ← theHandoff
  let migrated ← callOk .target (.migrate (some handoff.id) (some (manifest.migrations.map .ok)))
  if migrated.crossedIrreversibleBoundary then
    modifyCampaign (crossBoundaries manifest.migrations)
    let atMs ← now
    append (handoffEvent .migrationApplied manifest.shard handoff atMs (.ofPairs
      [("state_digest_after", .string migrated.stateDigestAfter), ("irreversible", .bool true)]))
  else return ()

def advanceCatchUp : Control Unit := do
  let handoff ← theHandoff
  catchUpLoop setup setup.options.maxCatchUpRounds 0 handoff.targetLsn
  let source ← reportOf .source
  let target ← reportOf .target
  setReports source target
  if target.lsn < source.lsn then
    Eff.throw ⟨.notReady, "successor has not caught up with the predecessor's log position",
      .ofPairs [("predecessor_lsn", .uint source.lsn), ("successor_lsn", .uint target.lsn)]⟩
  else
    modifyHandoff ({ · with targetLsn := source.lsn })
    let manifest ← theManifest
    Eff.whenever (target.schema ≠ manifest.target.schema) (migrateSuccessor manifest)
    recordPhase .caughtUp "successor caught up and migrated to the target schema"

def advanceReadiness : Control Unit := do
  let manifest ← theManifest
  let handoff ← theHandoff
  let answer ← callOk .target (.readiness (some handoff.id) handoff.targetLsn manifest.target.schema)
  if !answer.ready?.1 then Eff.throw (.plain .notReady answer.ready?.2)
  else
    modifyHandoff fun handoff => { handoff with targetLsn := answer.lsnOr handoff.targetLsn }
    recordPhase .readinessVerified "successor reported ready"

/-! ## Fence -/

/-- The latest outstanding fence of an incarnation. -/
def outstandingFence (view : AuthorityView) (target : IncarnationId) : Option FenceRecord :=
  view.fences.reverse.find? fun fence => !fence.acknowledged && fence.target = target

/-- The journal entry of an acknowledged fence; `origin` names what the acknowledgement came from. -/
def acknowledgedEvent (shard : ShardId) (fence : FenceRecord) (holder : IncarnationId) (origin : List (String × Json))
    (atMs : Nat) : EpochEvent :=
  { kind := .fenceAcknowledged
    shard
    epoch := fence.epoch
    generation := fence.generation
    atMs
    payload := .ofPairs ([("fence_id", .uint fence.id), ("holder", .string holder.toString)] ++ origin) }

/-- The predecessor reports that it is fenced: the report acknowledges what is outstanding. -/
def acceptFencedReport (manifest : EvolutionManifest) (handoff : HandoffRecord) (view : AuthorityView) :
    Control Unit := do
  acknowledgeFences manifest.shard handoff.predecessor (fun fence => do
    let atMs ← now
    append (acknowledgedEvent manifest.shard fence handoff.predecessor [("source", .string "component report")] atMs))
    view.fences
  recordPhase .predecessorFenced "predecessor reports it is already fenced"

/-- The outstanding fence of the predecessor, requested if there is none. -/
def requestedFence (manifest : EvolutionManifest) (handoff : HandoffRecord) (view : AuthorityView) :
    Control FenceRecord := do
  match outstandingFence view handoff.predecessor with
  | some fence => return fence
  | none =>
    let outcome ← authorityOp
      (.requestFence manifest.shard handoff.predecessor "handoff phase predecessor fence")
    match outcome with
    | .refused refusal => if refusal.code ≠ .duplicateFrame then Eff.throw refusal else findRequested
    | _ => findRequested
where
  findRequested : Control FenceRecord := do
    save
    let view ← Control.view manifest.shard
    orThrow (outstandingFence view handoff.predecessor)
      (.plain .internal "fence was requested but no outstanding fence exists")

/-- The fence stays outstanding while the predecessor has neither acknowledged nor provably died. -/
def deferFence (fence : FenceRecord) (refusal : Status) : Control Unit := do
  let reason := "predecessor has not acknowledged the fence: " ++ refusal.message
  Eff.modify fun c => { c with lastDeferralReason := reason }
  saveQuietly
  Eff.throw ⟨.notReady, reason, .ofPairs [("fence_id", .uint fence.id)]⟩

/-- Fence the predecessor and record its acknowledgement. -/
def fencePredecessor (manifest : EvolutionManifest) (handoff : HandoffRecord) (view : AuthorityView) :
    Control Unit := do
  let fence ← requestedFence manifest handoff view
  let answer ← call .source (.fence
    { handoff := some handoff.id, fenceId := some fence.id, target := some (.ok handoff.predecessor) })
  match answer with
  | .error refusal => deferFence fence refusal
  | .ok _ =>
    let outcome ← authorityOp (.acknowledgeFence manifest.shard handoff.predecessor fence.id)
    Eff.lift outcome.check
    modifyHandoff ({ · with fence := fence.id, epoch := fence.epoch, generation := fence.generation })
    let atMs ← now
    append (acknowledgedEvent manifest.shard fence handoff.predecessor [] atMs)
    recordPhase .predecessorFenced "predecessor acknowledged the fence"

def isFencedLifecycle (lifecycle : NodeLifecycle) : Bool := lifecycle = .fenced || lifecycle = .retired

def advanceFence : Control Unit := do
  let manifest ← theManifest
  let handoff ← theHandoff
  let view ← view manifest.shard
  let c ← Eff.get
  if view.mutating.isNone ∧ (c.lastSourceReport.any (isFencedLifecycle ·.lifecycle)) then
    acceptFencedReport manifest handoff view
  else fencePredecessor manifest handoff view

/-! ## Transfer -/

/-- The rounds of the final catch-up towards the position the fenced predecessor reported. -/
def transferLoop (sourceLsn : Nat) : Nat → Control Unit
  | 0 => return ()
  | rounds + 1 => do
    let target ← reportOf .target
    if target.lsn ≥ sourceLsn then return ()
    else
      let answer ← callOk .source (readRequest setup target.lsn)
      match answer.records? with
      | none | some [] => return ()
      | some entries =>
        let claim ← sourceClaim "no source authority claim is recorded"
        let manifest ← theManifest
        let handoff ← theHandoff
        let _ ← callOk .target (.applyRecords (applyBody manifest handoff claim entries))
        transferLoop sourceLsn rounds

/-- Grant the successor; a lease that is not delivered is revoked. -/
def transferAuthority : Control Unit := do
  let manifest ← theManifest
  let handoff ← theHandoff
  let granted ← grant
    { grantRequest setup manifest handoff.successor "authority transferred to the successor" with handoff := handoff.id }
  let lease ← Eff.lift granted
  let delivered ← deliver setup .target lease
  match delivered with
  | .error refusal =>
    let _ ← authorityOp (.revoke manifest.shard lease.id "grant delivery failed")
    saveQuietly
    Eff.throw refusal
  | .ok _ =>
    modifyHandoff ({ · with token := lease.token, epoch := lease.epoch, generation := lease.generation })
    let atMs ← now
    append (grantedEvent manifest lease atMs)
    recordPhase .authorityTransferred "mutating authority granted to the successor"

def advanceTransfer : Control Unit := do
  -- The predecessor is fenced, so its log position is now stable.
  let source ← reportOf .source
  transferLoop setup source.lsn setup.options.maxCatchUpRounds
  modifyHandoff ({ · with targetLsn := source.lsn })
  Eff.modify fun c => { c with lastSourceReport := some source }
  transferAuthority setup

/-! ## Verification and retirement -/

def probeKey : String := "__evolution_probe__"

def probe (claim : AuthorityClaim) (value : String) : NodeRequest :=
  .write { claim := some (.ok claim), key := some probeKey, value := some value }

/-- Active proof that the fenced predecessor can no longer mutate: its own pre-fence claim is refused. -/
def proveFenced (handoff : HandoffRecord) : Control Unit := do
  let c ← Eff.get
  match c.fencedPredecessorClaim with
  | none => return ()
  | some claim =>
    let stale ← call .source (probe claim "stale-write-attempt")
    match stale with
    | .error _ => return ()
    | .ok _ => Eff.throw ⟨.authorityConflict,
        "the fenced predecessor accepted a mutating write; refusing to declare the handoff safe",
        .ofPairs [("predecessor", .string handoff.predecessor.toString)]⟩

def advanceVerify : Control Unit := do
  let manifest ← theManifest
  let handoff ← theHandoff
  let view ← Eff.attempt (view manifest.shard)
  match view.toOption.bind (·.mutating) with
  | none => Eff.throw (.plain .notAuthoritative "no mutating authority is recorded")
  | some lease =>
    let target ← reportOf .target
    if !target.hasAuthority ∨ target.token ≠ lease.token ∨ target.generation ≠ lease.generation ∨
        target.epoch ≠ lease.epoch then
      Eff.throw ⟨.notReady, "successor does not attest the transferred authority",
        .ofPairs [("successor_generation", .uint target.generation), ("expected_generation", .uint lease.generation),
          ("successor_authoritative", .bool target.hasAuthority)]⟩
    else
      proveFenced handoff
      let _ ← callOk .target (probe lease.claim (toString lease.generation))
      recordPhase .successorVerified "successor attested authority and the predecessor was proven fenced"

def advanceRetire : Control Unit := do
  let handoff ← theHandoff
  let _ ← callOk .source (.retire (some handoff.id))
  recordPhase .predecessorRetired "predecessor retired; successor is authoritative"
  applyAction .complete

end Control

end FabricEvolution
