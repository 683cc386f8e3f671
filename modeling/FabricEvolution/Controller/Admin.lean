import FabricEvolution.Controller.Phases

/-!
# The administrative operations

* `plan`, `preflight`, `beginHandoff`, `advance`, `runLoop`, `start`, `runToCompletion`, `pause`, `resume`,
  `abort`, `reconcile` : the operations;
* `AdminOp`, `AdminOp.control` : an operation by its name.
-/

namespace FabricEvolution
open Lib

namespace CampaignRecord

def toJson (record : CampaignRecord) : Json :=
  (Json.object []).set "id" (.string record.id.str)
    |>.set "manifest" (.string record.manifest.str)
    |>.set "manifest_digest" (.string record.manifestDigest.toHex)
    |>.set "shard" (.string record.shard.str)
    |>.set "state" (.string record.state.name)
    |>.set "handoff" (.uint record.handoff)
    |>.set "revision" (.uint record.revision)
    |>.set "epoch" (.uint record.epoch)
    |>.set "generation" (.uint record.generation)
    |>.set "operations_in_window" (.uint record.operationsInWindow)
    |>.set "window_started_at_ms" (.uint record.windowStartedAtMs)
    |>.set "updated_at_ms" (.uint record.updatedAtMs)
    |>.set "irreversible_boundary_crossed" (.bool record.irreversibleBoundaryCrossed)
    |>.set "crossed_boundaries" (.array (record.crossedBoundaries.map fun boundary => .string boundary.str))
    |>.set "detail" (.string record.detail)
    |>.set "events" (.array (record.events.map fun event =>
      (Json.object []).set "from" (.string event.source.name)
        |>.set "to" (.string event.target.name)
        |>.set "action" (.string event.action.name)
        |>.set "at_ms" (.uint event.atMs)
        |>.set "detail" (.string event.detail)))

end CampaignRecord

namespace Control
variable (setup : ControllerSetup)

/-! ## Plan and preflight -/

/-- Establish the shard of a manifest, if nothing did before. -/
def establishShard (manifest : EvolutionManifest) : Control Unit := do
  let c ← Eff.get
  if (c.authority.find manifest.shard).isSome then return ()
  else
    let outcome ← authorityOp (.establish manifest.shard c.nextEpoch)
    Eff.lift outcome.check
    let atMs ← now
    append
      { kind := .shardEstablished
        shard := manifest.shard
        epoch := c.nextEpoch
        generation := 1
        atMs
        payload := .ofPairs [("controller", .string setup.options.controllerId.str)] }

/-- The record of a campaign that was just planned. -/
def plannedCampaign (c : Controller) (manifest : EvolutionManifest) (updatedAtMs atMs : Nat) : CampaignRecord :=
  { id := manifest.campaign
    manifest := manifest.id
    manifestDigest := manifest.digest
    shard := manifest.shard
    epoch := (currentEpoch c manifest.shard).getD 0
    generation := (currentGeneration c manifest.shard).getD 0
    updatedAtMs
    detail := "planned"
    events := [⟨.planned, .planned, .plan, atMs, "manifest admitted"⟩] }

/-- A running campaign is not replaced. -/
def refuseRunning (c : Controller) : Result Unit :=
  match c.campaign.filter (!·.state.isTerminal) with
  | some campaign => .error ⟨.conflict, "a campaign is already in progress", campaign.toJson⟩
  | none => .ok ()

def plan (manifest : EvolutionManifest) : Control Unit := do
  let c ← Eff.get
  Eff.lift (refuseRunning c)
  let sealed ← Eff.lift (setup.admission manifest)
  establishShard setup sealed
  Eff.modify fun c => { c with manifest := some sealed }
  let updatedAtMs ← now
  let atMs ← now
  Eff.modify fun c => { c with
    campaign := some (plannedCampaign c sealed updatedAtMs atMs)
    sourceEndpoint := some (Controller.endpointOf sealed.source)
    targetEndpoint := some (Controller.endpointOf sealed.target) }
  save

def helloFrom (role : NodeRole) : Control ProtocolHello := do
  let answer ← callOk role .hello
  Eff.lift answer.hello?

/-- The checks of a preflight. -/
def preflightChecks : Control Unit := do
  bindNodes
  let source ← helloFrom .source
  let target ← helloFrom .target
  let manifest ← theManifest
  Eff.lift (setup.negotiate manifest source target)
  let _ ← Eff.lift (manifest.migrations.mapM resolveMigrationStep)
  ensurePredecessorAuthority setup

def failPreflight (refusal : Status) : Control Unit := do
  modifyCampaign fun campaign => { campaign with state := .failed, detail := refusal.message }
  saveQuietly
  Eff.throw refusal

def preflight : Control Unit := do
  let _ ← theManifest
  applyAction .preflight
  let checked ← Eff.attempt (preflightChecks setup)
  match checked with
  | .error refusal => failPreflight refusal
  | .ok () => save

/-! ## The handoff begins -/

/-- The record of a handoff between the components the reports are from. -/
def begunHandoff (c : Controller) (manifest : EvolutionManifest) (source target : NodeReport) (startedAtMs : Nat) :
    HandoffRecord :=
  { id := c.nextHandoffId
    campaign := manifest.campaign
    shard := manifest.shard
    manifest := manifest.id
    manifestDigest := manifest.digest
    predecessor := source.incarnation
    successor := target.incarnation
    epoch := (currentEpoch c manifest.shard).getD 0
    generation := (currentGeneration c manifest.shard).getD 0
    startedAtMs
    updatedAtMs := startedAtMs }

/-- The lease of the predecessor is recorded as the claim the fence will put out. -/
def recordPredecessorClaim (manifest : EvolutionManifest) : Control Unit := do
  let view ← Eff.attempt (view manifest.shard)
  let handoff ← theHandoff
  match view.toOption.bind (·.mutating) with
  | none => return ()
  | some lease =>
    Eff.modify fun c =>
      if lease.holder = handoff.predecessor ∧ c.fencedPredecessorClaim.isNone then
        { c with fencedPredecessorClaim := some lease.claim }
      else c

/-- The mixed-version window opens at the position of the source. -/
def openWindow (manifest : EvolutionManifest) : Control Unit := do
  let campaign ← theCampaign
  if campaign.windowStartedAtMs ≠ 0 then return ()
  else
    let startedAtMs ← now
    modifyCampaign ({ · with windowStartedAtMs := startedAtMs })
    Eff.modify fun c => { c with windowStartLsn := (c.lastSourceReport.map (·.lsn)).getD 0 }
    let atMs ← now
    let c ← Eff.get
    let handoff ← theHandoff
    append (handoffEvent .reconciliation manifest.shard handoff atMs (.ofPairs
      [("window", .string "opened"), ("start_lsn", .uint c.windowStartLsn)]))

/-- The handoff record of the bound nodes. -/
def createHandoff (manifest : EvolutionManifest) : Control Unit := do
  let startedAtMs ← now
  let c ← Eff.get
  match c.lastSourceReport, c.lastTargetReport with
  | some source, some target =>
    Eff.modify fun c => { c with
      handoff := some (begunHandoff c manifest source target startedAtMs)
      nextHandoffId := wrapAdd c.nextHandoffId 1
      campaign := c.campaign.map ({ · with handoff := c.nextHandoffId }) }
  | _, _ => return ()

def beginHandoff : Control Unit := do
  let c ← Eff.get
  match c.manifest, c.campaign, c.handoff with
  | some _, some _, some _ => return ()
  | some manifest, some _, none =>
    applyAction .start
    bindNodes
    createHandoff manifest
    ensurePredecessorAuthority setup
    recordPredecessorClaim manifest
    openWindow manifest
    save
  | _, _, _ => Eff.throw noCampaign

/-! ## Advance and run -/

/-- The campaign with the operations its window has seen. -/
def observedCampaign (c : Controller) (campaign : CampaignRecord) : CampaignRecord :=
  let seen := fun report : Option NodeReport => (report.map (·.lsn)).getD 0
  let highest := max c.windowStartLsn (max (seen c.lastSourceReport) (seen c.lastTargetReport))
  if campaign.windowStartedAtMs ≠ 0 ∧ highest > c.windowStartLsn then
    { campaign with operationsInWindow := highest - c.windowStartLsn }
  else campaign

def windowStatus : Control WindowStatus := do
  let c ← Eff.get
  match c.campaign, c.manifest with
  | some campaign, some manifest =>
    let nowMs ← now
    return evaluateWindow (observedCampaign c campaign) manifest.effectiveWindow nowMs
  | _, _ => return { reason := "no campaign is loaded" }

/-- The lease the phase calls for is kept alive. -/
def renewForPhase : Control Unit := do
  let handoff ← theHandoff
  if handoff.phase.isForward ∧ handoff.phase.value < HandoffPhase.predecessorFenced.value then
    ensurePredecessorAuthority setup
  else Eff.whenever (HandoffPhase.authorityTransferred.value ≤ handoff.phase.value) (ensureSuccessorAuthority setup)

/-- An exhausted window pauses the campaign. -/
def refuseExhausted (window : WindowStatus) : Control Unit := do
  let _ ← Eff.attempt (applyAction .pause)
  Eff.throw ⟨.notReady, window.reason, .ofPairs [("operations", .uint window.operations),
    ("operation_limit", .uint window.operationLimit), ("elapsed_ms", .uint window.elapsedMs),
    ("duration_limit_ms", .uint window.durationLimitMs)]⟩

/-- The step of the phase the handoff is in. -/
def advancePhase (phase : HandoffPhase) : Control Unit :=
  match phase with
  | .notStarted => advancePrepared setup
  | .prepared => advanceSnapshot
  | .snapshotSynchronized => advanceCatchUp setup
  | .caughtUp => advanceReadiness
  | .readinessVerified => advanceFence
  | .predecessorFenced => advanceTransfer setup
  | .authorityTransferred => advanceVerify
  | .successorVerified => advanceRetire
  | .predecessorRetired => return ()
  | .failed | .aborted => Eff.throw (.plain .illegalTransition "the handoff has already terminated")

/-- One phase of a handoff that has begun. -/
def advanceHandoff : Control Unit := do
  bindNodes
  reconcileIncarnations
  renewForPhase setup
  let window ← windowStatus
  if window.exhausted then refuseExhausted window
  else
    let handoff ← theHandoff
    Eff.perform (ControllerOp.enter handoff.phase)
    advancePhase setup handoff.phase

def advance : Control Unit := do
  let c ← Eff.get
  match c.manifest, c.campaign with
  | some _, some campaign =>
    if campaign.state = .paused then Eff.throw (.plain .notReady "the campaign is paused")
    else if campaign.state.isTerminal then return ()
    else
      Eff.whenever c.handoff.isNone (beginHandoff setup)
      advanceHandoff setup
  | _, _ => Eff.throw noCampaign

/-- `run_to_completion` of a handoff, phase by phase. -/
def runLoop : Nat → Control Unit
  | 0 => Eff.throw
      (.plain .resourceExhausted "handoff did not reach retirement within the permitted number of phases")
  | steps + 1 => do
    let c ← Eff.get
    match c.campaign, c.handoff with
    | some campaign, some _ =>
      if campaign.state = .paused ∨ campaign.state.isTerminal then return ()
      else
        advance setup
        let handoff ← theHandoff
        if handoff.phase = .predecessorRetired then return () else runLoop steps
    | _, _ => Eff.throw (notFound "no campaign is in progress")

def maxRunSteps : Nat := 64

/-- `run_to_completion` of a campaign whose handoff has begun. -/
def runHandoff : Control Unit := do
  let _ ← theCampaign
  runLoop setup maxRunSteps

def start : Control Unit := do
  beginHandoff setup
  runHandoff setup

def runToCompletion : Control Unit := do
  let _ ← theCampaign
  let c ← Eff.get
  if c.handoff.isNone then start setup else runHandoff setup

/-! ## Pause, resume, abort -/

def pause : Control Unit := applyAction .pause

def resume : Control Unit := do
  applyAction .resume
  runToCompletion setup

/-- The predecessor keeps or regains authority; what stands in the way is only noted. -/
def restorePredecessor (manifest : EvolutionManifest) : Control Unit := do
  let report ← Eff.attempt (reportOf .source)
  match report with
  | .error _ => return ()
  | .ok report =>
    let view ← Eff.attempt (view manifest.shard)
    if (view.toOption.bind (·.mutating)).any (·.holder = report.incarnation) then return ()
    else
      let granted ← grant (grantRequest setup manifest report.incarnation
        "authority restored to the predecessor after a reversible abort")
      match granted with
      | .error _ => return ()
      | .ok lease =>
        let _ ← deliver setup .source lease
        return ()

def retireSuccessor : Control Unit := do
  let handoff ← theHandoff
  let _ ← call .target (.retire (some handoff.id))
  return ()

/-- The rollback of an accepted abort. -/
def rollBack (manifest : EvolutionManifest) : Control Unit := do
  let c ← Eff.get
  Eff.whenever (c.sourceEndpoint.isSome ∧ c.handoff.isSome) (restorePredecessor setup manifest)
  Eff.whenever (c.targetEndpoint.isSome ∧ c.handoff.isSome) retireSuccessor
  Eff.whenever c.handoff.isSome do
    modifyHandoff ({ · with phase := .aborted })
    let updatedAtMs ← now
    modifyHandoff ({ · with updatedAtMs := updatedAtMs, lastError := "campaign aborted before authority moved" })
  applyAction .confirmAbort
  save

def abort : Control Unit := do
  let c ← Eff.get
  match c.manifest, c.campaign with
  | some manifest, some _ =>
    applyAction .abort
    let campaign ← theCampaign
    if campaign.state = .aborted then return ()
    else if campaign.state = .forwardRecovery then runToCompletion setup
    else rollBack setup manifest
  | _, _ => Eff.throw noCampaign

/-! ## Reconciliation -/

/-- Authority is restored to the predecessor before the fence, to the successor after the transfer. -/
def reconcileAuthority : Control Unit := do
  let c ← Eff.get
  let value := c.handoff.map (·.phase.value)
  Eff.whenever (value.all (· < HandoffPhase.predecessorFenced.value)) do
    let _ ← Eff.attempt (ensurePredecessorAuthority setup)
    return ()
  let c ← Eff.get
  let value := c.handoff.map (·.phase.value)
  Eff.whenever (value.any (HandoffPhase.authorityTransferred.value ≤ ·)) do
    let _ ← Eff.attempt (ensureSuccessorAuthority setup)
    return ()

/-- The successor reports the transferred authority. -/
def reconcileTransfer (manifest : EvolutionManifest) : Control Unit := do
  let view ← Eff.attempt (view manifest.shard)
  let c ← Eff.get
  let handoff ← theHandoff
  match view.toOption.bind (·.mutating), c.lastTargetReport with
  | some lease, some target =>
    Eff.whenever (lease.holder = handoff.successor ∧ target.hasAuthority ∧ target.token = lease.token ∧
        handoff.phase.value < HandoffPhase.authorityTransferred.value)
      (recordPhase .authorityTransferred
        "reconciled: the successor reported the transferred authority after a controller restart")
  | _, _ => return ()

/-- The predecessor reports that it is fenced. -/
def reconcileFence : Control Unit := do
  let c ← Eff.get
  let handoff ← theHandoff
  Eff.whenever ((c.lastSourceReport.any (isFencedLifecycle ·.lifecycle)) ∧ handoff.phase = .readinessVerified)
    (recordPhase .predecessorFenced "reconciled: the predecessor reports it is already fenced")

/-- The predecessor is a new incarnation. -/
def reconcilePredecessor : Control Unit := do
  let c ← Eff.get
  let handoff ← theHandoff
  match c.lastSourceReport.filter (provablyReplaced handoff.predecessor ·.incarnation) with
  | none => return ()
  | some report =>
    Eff.whenever (!handoff.phase.isTerminal ∧ handoff.phase.value < HandoffPhase.predecessorFenced.value)
      (restartHandoff report.incarnation handoff.successor .notStarted
        "reconciled after restart: the predecessor is a new incarnation")

/-- The journal entry of a reconciliation. -/
def reconciledEvent (c : Controller) (manifest : EvolutionManifest) (handoff : HandoffRecord) (atMs : Nat) : EpochEvent :=
  { kind := .reconciliation
    shard := manifest.shard
    epoch := (currentEpoch c manifest.shard).getD 0
    generation := (currentGeneration c manifest.shard).getD 0
    atMs
    payload := .ofPairs [("handoff_phase", .string handoff.phase.name),
      ("controller_boot", .uint c.controllerIncarnation.boot)] }

/-- What reports and registry say of the handoff. -/
def reconcileHandoff (manifest : EvolutionManifest) : Control Unit := do
  reconcileTransfer manifest
  reconcileFence
  reconcilePredecessor
  let atMs ← now
  let c ← Eff.get
  let handoff ← theHandoff
  append (reconciledEvent c manifest handoff atMs)
  save

def reconcile : Control Unit := do
  let manifest ← theManifest
  bindNodes
  reconcileIncarnations
  reconcileAuthority setup
  let c ← Eff.get
  if c.handoff.isNone then return () else reconcileHandoff manifest

end Control

/-! ## Operations by name -/

inductive AdminOp where
  | plan (manifest : EvolutionManifest)
  | preflight
  | start
  | advance
  | run
  | pause
  | resume
  | abort
  | reconcile

def AdminOp.control (setup : ControllerSetup) : AdminOp → Control Unit
  | plan manifest => Control.plan setup manifest
  | preflight => Control.preflight setup
  | start => Control.start setup
  | advance => Control.advance setup
  | run => Control.runToCompletion setup
  | pause => Control.pause
  | resume => Control.resume setup
  | abort => Control.abort setup
  | reconcile => Control.reconcile setup

end FabricEvolution
