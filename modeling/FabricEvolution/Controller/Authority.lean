import FabricEvolution.Controller.Memory

/-!
# Campaign actions and the authority of a holder

* `applyAction` : a campaign action, decided by `evaluateCampaignAction` and recorded;
* `bindNodes` : fresh reports of the two nodes;
* `ensureHolderAuthority` : grant, renew or re-attest the mutating lease of the component a report is from.
-/

namespace FabricEvolution
open Lib

namespace Control
variable (setup : ControllerSetup)

/-! ## Campaign actions -/

/-- The journal entry of a campaign transition. -/
def transitionEvent (campaign : CampaignRecord) (source : CampaignState) (action : CampaignAction) (rule : String)
    (atMs : Nat) : EpochEvent :=
  { kind := .campaignTransition
    shard := campaign.shard
    epoch := campaign.epoch
    generation := campaign.generation
    atMs
    payload := .ofPairs [("from", .string source.name), ("to", .string campaign.state.name),
      ("action", .string action.name), ("rule", .string rule)] }

/-- An accepted action: the campaign enters `target`. -/
def acceptAction (action : CampaignAction) (source target : CampaignState) (rule reason : String) :
    Control Unit := do
  modifyCampaign fun campaign => { campaign with state := target }
  let updatedAtMs ← now
  modifyCampaign fun campaign => { campaign with
    updatedAtMs := updatedAtMs, revision := wrapAdd campaign.revision 1, detail := reason }
  let atMs ← now
  modifyCampaign fun campaign => { campaign with
    events := pushBounded maxCampaignEvents campaign.events ⟨source, target, action, atMs, reason⟩ }
  let eventAtMs ← now
  let campaign ← theCampaign
  append (transitionEvent campaign source action rule eventAtMs)
  save

/-- A deferred action is only noted. -/
def deferAction (rule reason : String) : Control Unit := do
  Eff.modify fun c => { c with lastDeferralReason := reason }
  let deferralMs ← now
  Eff.modify fun c => { c with lastPauseDeferralMs := deferralMs }
  saveQuietly
  Eff.throw ⟨.notReady, reason, .ofPairs [("rule", .string rule)]⟩

/-- The decision of the campaign state machine on an action. -/
def decision (c : Controller) (campaign : CampaignRecord) (manifest : EvolutionManifest) (action : CampaignAction) :
    ActionDecision :=
  let transferred := (c.handoff.map (·.reached .authorityTransferred)).getD false
  evaluateCampaignAction campaign action (c.handoff.getD default)
    (campaign.irreversibleBoundaryCrossed || transferred) manifest.id

def applyAction (action : CampaignAction) : Control Unit := do
  let c ← Eff.get
  match c.campaign, c.manifest with
  | some campaign, some manifest =>
    match decision c campaign manifest action with
    | .rejected rule reason => Eff.throw ⟨.illegalTransition, reason, .ofPairs [("rule", .string rule)]⟩
    | .deferred rule reason => deferAction rule reason
    | .accepted target rule reason => acceptAction action campaign.state target rule reason
  | _, _ => Eff.throw noCampaign

/-! ## Reports -/

def endpointsUnbound : Status := notFound "manifest endpoints are not bound"

def reportOf (role : NodeRole) : Control NodeReport := do
  let answer ← callOk role .status
  Eff.lift answer.report?

/-- A refusal of `bind_nodes`. -/
def unreachable (component : String) (refusal : Status) : Status :=
  .plain refusal.code (component ++ " component is unreachable: " ++ refusal.message)

def reportFor (role : NodeRole) (component : String) : Control NodeReport := do
  let report ← Eff.attempt (reportOf role)
  Eff.lift (report.mapError (unreachable component))

def setReports (source target : NodeReport) : Control Unit :=
  Eff.modify fun c => { c with lastSourceReport := some source, lastTargetReport := some target }

/-- Fresh reports of both nodes, or none. -/
def bindNodes : Control Unit := do
  let c ← Eff.get
  if c.sourceEndpoint.isNone ∨ c.targetEndpoint.isNone then Eff.throw endpointsUnbound
  else
    let source ← reportFor .source "source"
    let target ← reportFor .target "target"
    setReports source target

/-! ## The authority of a holder -/

def grantRequest (manifest : EvolutionManifest) (holder : IncarnationId) (reason : String) : GrantRequest :=
  { shard := manifest.shard, holder, mode := .mutating, ttlMs := setup.options.leaseTtlMs,
    campaign := manifest.campaign, reason }

/-- A grant of the registry. -/
def grant (request : GrantRequest) : Control (Result AuthorityLease) := do
  let outcome ← authorityOp (.grant request)
  return outcome.lease

/-- Deliver a lease to its holder; the handoff id is 1 while there is no handoff. -/
def deliver (role : NodeRole) (lease : AuthorityLease) : Control (Result NodeAnswer) := do
  let c ← Eff.get
  call role (.grantAuthority (.ofLease lease ((c.handoff.map (·.id)).getD 1) setup.options.leaseTtlMs))

/-- The journal entry of a granted lease. -/
def grantedEvent (manifest : EvolutionManifest) (lease : AuthorityLease) (atMs : Nat) : EpochEvent :=
  { kind := .leaseGranted
    shard := manifest.shard
    epoch := lease.epoch
    generation := lease.generation
    atMs
    payload := .ofPairs [("holder", .string lease.holder.toString), ("reason", .string lease.reason)] }

/-- A new grant to the component a report is from; a lease that is not delivered is revoked. -/
def issueAuthority (role : NodeRole) (report : NodeReport) (manifest : EvolutionManifest) : Control Unit := do
  let granted ← grant (grantRequest setup manifest report.incarnation "authority granted by the evolution controller")
  let lease ← Eff.lift granted
  let delivered ← deliver setup role lease
  match delivered with
  | .error refusal => do
    let _ ← authorityOp (.revoke manifest.shard lease.id "grant delivery failed")
    Eff.throw refusal
  | .ok _ => do
    let atMs ← now
    let _ ← Eff.attempt (append (grantedEvent manifest lease atMs))
    save

/-- The lease is renewed before it runs out, so that service is not interrupted. -/
def renewAuthority (role : NodeRole) (current : AuthorityLease) (manifest : EvolutionManifest) : Control Unit := do
  let granted ← grant
    (grantRequest setup manifest current.holder "lease renewed during the evolution campaign")
  let lease ← Eff.lift granted
  let delivered ← deliver setup role lease
  let _ ← Eff.lift delivered
  save

/-- A restored lease is re-attested by its holder; the answer is whether the holder did. -/
def reattestAuthority (role : NodeRole) (current : AuthorityLease) (manifest : EvolutionManifest) : Control Bool := do
  let reattested ← call role (.reattest (some (some current.token)))
  match reattested with
  | .error _ => return false
  | .ok _ => do
    let outcome ← authorityOp (.reattest manifest.shard current.holder current.token)
    Eff.lift outcome.check
    save
    return true

/-- When a lease is due for renewal. -/
def renewThreshold (lease : AuthorityLease) : Nat :=
  if lease.expiresAtMs > setup.options.leaseTtlMs / 2 then lease.expiresAtMs - setup.options.leaseTtlMs / 2
  else lease.expiresAtMs

def ensureHolderAuthority (role : NodeRole) (report : NodeReport) : Control Unit := do
  let manifest ← theManifest
  let view ← view manifest.shard
  if view.fences.any fun fence => !fence.acknowledged && fence.target = report.incarnation then
    -- A fence is outstanding for this incarnation, so the fence phase must complete first.
    return ()
  else
    match view.mutating with
    | none => issueAuthority setup role report manifest
    | some current =>
      if current.holder = report.incarnation ∧ report.hasAuthority ∧ report.token = current.token then
        if current.attested then
          let nowMs ← now
          if nowMs < renewThreshold setup current then return ()
          else renewAuthority setup role current manifest
        else
          let reattested ← reattestAuthority role current manifest
          if reattested then return () else issueAuthority setup role report manifest
      else issueAuthority setup role report manifest

def ensurePredecessorAuthority : Control Unit := do
  let c ← Eff.get
  match c.lastSourceReport, c.sourceEndpoint with
  | some report, some _ => ensureHolderAuthority setup .source report
  | _, _ => Eff.throw (notFound "source component report is not available")

def ensureSuccessorAuthority : Control Unit := do
  let c ← Eff.get
  match c.lastTargetReport, c.targetEndpoint with
  | some report, some _ => ensureHolderAuthority setup .target report
  | _, _ => Eff.throw (notFound "target component report is not available")

end Control

end FabricEvolution
