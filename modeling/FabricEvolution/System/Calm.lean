import FabricEvolution.System.World

/-!
# The parts of an operation that leave its core alone

* `ControllerCore` : of the controller's memory, what the system's laws are about;
* `ControllerOp.isQuiet` : the effects that change no authority, bind to no source and migrate nothing;
* `Moves`, `Admits` : what an effect does to an assertion on core and world, `Calm` : the quiet effects keep it;
* `*_calm` : the computations that keep every calm assertion;
* `perform_disk`, `after_disk`, `openController_cases` : who writes the state file, what a controller opens on;
* `Remembered` : what holds of the core in memory and of the core in the state file.
-/

namespace FabricEvolution
open Lib

/-! ## Cores -/

structure HandoffCore where
  id : Nat
  campaign : CampaignId
  manifestDigest : Digest
  shard : ShardId
  predecessor : IncarnationId
  successor : IncarnationId
  phase : HandoffPhase
  attempt : Nat

def HandoffRecord.core (handoff : HandoffRecord) : HandoffCore :=
  { id := handoff.id, campaign := handoff.campaign, manifestDigest := handoff.manifestDigest, shard := handoff.shard,
    predecessor := handoff.predecessor, successor := handoff.successor, phase := handoff.phase,
    attempt := handoff.attempt }

structure CampaignCore where
  id : CampaignId
  manifestDigest : Digest
  state : CampaignState
  handoff : Nat
  irreversibleBoundaryCrossed : Bool
  crossedBoundaries : List MigrationStepId

def CampaignRecord.core (campaign : CampaignRecord) : CampaignCore :=
  { id := campaign.id, manifestDigest := campaign.manifestDigest, state := campaign.state,
    handoff := campaign.handoff, irreversibleBoundaryCrossed := campaign.irreversibleBoundaryCrossed,
    crossedBoundaries := campaign.crossedBoundaries }

/-- The controller without its bookkeeping. -/
structure ControllerCore where
  authority : AuthorityRegistry
  manifest : Option EvolutionManifest
  campaign : Option CampaignCore
  handoff : Option HandoffCore
  lastSourceReport : Option NodeReport
  lastTargetReport : Option NodeReport
  fencedPredecessorClaim : Option AuthorityClaim
  windowStartLsn : Nat
  nextHandoffId : Nat

def Controller.core (c : Controller) : ControllerCore :=
  { authority := c.authority, manifest := c.manifest, campaign := c.campaign.map (·.core),
    handoff := c.handoff.map (·.core), lastSourceReport := c.lastSourceReport,
    lastTargetReport := c.lastTargetReport, fencedPredecessorClaim := c.fencedPredecessorClaim,
    windowStartLsn := c.windowStartLsn, nextHandoffId := c.nextHandoffId }

/-- What the state file holds of the core; the reports are of this process only. -/
def Durable.core (durable : Durable) : ControllerCore :=
  { authority := durable.authority, manifest := durable.manifest, campaign := durable.campaign.map (·.core),
    handoff := durable.handoff.map (·.core), lastSourceReport := none, lastTargetReport := none,
    fencedPredecessorClaim := durable.fencedPredecessorClaim, windowStartLsn := durable.windowStartLsn,
    nextHandoffId := durable.nextHandoffId }

namespace ControllerCore

/-- The core as the state file keeps it. -/
def stored (core : ControllerCore) : ControllerCore := { core with lastSourceReport := none, lastTargetReport := none }

def withReports (core : ControllerCore) (source target : Option NodeReport) : ControllerCore :=
  { core with lastSourceReport := source, lastTargetReport := target }

/-- The core with the handoff in another phase. -/
def inPhase (core : ControllerCore) (phase : HandoffPhase) : ControllerCore :=
  { core with handoff := core.handoff.map ({ · with phase := phase }) }

/-- The core with the handoff rewound. -/
def rewound (core : ControllerCore) (predecessor successor : IncarnationId) (phase : HandoffPhase) : ControllerCore :=
  { core with handoff := core.handoff.map fun handoff =>
      { handoff with predecessor, successor, phase, attempt := handoff.attempt + 1 } }

/-- The core with the successor re-bound. -/
def rebound (core : ControllerCore) (successor : IncarnationId) : ControllerCore :=
  { core with handoff := core.handoff.map ({ · with successor := successor }) }

/-- The core with the campaign in another state. -/
def inState (core : ControllerCore) (state : CampaignState) : ControllerCore :=
  { core with campaign := core.campaign.map ({ · with state := state }) }

/-- What a new handoff record is like. -/
def begun (core : ControllerCore) (manifest : EvolutionManifest) (source target : NodeReport) :
    ControllerCore :=
  { core with
    handoff := some
      { id := core.nextHandoffId, campaign := manifest.campaign, manifestDigest := manifest.digest,
        shard := manifest.shard, predecessor := source.incarnation, successor := target.incarnation,
        phase := .notStarted, attempt := 1 }
    nextHandoffId := wrapAdd core.nextHandoffId 1
    campaign := core.campaign.map fun campaign => { campaign with handoff := core.nextHandoffId } }

/-- The core with a newly planned campaign. -/
def planned (core : ControllerCore) (manifest : EvolutionManifest) : ControllerCore :=
  { core with
    campaign := some
      { id := manifest.campaign, manifestDigest := manifest.digest, state := .planned, handoff := 0,
        irreversibleBoundaryCrossed := false, crossedBoundaries := [] } }

end ControllerCore

@[simp] theorem Controller.core_toDurable (c : Controller) : c.toDurable.core = c.core.stored := rfl

theorem Controller.core_modifyHandoff (c : Controller) {f : HandoffRecord → HandoffRecord}
    (hf : ∀ handoff, (f handoff).core = handoff.core) : { c with handoff := c.handoff.map f }.core = c.core := by
  simp only [Controller.core, Option.map_map]
  congr 1
  cases c.handoff with
  | none => rfl
  | some handoff => exact congrArg some (hf handoff)

theorem Controller.core_modifyCampaign (c : Controller) {f : CampaignRecord → CampaignRecord}
    (hf : ∀ campaign, (f campaign).core = campaign.core) : { c with campaign := c.campaign.map f }.core = c.core := by
  simp only [Controller.core, Option.map_map]
  congr 1
  cases c.campaign with
  | none => rfl
  | some campaign => exact congrArg some (hf campaign)

theorem Control.core_syncTerms (c : Controller) : (Control.syncTerms c).core = c.core := by
  obtain ⟨⟩ := c
  rename_i campaign handoff _ _ _ _ _ _ _ _ _ _ _ _
  cases handoff <;> cases campaign <;> rfl

/-! ## Calm assertions -/

/-- The requests that carry a source binding. -/
def NodeRequest.bindsSource : NodeRequest → Bool
  | prepare body => body.role = some "successor"
  | applyRecords _ => true
  | _ => false

/-- The requests that change no authority, bind to no source and migrate nothing. -/
def NodeRequest.isQuiet (request : NodeRequest) : Bool :=
  match request with
  | .migrate .. => false
  | request => !request.touchesAuthority && !request.bindsSource

/-- The effects that only pass the time: no registry operation, no mark, no call of weight. -/
def ControllerOp.isQuiet : ControllerOp → Bool
  | authority _ => false
  | enter _ => false
  | call _ request => request.isQuiet
  | _ => true

abbrev SystemEffects (W : Type) := Effects Controller ControllerOp ControllerOp.Answer W

/-- An assertion on core and world. -/
abbrev Assertion (W : Type) := ControllerCore → W → Prop

def Assertion.at {W : Type} (P : Assertion W) : Controller → W → Prop := fun c w => P c.core w

/-- The core after an effect: an operation on the registry takes effect with its readings. -/
def ControllerOp.coreAfter (op : ControllerOp) (answer : op.Answer) (core : ControllerCore) : ControllerCore :=
  match op, answer with
  | authority registryOp, readings =>
    { core with
      authority := (registryOp.exec core.authority readings.nowMs readings.slotNowMs readings.token).1 }
  | _, _ => core

/-- The effect may be due whenever `P` holds, and leads to `Q`. -/
def Moves {W : Type} (E : SystemEffects W) (P Q : Assertion W) (o : ControllerOp) : Prop :=
  ∀ c w, P c.core w → ∀ w₀, E.env w w₀ →
    E.mid o c w₀ ∧ ∀ x w₁, E.exec o c w₀ x w₁ → Q (o.coreAfter x c.core) w₁

/-- The effect may be due whenever `P` holds, and keeps it. -/
abbrev Admits {W : Type} (E : SystemEffects W) (P : Assertion W) (o : ControllerOp) : Prop := Moves E P P o

/-- The effects that reach nobody: clock, journal, state file. -/
def ControllerOp.isLocal : ControllerOp → Bool
  | now => true
  | append _ => true
  | save => true
  | _ => false

theorem ControllerOp.isQuiet_of_isLocal {o : ControllerOp} (h : o.isLocal = true) : o.isQuiet = true := by
  cases o <;> first | rfl | cases h

/-- Local effects are admitted. -/
def Still {W : Type} (E : SystemEffects W) (P : Assertion W) : Prop := ∀ o : ControllerOp, o.isLocal = true → Admits E P o

/-- Quiet effects are admitted. -/
def Calm {W : Type} (E : SystemEffects W) (P : Assertion W) : Prop := ∀ o : ControllerOp, o.isQuiet = true → Admits E P o

/-- An effect moves an assertion that the world keeps on its own. -/
theorem Moves.of_step {W : Type}
    {M : Machine Controller ControllerOp ControllerOp.Answer W Status AdminOp Choice WorldEvent IncarnationId}
    {policy : SystemPolicy W} {mid : ControllerOp → Controller → W → Prop} {P Q : Assertion W} {o : ControllerOp}
    (hmid : ∀ c w, P c.core w → mid o c w)
    (hworld : ∀ core e w w', policy.world e w → M.world e w = some w' → P core w → P core w')
    (hexec : ∀ c choice w x w', policy.exec o c choice w → M.exec o c choice w = some (x, w') → P c.core w →
      Q (o.coreAfter x c.core) w') : Moves (M.effects policy mid) P Q o := by
  intro c w hp w₀ henv
  have hp₀ : P c.core w₀ := Machine.env_keeps (fun e w w' => hworld c.core e w w') henv hp
  refine ⟨hmid c w₀ hp₀, fun x w₁ hx => ?_⟩
  obtain ⟨choice, hpolicy, hexec'⟩ := hx
  exact hexec c choice w₀ x w₁ hpolicy hexec' hp₀

theorem ControllerOp.ne_authority_of_isQuiet {o : ControllerOp} (ho : o.isQuiet = true) (op : RegistryOp) :
    o ≠ .authority op := by
  rintro rfl
  cases ho

theorem ControllerOp.coreAfter_of_ne {o : ControllerOp} (ho : ∀ op, o ≠ .authority op) (x : o.Answer)
    (core : ControllerCore) : o.coreAfter x core = core := by
  cases o with
  | authority op => exact absurd rfl (ho op)
  | _ => rfl

theorem ControllerOp.coreAfter_of_isQuiet {o : ControllerOp} (h : o.isQuiet = true) (x : o.Answer)
    (core : ControllerCore) : o.coreAfter x core = core :=
  coreAfter_of_ne (ne_authority_of_isQuiet h) x core

/-- A fact about the core alone may be added, where the effect keeps it. -/
theorem Moves.andStable {W : Type} {E : SystemEffects W} {P Q : Assertion W} {o : ControllerOp} (h : Moves E P Q o)
    {F : ControllerCore → Prop} (hF : ∀ x core, F core → F (o.coreAfter x core)) :
    Moves E (fun core w => P core w ∧ F core) (fun core w => Q core w ∧ F core) o := by
  intro c w hp w₀ henv
  obtain ⟨hmid, hexec⟩ := h c w hp.1 w₀ henv
  exact ⟨hmid, fun x w₁ hx => ⟨hexec x w₁ hx, hF x c.core hp.2⟩⟩

theorem Moves.andCore {W : Type} {E : SystemEffects W} {P Q : Assertion W} {o : ControllerOp} (h : Moves E P Q o)
    (ho : o.isQuiet = true) (F : ControllerCore → Prop) :
    Moves E (fun core w => P core w ∧ F core) (fun core w => Q core w ∧ F core) o :=
  h.andStable fun x core hf => by
    rw [ControllerOp.coreAfter_of_isQuiet ho]
    exact hf

/-- A fact about the core alone may be added. -/
theorem Still.andCore {W : Type} {E : SystemEffects W} {P : Assertion W} (hP : Still E P) (Q : ControllerCore → Prop) :
    Still E fun core w => P core w ∧ Q core :=
  fun o ho => (hP o ho).andCore (ControllerOp.isQuiet_of_isLocal ho) Q

namespace Calm
variable {W : Type} {E : SystemEffects W} {P Q : Assertion W}

theorem still (h : Calm E P) : Still E P := fun o ho => h o (ControllerOp.isQuiet_of_isLocal ho)

theorem and (hP : Calm E P) (hQ : ∀ o : ControllerOp, o.isQuiet = true → ∀ c w, P c.core w → Q c.core w → ∀ w₀,
    E.env w w₀ → ∀ x w₁, E.exec o c w₀ x w₁ → Q c.core w₁) : Calm E fun core w => P core w ∧ Q core w := by
  intro o ho c w h w₀ henv
  obtain ⟨hmid, hexec⟩ := hP o ho c w h.1 w₀ henv
  refine ⟨hmid, fun x w₁ hx => ⟨hexec x w₁ hx, ?_⟩⟩
  rw [ControllerOp.coreAfter_of_isQuiet ho]
  exact hQ o ho c w h.1 h.2 w₀ henv x w₁ hx

/-- A fact about the core alone may be added. -/
theorem andCore (hP : Calm E P) (Q : ControllerCore → Prop) : Calm E fun core w => P core w ∧ Q core :=
  hP.and fun _ _ _ _ _ hq _ _ _ _ _ => hq

end Calm

namespace Control
variable {W : Type} {E : SystemEffects W} {P Q : Assertion W} {α : Type}

theorem perform_keeps {o : ControllerOp} (h : Admits E P o) (hcore : ∀ x core, o.coreAfter x core = core) :
    Keeps E P.at (Eff.perform o : Eff Controller ControllerOp ControllerOp.Answer Status (o.Answer)) := by
  refine Triple.perform fun c w hp w₀ henv => ⟨(h c w hp w₀ henv).1, fun x w₁ hx => ?_⟩
  have := (h c w hp w₀ henv).2 x w₁ hx
  rwa [hcore] at this

/-- Memory changes that the core does not see. -/
theorem modify_calm {f : Controller → Controller} (hf : ∀ c, (f c).core = c.core) :
    Keeps E P.at (Eff.modify f : Control Unit) := by
  refine Keeps.modify fun c w hp => ?_
  show P (f c).core w
  rw [hf]
  exact hp

theorem modifyHandoff_calm {f : HandoffRecord → HandoffRecord} (hf : ∀ handoff, (f handoff).core = handoff.core) :
    Keeps E P.at (modifyHandoff f) :=
  modify_calm fun c => c.core_modifyHandoff hf

theorem modifyCampaign_calm {f : CampaignRecord → CampaignRecord} (hf : ∀ campaign, (f campaign).core = campaign.core) :
    Keeps E P.at (modifyCampaign f) :=
  modify_calm fun c => c.core_modifyCampaign hf

theorem get_keeps {P : Controller → W → Prop} {f : Controller → Control α} (h : ∀ c, Keeps E P (f c)) :
    Keeps E P (Eff.get >>= f) :=
  Triple.get fun c => (h c).pre fun _ _ hp => hp.2

theorem orThrow_keeps {P : Controller → W → Prop} (value : Option α) (refusal : Status) :
    Keeps E P (orThrow value refusal) :=
  Keeps.lift _

theorem theHandoff_keeps {P : Controller → W → Prop} : Keeps E P theHandoff :=
  get_keeps fun _ => orThrow_keeps _ _

theorem theManifest_keeps {P : Controller → W → Prop} : Keeps E P theManifest :=
  get_keeps fun _ => orThrow_keeps _ _

theorem theCampaign_keeps {P : Controller → W → Prop} : Keeps E P theCampaign :=
  get_keeps fun _ => orThrow_keeps _ _

theorem whenever_keeps {P : Controller → W → Prop} {p : Prop} [Decidable p] {m : Control Unit}
    (h : p → Keeps E P m) : Keeps E P (Eff.whenever p m) := by
  unfold Eff.whenever
  split
  · rename_i hp
    exact h hp
  · exact Keeps.pure _

theorem call_keeps {role : NodeRole} {request : NodeRequest} (h : Admits E P (.call role request)) :
    Keeps E P.at (call role request) := by
  unfold call
  refine Keeps.bind (perform_keeps h fun _ _ => rfl) fun response => get_keeps fun c => ?_
  split <;> exact Keeps.pure _

theorem callOk_keeps {role : NodeRole} {request : NodeRequest} (h : Admits E P (.call role request)) :
    Keeps E P.at (callOk role request) :=
  Keeps.bind (call_keeps h) fun _ => Keeps.lift _

theorem view_keeps (h : Admits E P .now) (shard : ShardId) : Keeps E P.at (view shard) :=
  Keeps.bind (perform_keeps h fun _ _ => rfl) fun _ => get_keeps fun _ => Keeps.lift _

theorem reportOf_keeps {role : NodeRole} (h : Admits E P (.call role .status)) : Keeps E P.at (reportOf role) :=
  Keeps.bind (callOk_keeps h) fun _ => Keeps.lift _

/-- An operation on the registry does not fail, refused or not. -/
theorem authorityOp_between {op : RegistryOp} (h : Moves E P Q (.authority op)) {β : Type}
    {R : Except Status β → Controller → W → Prop} :
    Triple E P.at (authorityOp op) (Triple.between (fun _ => Q.at) R) := by
  intro c w hp w₀ henv
  exact h c w hp w₀ henv

theorem authorityOp_triple {op : RegistryOp} (h : Moves E P Q (.authority op)) :
    Triple E P.at (authorityOp op) fun _ => Q.at := by
  refine (authorityOp_between h (R := fun (_ : Except Status Unit) => Q.at)).post fun r c w hq => ?_
  cases r <;> exact hq

theorem authorityOp_keeps {op : RegistryOp} (h : Admits E P (.authority op)) : Keeps E P.at (authorityOp op) :=
  authorityOp_triple h

theorem grant_keeps {request : GrantRequest} (h : Admits E P (.authority (.grant request))) :
    Keeps E P.at (grant request) :=
  Keeps.bind (authorityOp_keeps h) fun _ => Keeps.pure _

theorem deliver_keeps {setup : ControllerSetup} {role : NodeRole} {lease : AuthorityLease}
    (h : ∀ body, Admits E P (.call role (.grantAuthority body))) : Keeps E P.at (deliver setup role lease) :=
  get_keeps fun _ => call_keeps (h _)

/-! ## Local and quiet effects -/

section
variable (h : Still E P)
include h

theorem now_still : Keeps E P.at now := perform_keeps (h _ rfl) fun _ _ => rfl

theorem append_still (event : EpochEvent) : Keeps E P.at (append event) :=
  Keeps.bind (perform_keeps (h _ rfl) fun _ _ => rfl) fun _ => Keeps.lift _

theorem save_still : Keeps E P.at save := Keeps.bind (perform_keeps (h _ rfl) fun _ _ => rfl) fun _ => Keeps.lift _

end

section
variable (h : Calm E P)
include h

theorem now_calm : Keeps E P.at now := now_still h.still

theorem append_calm (event : EpochEvent) : Keeps E P.at (append event) := append_still h.still event

theorem save_calm : Keeps E P.at save := save_still h.still

theorem call_calm {role : NodeRole} {request : NodeRequest} (hquiet : request.isQuiet = true) :
    Keeps E P.at (call role request) :=
  call_keeps (h _ hquiet)

theorem callOk_calm {role : NodeRole} {request : NodeRequest} (hquiet : request.isQuiet = true) :
    Keeps E P.at (callOk role request) :=
  callOk_keeps (h _ hquiet)

theorem saveQuietly_calm : Keeps E P.at saveQuietly :=
  Keeps.bind (Keeps.attempt (save_calm h)) fun _ => Keeps.pure _

theorem view_calm (shard : ShardId) : Keeps E P.at (view shard) := view_keeps (h _ rfl) shard

theorem reportOf_calm (role : NodeRole) : Keeps E P.at (reportOf role) := reportOf_keeps (h _ rfl)

theorem reportFor_calm (role : NodeRole) (component : String) : Keeps E P.at (reportFor role component) :=
  Keeps.bind (Keeps.attempt (reportOf_calm h role)) fun _ => Keeps.lift _

theorem helloFrom_calm (role : NodeRole) : Keeps E P.at (helloFrom role) :=
  Keeps.bind (callOk_calm h rfl) fun _ => Keeps.lift _

/-! ## The calm parts of the operations -/

/-- A deferred action fails. -/
theorem deferAction_triple {R : Controller → W → Prop} (rule reason : String) :
    Triple E P.at (deferAction rule reason) (Triple.between (fun _ => R) fun (_ : Except Status Unit) => P.at) := by
  have hback : ∀ e c w, P.at c w → Triple.between (fun (_ : Unit) => R) (fun (_ : Except Status Unit) => P.at) (.error e) c w :=
    fun _ _ _ hp => hp
  unfold deferAction
  refine Keeps.seq (modify_calm fun _ => rfl) hback fun _ => Keeps.seq (now_calm h) hback fun deferralMs => ?_
  refine Keeps.seq (modify_calm fun _ => rfl) hback fun _ => Keeps.seq (saveQuietly_calm h) hback fun _ => ?_
  exact Triple.throw fun c w hp => hp

theorem currentSourceClaim_calm : Keeps E P.at currentSourceClaim := by
  unfold currentSourceClaim
  refine get_keeps fun c => ?_
  split
  · exact Keeps.pure _
  · split
    · exact Keeps.pure _
    · refine Keeps.bind (Keeps.attempt (view_calm h _)) fun view => ?_
      split <;> exact Keeps.pure _

theorem sourceClaim_calm (missing : String) : Keeps E P.at (sourceClaim missing) :=
  Keeps.bind (currentSourceClaim_calm h) fun _ => orThrow_keeps _ _

theorem deferFence_calm (fence : FenceRecord) (refusal : Status) : Keeps E P.at (deferFence fence refusal) :=
  Keeps.bind (modify_calm fun _ => rfl) fun _ => Keeps.bind (saveQuietly_calm h) fun _ => Keeps.throw _

theorem proveFenced_calm (handoff : HandoffRecord) : Keeps E P.at (proveFenced handoff) := by
  unfold proveFenced
  refine get_keeps fun c => ?_
  split
  · exact Keeps.pure _
  · refine Keeps.bind (call_calm h rfl) fun stale => ?_
    split
    · exact Keeps.pure _
    · exact Keeps.throw _

theorem windowStatus_calm : Keeps E P.at windowStatus := by
  unfold windowStatus
  refine get_keeps fun c => ?_
  split
  · exact Keeps.bind (now_calm h) fun _ => Keeps.pure _
  · exact Keeps.pure _

end

end Control

/-! ## The state file -/

section
variable {S : SystemSetup} {c : Controller} {w w' : World}

theorem World.setNode_disk (w : World) (role : NodeRole) (node : NodeState) : (w.setNode role node).disk = w.disk := by
  cases role <;> rfl

theorem World.setNode_journal (w : World) (role : NodeRole) (node : NodeState) : (w.setNode role node).journal = w.journal := by
  cases role <;> rfl

/-- What an effect does to the state file and the journal: a save, an append, or nothing. -/
theorem perform_files {o : ControllerOp} {choice : Choice} {x : o.Answer} (h : perform S o c choice w = some (x, w')) :
    (w'.disk = w.disk ∧ w'.journal = w.journal) ∨
      (o = .save ∧ w'.disk = some c.toDurable ∧ w'.journal = w.journal) ∨
      ∃ event, o = .append event ∧ choice = .stored ∧ w'.disk = w.disk ∧ w'.journal = w.journal ++ [event] := by
  cases o with
  | now =>
    cases choice <;> cases h
    exact .inl ⟨rfl, rfl⟩
  | authority op =>
    cases choice with
    | readings slotNowMs token =>
      simp only [perform] at h
      split_ifs at h
      cases h
      exact .inl ⟨rfl, rfl⟩
    | _ => cases h
  | call role request =>
    cases choice with
    | unreachable failure =>
      cases h
      exact .inl ⟨rfl, rfl⟩
    | lost io laterMs failure =>
      simp only [perform] at h
      split_ifs at h
      cases h
      exact .inl ⟨World.setNode_disk _ _ _, World.setNode_journal _ _ _⟩
    | answered io laterMs =>
      simp only [perform] at h
      split_ifs at h
      split at h
      · rename_i hserve
        cases h
        rw [show w' = _ from (congrArg Prod.fst hserve).symm]
        exact .inl ⟨World.setNode_disk _ _ _, World.setNode_journal _ _ _⟩
      · cases h
    | _ => cases h
  | append event =>
    cases choice <;> cases h
    · exact .inr (.inr ⟨event, rfl, rfl, rfl, rfl⟩)
    · exact .inl ⟨rfl, rfl⟩
  | save =>
    cases choice <;> cases h
    · exact .inr (.inl ⟨rfl, rfl, rfl⟩)
    · exact .inl ⟨rfl, rfl⟩
  | enter phase =>
    cases choice <;> cases h
    exact .inl ⟨rfl, rfl⟩

/-- How the readings of an operation on the registry come about. -/
theorem perform_authority {op : RegistryOp} {choice : Choice} {x : Readings}
    (h : perform S (.authority op) c choice w = some (x, w')) : ∃ slotNowMs token, choice = .readings slotNowMs token ∧
      w.clock ≤ slotNowMs ∧ x = ⟨w.clock, slotNowMs, token⟩ ∧ w' = { w with clock := slotNowMs } := by
  cases choice with
  | readings slotNowMs token =>
    simp only [perform] at h
    split_ifs at h with hle
    cases h
    exact ⟨slotNowMs, token, rfl, hle, rfl, rfl⟩
  | _ => cases h

theorem perform_disk {o : ControllerOp} {choice : Choice} {x : o.Answer} (h : perform S o c choice w = some (x, w')) :
    w'.disk = w.disk ∨ o = .save ∧ w'.disk = some c.toDurable := by
  rcases perform_files h with ⟨hdisk, -⟩ | ⟨hsave, hdisk, -⟩ | ⟨event, -, -, hdisk, -⟩
  · exact .inl hdisk
  · exact .inr ⟨hsave, hdisk⟩
  · exact .inl hdisk

/-- An effect appends at most the event it is about. -/
theorem perform_journal {o : ControllerOp} {choice : Choice} {x : o.Answer} (h : perform S o c choice w = some (x, w')) :
    w'.journal = w.journal ∨ ∃ event, o = .append event ∧ choice = .stored ∧ w'.journal = w.journal ++ [event] := by
  rcases perform_files h with ⟨-, hjournal⟩ | ⟨-, -, hjournal⟩ | ⟨event, ho, hchoice, -, hjournal⟩
  · exact .inl hjournal
  · exact .inl hjournal
  · exact .inr ⟨event, ho, hchoice, hjournal⟩

theorem after_disk {e : WorldEvent} (h : World.after S e w = some w') : w'.disk = w.disk := by
  cases e <;> simp only [World.after] at h <;> split_ifs at h <;> cases h
  · rfl
  · exact World.setNode_disk _ _ _
  · exact World.setNode_disk _ _ _

theorem after_journal {e : WorldEvent} (h : World.after S e w = some w') : w'.journal = w.journal := by
  cases e <;> simp only [World.after] at h <;> split_ifs at h <;> cases h
  · rfl
  · exact World.setNode_journal _ _ _
  · exact World.setNode_journal _ _ _

end

/-- A controller opens on no state file, or on the one there is, which it writes back. -/
theorem openController_cases {incarnation : IncarnationId} {c : Controller} {w w' : World}
    (h : openController incarnation w = some (c, w')) :
    w' = { w with disk := some c.toDurable } ∧
      (w.disk = none ∧ c = { controllerIncarnation := incarnation } ∨
        ∃ durable authority, w.disk = some durable ∧
          AuthorityRegistry.empty.load durable.authority.toJson = (authority, .ok ()) ∧
          c = (Controller.restore durable authority).opened incarnation) := by
  unfold openController at h
  split at h
  · cases h
    exact ⟨rfl, .inl ⟨‹_›, rfl⟩⟩
  · split at h
    · rename_i durable hdisk _ authority hload
      cases h
      exact ⟨rfl, .inr ⟨durable, authority, hdisk, hload, rfl⟩⟩
    · cases h

/-- A campaign whose preflight was cut off is planned again. -/
def CampaignCore.replanned (campaign : CampaignCore) : CampaignCore :=
  if campaign.state = .preflighting then { campaign with state := .planned } else campaign

theorem core_opened (durable : Durable) (authority : AuthorityRegistry) (incarnation : IncarnationId) :
    ((Controller.restore durable authority).opened incarnation).core =
      { durable.core with authority := authority, campaign := durable.core.campaign.map (·.replanned) } := by
  simp only [Controller.core, Controller.opened, Controller.replan, Controller.restore, Durable.core, Option.map_map]
  congr 1
  cases durable.campaign with
  | none => rfl
  | some campaign =>
    simp only [Option.map_some, Function.comp_apply, CampaignCore.replanned, Option.some.injEq]
    by_cases hstate : campaign.state = .preflighting
    · simp [CampaignRecord.core, hstate]
    · simp [CampaignRecord.core, hstate]

/-- What is said of a core also holds of the core in the state file. -/
def Remembered (I : ControllerCore → Prop) : Assertion World := fun core w => I core ∧ ∀ d, w.disk = some d → I d.core

section
variable {S : SystemSetup} {policy : SystemPolicy World} {mid : ControllerOp → Controller → World → Prop}
  {I : ControllerCore → Prop}

theorem env_disk {w w' : World} (h : ((machine S).effects policy mid).env w w') : w'.disk = w.disk := by
  induction h with
  | refl => rfl
  | tail _ hstep ih =>
    obtain ⟨e, -, hafter⟩ := hstep
    exact (after_disk hafter).trans ih

/-- Every effect keeps a property that reads neither the registry nor the reports. -/
theorem remembered_admits (hstored : ∀ core, I core → I core.stored)
    (hauthority : ∀ (core : ControllerCore) registry, I core → I { core with authority := registry })
    (hmid : ∀ o c w, Remembered I c.core w → mid o c w) (o : ControllerOp) :
    Admits ((machine S).effects policy mid) (Remembered I) o := by
  intro c w hp w₀ henv
  have hp₀ : Remembered I c.core w₀ := ⟨hp.1, by rw [env_disk henv]; exact hp.2⟩
  refine ⟨hmid o c w₀ hp₀, fun x w₁ hx => ⟨?_, fun d hd => ?_⟩⟩
  · cases o with
    | authority op => exact hauthority _ _ hp.1
    | _ => exact hp.1
  · obtain ⟨choice, -, hperform⟩ := hx
    rcases perform_disk hperform with hdisk | ⟨-, hdisk⟩
    · exact hp₀.2 d (hdisk ▸ hd)
    · cases hdisk.symm.trans hd
      exact hstored _ hp.1

end

/-! ## The state file beside a record -/

section
variable {G : Type} {S : SystemSetup} {note : (o : ControllerOp) → Controller → Choice → World → o.Answer → G → G}
  {policy : SystemPolicy (World × G)} {mid : ControllerOp → Controller → World × G → Prop}
  {I : ControllerCore → G → Prop}

/-- What is said of core and record also holds of the core in the state file. -/
def Kept (I : ControllerCore → G → Prop) : Assertion (World × G) := fun core w =>
  I core w.2 ∧ ∀ d, w.1.disk = some d → I d.core w.2

theorem kept_world {core : ControllerCore} {e : WorldEvent} {w w' : World × G}
    (hafter : ((machine S).record note).world e w = some w') (h : Kept I core w) : Kept I core w' := by
  obtain ⟨hafter, hsame⟩ := Machine.record_world.mp hafter
  unfold Kept
  rw [hsame, after_disk hafter]
  exact h

/-- An effect keeps what the record keeps, whatever is said of the memory after it. -/
theorem kept_exec (hstored : ∀ core g, I core g → I core.stored g) {o : ControllerOp} {c : Controller} {choice : Choice}
    {w w' : World × G} {x : o.Answer} (hexec : ((machine S).record note).exec o c choice w = some (x, w'))
    (hdisk : ∀ d, w.1.disk = some d → I d.core w'.2) (hcore : I c.core w'.2) (hafter : I (o.coreAfter x c.core) w'.2) :
    Kept I (o.coreAfter x c.core) w' := by
  refine ⟨hafter, fun d hd => ?_⟩
  rcases perform_disk (Machine.record_exec.mp hexec).1 with hsame | ⟨-, hsame⟩
  · exact hdisk d (hsame ▸ hd)
  · cases hsame.symm.trans hd
    exact hstored _ _ hcore

/-- Every effect keeps a property that neither the registry nor a longer record endangers. -/
theorem kept_admits (hnote : ∀ core o c choice w x g, I core g → I core (note o c choice w x g))
    (hstored : ∀ core g, I core g → I core.stored g)
    (hauthority : ∀ (core : ControllerCore) registry g, I core g → I { core with authority := registry } g)
    (hmid : ∀ o c w, Kept I c.core w → mid o c w) (o : ControllerOp) :
    Admits (((machine S).record note).effects policy mid) (Kept I) o := by
  refine Moves.of_step (fun c w => hmid o c w) (fun _ _ _ _ _ hafter hp => kept_world hafter hp) ?_
  intro c choice w x w' _ hexec hp
  have hlonger : ∀ core, I core w.2 → I core w'.2 := fun core hi => by
    rw [(Machine.record_exec.mp hexec).2]
    exact hnote core o c choice w.1 x w.2 hi
  refine kept_exec hstored hexec (fun d hd => hlonger _ (hp.2 d hd)) (hlonger _ hp.1) (hlonger _ ?_)
  cases o with
  | authority op => exact hauthority _ _ _ hp.1
  | _ => exact hp.1

end

end FabricEvolution
