import FabricEvolution.System.Operations

/-!
# Irreversible boundaries and their record

* `migrationPath`, `NodeState.crossings` : the irreversible steps a request takes a node's document through;
* `noteCrossings`, `crossingMachine` : the system with a record of the steps the successor crossed;
* `Crossings` : what was crossed is recorded in the campaign;
* `crossings_sound`, `crossings_recorded` : it always is, if every call that crosses is answered with its
  success, no crash loses a boundary and no plan replaces a campaign that crossed one.
-/

namespace FabricEvolution
open Lib Control

/-! ## The successor migrates -/

/-- What a migrate request names. -/
def migrationPath (handoff : Option Nat) (steps : Option (List (Result MigrationStepSpec))) :
    Result (Nat × List MigrationStepSpec) := do
  let handoff ← parseHandoffId handoff
  let steps ← orRefuse (steps.filter (!·.isEmpty)) (invalidArgument "migrate requires a non-empty steps array")
  refuseUnless (steps.length ≤ NodeState.maxMigrateSteps) (.plain .boundsExceeded "migrate accepts at most 64 steps")
  return (handoff, ← steps.mapM id)

theorem mapM_id_ok {α : Type} (l : List α) : (l.map Except.ok : List (Result α)).mapM id = Except.ok l := by
  induction l with
  | nil => rfl
  | cons a l ih =>
    simp only [List.map_cons, List.mapM_cons, id, ih]
    rfl

theorem migrationPath_eq_ok {handoff : Nat} {steps path : List MigrationStepSpec} {named : Nat}
    (h : migrationPath (some handoff) (some (steps.map .ok)) = .ok (named, path)) : named = handoff ∧ path = steps := by
  unfold migrationPath at h
  obtain ⟨id', hid, h⟩ := Result.bind_eq_ok.mp h
  obtain ⟨listed, hlisted, h⟩ := Result.bind_eq_ok.mp h
  obtain ⟨_, _, h⟩ := Result.bind_eq_ok.mp h
  obtain ⟨path', hpath, h⟩ := Result.bind_eq_ok.mp h
  cases h
  have hlisted := (Option.filter_eq_some_iff.mp (orRefuse_eq_ok.mp hlisted)).1
  have hid := (Option.filter_eq_some_iff.mp (orRefuse_eq_ok.mp hid)).1
  cases hlisted
  cases hid
  rw [mapM_id_ok] at hpath
  cases hpath
  exact ⟨rfl, rfl⟩

namespace NodeState
variable (options : NodeOptions) (digestOf : Json → Digest) (io : NodeIo) (nowMs laterMs : Nat) (node : NodeState)

/-- The irreversible steps a request takes the document through, with the handoff it names. -/
def crossings (request : NodeRequest) : List (Nat × MigrationStepId) :=
  match request, node.takeFault request.op with
  | .migrate handoff steps, (node, fault) =>
    if fault = some "error" then []
    else
      match migrationPath handoff steps with
      | .error _ => []
      | .ok (handoff, path) =>
        match migrateForward digestOf node.document path with
        | .error _ => []
        | .ok (_, outcome) => outcome.irreversibleBoundariesCrossed.map ((handoff, ·))
  | _, _ => []

variable {options digestOf io nowMs laterMs node}

theorem migrate_crossed {handoff : Option Nat} {steps : Option (List (Result MigrationStepSpec))} {named : Nat}
    {path : List MigrationStepSpec} {migrated : StateDocument} {outcome : MigrationOutcome} {answer : NodeAnswer}
    (hpath : migrationPath handoff steps = .ok (named, path))
    (hforward : migrateForward digestOf node.document path = .ok (migrated, outcome))
    (hok : (node.migrate options digestOf io nowMs handoff steps).2 = .ok answer) :
    answer.crossedIrreversibleBoundary = outcome.crossedIrreversibleBoundary := by
  unfold migrate at hok
  unfold migrationPath at hpath
  simp only [hpath, hforward] at hok
  split at hok
  · cases hok
  · unfold saveThen at hok
    split at hok <;> cases hok
    rfl

/-- What a migration crossed, its answer says. -/
theorem crossings_answered (options : NodeOptions) {handoff : Nat} {steps : List MigrationStepSpec} {answer : NodeAnswer}
    (hcrossed : node.crossings digestOf (.migrate (some handoff) (some (steps.map .ok))) ≠ [])
    (hok : (node.handle options digestOf io nowMs laterMs (.migrate (some handoff) (some (steps.map .ok)))).2.1 =
      .ok answer) :
    answer.crossedIrreversibleBoundary = true ∧
      ∀ s ∈ node.crossings digestOf (.migrate (some handoff) (some (steps.map .ok))),
        ∃ step ∈ steps, step.irreversibleBoundary = true ∧ step.id = s.2 := by
  unfold crossings at hcrossed ⊢
  unfold handle at hok
  split at hok
  · cases hok
  · rename_i node' fault herror htake
    simp only [htake] at hcrossed ⊢
    have hfault : fault ≠ some "error" := fun h => herror h
    rw [if_neg hfault] at hcrossed ⊢
    cases hpath : migrationPath (some handoff) (some (steps.map .ok)) with
    | error refusal => simp [hpath] at hcrossed
    | ok named =>
      obtain ⟨named, path⟩ := named
      simp only [hpath] at hcrossed ⊢
      obtain ⟨rfl, rfl⟩ := migrationPath_eq_ok hpath
      cases hforward : migrateForward digestOf node'.document path with
      | error refusal => simp [hforward] at hcrossed
      | ok result =>
        obtain ⟨migrated, outcome⟩ := result
        simp only [hforward] at hcrossed ⊢
        obtain ⟨hany, hlist⟩ := migrateForward_boundaries digestOf hforward
        have hsome : ∃ step ∈ path, step.irreversibleBoundary = true := by
          by_contra hnone
          refine hcrossed ?_
          rw [hlist, List.filter_eq_nil_iff.mpr fun step hstep hb => hnone ⟨step, hstep, hb⟩]
          rfl
        refine ⟨?_, fun s hs => ?_⟩
        · rw [migrate_crossed hpath hforward hok, hany, List.any_eq_true]
          exact hsome
        · rw [hlist] at hs
          obtain ⟨boundary, hboundary, rfl⟩ := List.mem_map.mp hs
          obtain ⟨step, hstep, rfl⟩ := List.mem_map.mp hboundary
          exact ⟨step, (List.mem_filter.mp hstep).1, (List.mem_filter.mp hstep).2, rfl⟩

end NodeState

/-! ## The record of what the successor crossed -/

abbrev Crossed := List (Nat × MigrationStepId)

/-- A migrate request that reaches the target adds what it crosses, answered or not. -/
def noteCrossings (S : SystemSetup) (o : ControllerOp) (_ : Controller) (choice : Choice) (w : World) (_ : o.Answer)
    (crossed : Crossed) : Crossed :=
  match o, choice with
  | .call _ _, .unreachable _ => crossed
  | .call .target request, _ => crossed ++ w.target.crossings S.digestOf request
  | _, _ => crossed

/-- The system with the record. -/
def crossingMachine (S : SystemSetup) := (machine S).record (noteCrossings S)

/-- A campaign whose boundaries a state file holds. -/
def Durable.HasBoundaries (durable : Durable) (campaign : CampaignRecord) : Prop :=
  ∃ k, durable.campaign = some k ∧ k.irreversibleBoundaryCrossed = true ∧
    ∀ boundary ∈ campaign.crossedBoundaries, boundary ∈ k.crossedBoundaries

/-- A call that takes the successor through an irreversible step is answered with its success; the controller does
not crash while memory records boundaries that the state file does not; and no plan is admitted while the campaign
in memory records a boundary. -/
def boundaryPolicy (S : SystemSetup) : SystemPolicy (World × Crossed) where
  command op c _ := ∀ manifest sealed, op = .plan manifest → refuseRunning c = .ok () →
    S.controller.admission manifest = .ok sealed → ∀ k, c.campaign = some k → k.irreversibleBoundaryCrossed = false
  exec o _ choice w := ∀ request, o = .call .target request → w.1.target.crossings S.digestOf request ≠ [] →
    (∃ failure, choice = .unreachable failure) ∨ ∃ io laterMs answer, choice = .answered io laterMs ∧
      (w.1.serve S .target request io laterMs).2.1 = .ok answer
  crash c w := ∀ k, c.campaign = some k → k.irreversibleBoundaryCrossed = true →
    ∃ durable, w.1.disk = some durable ∧ durable.HasBoundaries k

/-- The campaign records a boundary. -/
def ControllerCore.Records (core : ControllerCore) (boundary : MigrationStepId) : Prop :=
  ∃ k, core.campaign = some k ∧ k.irreversibleBoundaryCrossed = true ∧ boundary ∈ k.crossedBoundaries

/-- What was crossed is recorded, and a handoff has a campaign. -/
def Crossings : Assertion (World × Crossed) := fun core w =>
  ((∀ s ∈ w.2, core.Records s.2) ∧ (core.handoff ≠ none → core.campaign ≠ none)) ∧
    ∀ d, w.1.disk = some d → d.core.handoff ≠ none → d.core.campaign ≠ none

/-- What the state file has to say for a controller to open on it. -/
def CrossingsStored (w : World × Crossed) : Prop :=
  (∀ s ∈ w.2, ∃ d, w.1.disk = some d ∧ d.core.Records s.2) ∧
    ∀ d, w.1.disk = some d → d.core.handoff ≠ none → d.core.campaign ≠ none

namespace Crossings
variable {core core' : ControllerCore} {w : World × Crossed}

theorem of_same (h : Crossings core w) (hcampaign : core'.campaign = core.campaign)
    (hhandoff : core'.handoff ≠ none → core.handoff ≠ none) : Crossings core' w := by
  refine ⟨⟨fun s hs => ?_, fun hne => ?_⟩, h.2⟩
  · obtain ⟨k, hk, hrest⟩ := h.1.1 s hs
    exact ⟨k, hcampaign.trans hk, hrest⟩
  · rw [hcampaign]
    exact h.1.2 (hhandoff hne)

theorem inPhase (h : Crossings core w) (target : HandoffPhase) : Crossings (core.inPhase target) w :=
  h.of_same rfl (by cases hc : core.handoff <;> simp [ControllerCore.inPhase, hc])

theorem inState (h : Crossings core w) (state : CampaignState) : Crossings (core.inState state) w := by
  refine ⟨⟨fun s hs => ?_, fun hne => ?_⟩, h.2⟩
  · obtain ⟨k, hk, hrest⟩ := h.1.1 s hs
    exact ⟨{ k with state := state }, by simp [ControllerCore.inState, hk], hrest⟩
  · have := h.1.2 hne
    simpa [ControllerCore.inState] using this

end Crossings

section
variable {S : SystemSetup}

def crossingEffects (S : SystemSetup) : SystemEffects (World × Crossed) :=
  (crossingMachine S).effects (boundaryPolicy S) fun _ c w => Crossings c.core w

theorem crossings_world {core : ControllerCore} {e : WorldEvent} {w w' : World × Crossed}
    (hafter : (crossingMachine S).world e w = some w') (h : Crossings core w) : Crossings core w' := by
  obtain ⟨hafter, hsame⟩ := Machine.record_world.mp hafter
  refine ⟨⟨by rw [hsame]; exact h.1.1, h.1.2⟩, ?_⟩
  rw [after_disk hafter]
  exact h.2

/-- What an effect does to the state file. -/
theorem crossings_disk {o : ControllerOp} {c : Controller} {choice : Choice} {w w' : World} {x : o.Answer}
    {crossed : Crossed} (h : Crossings c.core (w, crossed)) (hexec : perform S o c choice w = some (x, w')) :
    ∀ d, w'.disk = some d → d.core.handoff ≠ none → d.core.campaign ≠ none := by
  intro d hd
  rcases perform_disk hexec with hdisk | ⟨-, hdisk⟩
  · exact h.2 d (hdisk ▸ hd)
  · cases hdisk.symm.trans hd
    exact h.1.2

theorem crossings_none {node : NodeState} {request : NodeRequest}
    (h : ∀ handoff steps, request ≠ .migrate handoff steps) : node.crossings S.digestOf request = [] := by
  unfold NodeState.crossings
  split
  · exact absurd rfl (h _ _)
  · rfl

theorem noteCrossings_of_ne {o : ControllerOp} (ho : ∀ handoff steps, o ≠ .call .target (.migrate handoff steps))
    {c : Controller} {choice : Choice} {w : World} {x : o.Answer} {crossed : Crossed} :
    noteCrossings S o c choice w x crossed = crossed := by
  unfold noteCrossings
  split
  · rfl
  · rw [crossings_none fun handoff steps heq => ho handoff steps (by rw [heq])]
    exact List.append_nil _
  · rfl

theorem crossings_admits {o : ControllerOp} (ho : ∀ handoff steps, o ≠ .call .target (.migrate handoff steps)) :
    Admits (crossingEffects S) Crossings o := by
  refine Moves.of_step (fun _ _ hp => hp) (fun _ _ _ _ _ hafter hp => crossings_world hafter hp) ?_
  intro c choice w x w' _ hexec hp
  obtain ⟨hexec, hnote⟩ := Machine.record_exec.mp hexec
  have hsame : w'.2 = w.2 := hnote.trans (noteCrossings_of_ne ho)
  have hcore : (o.coreAfter x c.core).campaign = c.core.campaign ∧ (o.coreAfter x c.core).handoff = c.core.handoff := by
    cases o <;> exact ⟨rfl, rfl⟩
  have hkept : Crossings (o.coreAfter x c.core) w := Crossings.of_same hp hcore.1 (by rw [hcore.2]; exact fun h => h)
  exact ⟨⟨by rw [hsame]; exact hkept.1.1, hkept.1.2⟩, crossings_disk hp hexec⟩

theorem crossings_free : FreeRules (crossingEffects S) Crossings where
  effect _ ho := crossings_admits ho
  reports _ _ _ _ hp := hp
  phase target _ := fun _ _ _ hp _ _ _ => hp.inPhase target
  aborted _ _ hp := hp.inPhase .aborted
  state _ _ target hp := hp.inState target
  rewound core _ _ _ _ _ hp := hp.of_same rfl (by cases h : core.handoff <;> simp [ControllerCore.rewound, h])
  rebound core _ _ hp := hp.of_same rfl (by cases h : core.handoff <;> simp [ControllerCore.rebound, h])

/-- What was crossed is recorded, or is about to be. -/
def Crossings.Pending (migrations : List MigrationStepSpec) (core : ControllerCore) (w : World × Crossed) : Prop :=
  ((∀ s ∈ w.2, core.Records s.2 ∨ ∃ step ∈ migrations, step.irreversibleBoundary = true ∧ step.id = s.2) ∧
    core.campaign ≠ none) ∧ ∀ d, w.1.disk = some d → d.core.handoff ≠ none → d.core.campaign ≠ none

/-- What the migrate call crosses, its response tells. -/
theorem crossings_call {c : Controller} {w : World × Crossed} {handoff : HandoffRecord} {manifest : EvolutionManifest}
    (hhandoff : c.handoff = some handoff) (hp : Crossings c.core w) {x : Result (Result NodeAnswer)}
    {w' : World × Crossed} (hx : (crossingEffects S).exec
      (.call .target (.migrate (some handoff.id) (some (manifest.migrations.map .ok)))) c w x w') :
    match response c .target x with
    | .ok answer => if answer.crossedIrreversibleBoundary then Crossings.Pending manifest.migrations c.core w' else
        Crossings c.core w'
    | .error _ => Crossings c.core w' := by
  obtain ⟨choice, hpolicy, hexec⟩ := hx
  obtain ⟨hexec, hnote⟩ := Machine.record_exec.mp hexec
  have hdisk := crossings_disk hp hexec
  have hcampaign : c.core.campaign ≠ none := hp.1.2 (by simp [Controller.core, hhandoff])
  by_cases hcrossed : w.1.target.crossings S.digestOf
      (.migrate (some handoff.id) (some (manifest.migrations.map .ok))) = []
  · -- Nothing is crossed: the record stands as it is.
    have hsame : w'.2 = w.2 := hnote.trans (by cases choice <;> simp [noteCrossings, hcrossed])
    have hkept : Crossings c.core w' := ⟨⟨by rw [hsame]; exact hp.1.1, hp.1.2⟩, hdisk⟩
    split
    · split_ifs
      · exact ⟨⟨fun s hs => .inl (hkept.1.1 s hs), hcampaign⟩, hdisk⟩
      · exact hkept
    · exact hkept
  · rcases hpolicy _ rfl hcrossed with ⟨failure, rfl⟩ | ⟨io, laterMs, answer, rfl, hok⟩
    · obtain ⟨rfl, -⟩ := Prod.mk.inj (Option.some.inj hexec)
      exact ⟨⟨by rw [hnote]; exact hp.1.1, hp.1.2⟩, hdisk⟩
    · change perform S (.call _ _) c (.answered io laterMs) w.1 = some (x, w'.1) at hexec
      simp only [perform] at hexec
      split_ifs at hexec
      split at hexec
      · rename_i w₁ result hserve
        obtain ⟨rfl, -⟩ := Prod.mk.inj (Option.some.inj hexec)
        rw [hserve] at hok
        obtain rfl : result = .ok answer := hok
        have hanswer := NodeState.crossings_answered S.target hcrossed
          (show (NodeState.handle _ _ _ _ _ _ _).2.1 = .ok answer from congrArg (fun r => r.2.1) hserve)
        simp only [response, hanswer.1, if_true]
        refine ⟨⟨fun s hs => ?_, hcampaign⟩, hdisk⟩
        rw [hnote] at hs
        rcases List.mem_append.mp hs with hs | hs
        · exact .inl (hp.1.1 s hs)
        · exact .inr (hanswer.2 s hs)
      · cases hexec

theorem mem_crossBoundaries {migrations : List MigrationStepSpec} {campaign : CampaignRecord} {boundary : MigrationStepId}
    (h : boundary ∈ campaign.crossedBoundaries ∨ ∃ step ∈ migrations, step.irreversibleBoundary = true ∧ step.id = boundary) :
    boundary ∈ (crossBoundaries migrations campaign).crossedBoundaries := by
  have hfold : ∀ (steps : List MigrationStepSpec) (crossed : List MigrationStepId),
      boundary ∈ crossed ∨ (∃ step ∈ steps, step.id = boundary) →
      boundary ∈ steps.foldl (fun crossed step => if step.id ∈ crossed then crossed else crossed ++ [step.id]) crossed := by
    intro steps
    induction steps with
    | nil =>
      rintro crossed (h | ⟨_, hmem, -⟩)
      · exact h
      · cases hmem
    | cons step steps ih =>
      intro crossed h
      refine ih _ ?_
      dsimp only
      rcases h with h | ⟨step', hmem, rfl⟩
      · left
        split_ifs
        · exact h
        · exact List.mem_append_left _ h
      · rcases List.mem_cons.mp hmem with rfl | hmem
        · left
          split_ifs with hin
          · exact hin
          · exact List.mem_append_right _ (List.mem_singleton.mpr rfl)
        · exact .inr ⟨step', hmem, rfl⟩
  refine hfold _ _ (h.imp_right ?_)
  rintro ⟨step, hstep, hb, hid⟩
  exact ⟨step, List.mem_filter.mpr ⟨hstep, hb⟩, hid⟩

theorem Crossings.Pending.crossed {c : Controller} {w : World × Crossed} {migrations : List MigrationStepSpec}
    (h : Crossings.Pending migrations c.core w) :
    Crossings { c with campaign := c.campaign.map (crossBoundaries migrations) }.core w := by
  obtain ⟨⟨hrecorded, hcampaign⟩, hdisk⟩ := h
  obtain ⟨k, hk⟩ : ∃ k, c.campaign = some k := by
    cases hc : c.campaign with
    | none => simp [Controller.core, hc] at hcampaign
    | some k => exact ⟨k, rfl⟩
  refine ⟨⟨fun s hs => ⟨(crossBoundaries migrations k).core, by simp [Controller.core, hk], rfl, ?_⟩, fun _ => ?_⟩, hdisk⟩
  · refine mem_crossBoundaries ((hrecorded s hs).imp_left ?_)
    rintro ⟨k', hk', -, hmem⟩
    simp only [Controller.core, hk, Option.map_some, Option.some.injEq] at hk'
    rw [← hk'] at hmem
    exact hmem
  · simp [Controller.core, hk]

theorem crossings_migrate (manifest : EvolutionManifest) :
    Keeps (crossingEffects S) Crossings.at (migrateSuccessor manifest) := by
  unfold migrateSuccessor
  refine theHandoff_seq (fun handoff => ?_) fun _ _ _ hp => hp
  refine Triple.seq (S := fun answer c w => if answer.crossedIrreversibleBoundary then
    Crossings.Pending manifest.migrations c.core w else Crossings c.core w) (callOk_triple ?_) fun migrated => ?_
  · intro c w hp w₀ henv
    have hp₀ : Crossings c.core w₀ := Machine.env_keeps (fun e w w' _ => crossings_world) henv hp.2
    refine ⟨hp₀, fun x w₁ hx => ?_⟩
    have hcall := crossings_call hp.1 hp₀ hx
    cases hresponse : response c .target x with
    | error refusal =>
      rw [hresponse] at hcall
      exact hcall
    | ok answer =>
      rw [hresponse] at hcall
      exact hcall
  · split
    · refine Triple.seq (S := fun _ => Crossings.at) (Triple.modify fun c w hp => hp.crossed) fun _ => ?_
      exact Keeps.bind (now_calm crossings_free.calm) fun atMs => append_calm crossings_free.calm _
    · exact Triple.pure fun c w hp => hp

theorem crossings_begin : Keeps (crossingEffects S) Crossings.at (beginHandoff S.controller) := by
  have hcalm : ∀ manifest, Calm (crossingEffects S) fun core w => Crossings core w ∧ Beginning manifest core :=
    fun manifest => crossings_free.calm.andCore (Beginning manifest)
  refine beginHandoff_triple (A := fun manifest core w => Crossings core w ∧ Beginning manifest core)
    (R := fun manifest core w => Crossings core w ∧ Beginning manifest core)
    (B := fun manifest core w => Crossings core w ∧ Beginning manifest core)
    (N := fun _ => Crossings) crossings_free.calm (fun _ _ _ hp => hp.1) (fun _ _ _ hp => hp) hcalm
    (fun _ _ _ hp hm hh hc => ⟨hp, hm, hh, hc⟩) ?_ ?_ ?_ (fun _ => crossings_free.steps.predecessor) ?_ ?_
  · refine fun manifest => applyAction_between (hcalm _) (hcalm _) (fun _ _ hp => hp.1) (fun _ _ hp => hp.1) ?_
    intro c w campaign m target rule reason hp _ _ _
    exact ⟨hp.1.inState target, hp.2.1, hp.2.2.1, by simpa [ControllerCore.inState] using hp.2.2.2⟩
  · exact fun manifest => (bindNodes_keeps (hcalm _) fun core w s t hp => hp).between fun _ _ _ hp => hp.1
  · rintro manifest core w source target ⟨hp, -, -, hcampaign⟩ _ _
    obtain ⟨k, hk⟩ := Option.ne_none_iff_exists'.mp hcampaign
    refine ⟨⟨fun s hs => ?_, fun _ => by simp [ControllerCore.begun, hk]⟩, hp.2⟩
    obtain ⟨k', hk', hrecorded⟩ := hp.1.1 s hs
    exact ⟨{ k' with handoff := core.nextHandoffId }, by simp [ControllerCore.begun, hk'], hrecorded⟩
  · exact fun manifest => recordPredecessorClaim_triple (T := fun _ _ => True) crossings_free.calm.still manifest
      (fun _ _ _ _ _ _ _ _ => trivial) fun _ _ _ _ _ _ hp _ _ _ _ _ _ => hp
  · exact fun manifest => openWindow_keeps (withHandoff_still crossings_free.calm.still) manifest fun _ _ _ hp => hp

/-- A plan that is admitted finds nothing crossed. -/
theorem crossings_plan (manifest : EvolutionManifest) :
    Triple (crossingEffects S) (fun c w => Crossings.at c w ∧ (boundaryPolicy S).command (.plan manifest) c w)
      (plan S.controller manifest) fun _ => Crossings.at := by
  have hadmits : ∀ o, (∀ handoff steps, o ≠ .call .target (.migrate handoff steps)) →
      Admits (crossingEffects S) (fun core w => Crossings core w ∧ w.2 = []) o := by
    intro o ho c w hp w₀ henv
    have hsame : w₀.2 = w.2 := by
      induction henv with
      | refl => rfl
      | tail _ hstep ih =>
        obtain ⟨e, -, hafter⟩ := hstep
        exact (Machine.record_world.mp hafter).2.trans ih
    have hkept := crossings_admits ho c w hp.1 w₀ henv
    refine ⟨hkept.1, fun x w₁ hx => ⟨hkept.2 x w₁ hx, ?_⟩⟩
    obtain ⟨choice, -, hexec⟩ := hx
    obtain ⟨-, hnote⟩ := Machine.record_exec.mp hexec
    rw [hnote, noteCrossings_of_ne ho, hsame, hp.2]
  refine plan_triple (A := fun _ core w => Crossings core w ∧ w.2 = [])
    (B := fun _ core w => Crossings core w ∧ w.2 = []) (fun _ o ho => hadmits o ?_) (fun _ => hadmits _ (by simp))
    crossings_free.calm (fun c w hp => hp.1) (fun _ _ _ hp => hp.1) ?_ (fun _ _ _ => hadmits _ (by simp))
    (fun _ _ _ hp => hp) ?_
  · rintro handoff steps rfl
    cases ho
  · rintro sealed c w ⟨hp, hpolicy⟩ hrunning hadmitted
    refine ⟨hp, List.eq_nil_iff_forall_not_mem.mpr fun s hs => ?_⟩
    obtain ⟨k, hk, hcrossed, -⟩ := hp.1.1 s hs
    obtain ⟨campaign, hcampaign, rfl⟩ := Option.map_eq_some_iff.mp hk
    have := hpolicy manifest sealed rfl hrunning hadmitted campaign hcampaign
    exact absurd (hcrossed.symm.trans this) (by decide)
  · rintro sealed core w ⟨hp, hnil⟩
    refine ⟨⟨fun s hs => ?_, fun _ => by simp [ControllerCore.planned]⟩, hp.2⟩
    rw [hnil] at hs
    cases hs

theorem crossings_sound : (crossingMachine S).Sound (boundaryPolicy S) (fun _ c w => Crossings c.core w) Crossings.at
    CrossingsStored where
  command op := crossings_free.keeps crossings_begin crossings_migrate
    (crossings_free.verify fun _ _ _ hp _ _ _ => hp.inPhase _) (fun _ _ hp => hp.1) fun manifest hop => by
    subst hop
    exact crossings_plan manifest
  world e w w' _ hafter := by
    refine ⟨fun c hp => crossings_world hafter hp, fun hd => ?_⟩
    obtain ⟨hafter, hsame⟩ := Machine.record_world.mp hafter
    unfold CrossingsStored
    rw [hsame, after_disk hafter]
    exact hd
  crash c w hpolicy := by
    have hstored : Crossings c.core w → CrossingsStored w := by
      refine fun hp => ⟨fun s hs => ?_, hp.2⟩
      obtain ⟨k, hk, hcrossed, hmem⟩ := hp.1.1 s hs
      obtain ⟨campaign, hcampaign, rfl⟩ := Option.map_eq_some_iff.mp hk
      obtain ⟨durable, hdisk, k', hk', hcrossed', hall⟩ := hpolicy campaign hcampaign hcrossed
      exact ⟨durable, hdisk, k'.core, by simp [Durable.core, hk'], hcrossed', hall s.2 hmem⟩
    exact ⟨hstored, fun _ => hstored⟩
  boot incarnation w c w' hd hboot := by
    obtain ⟨hboot, hsame⟩ := Machine.record_boot.mp hboot
    obtain ⟨hw, ⟨hnone, rfl⟩ | ⟨durable, authority, hdisk, -, rfl⟩⟩ := openController_cases hboot
    · refine ⟨⟨fun s hs => ?_, fun h => absurd rfl h⟩, fun d hd' => ?_⟩
      · obtain ⟨d, hd', -⟩ := hd.1 s (hsame ▸ hs)
        rw [hnone] at hd'
        cases hd'
      · rw [hw] at hd'
        cases hd'
        exact fun h => absurd rfl h
    · have hcore : Crossings ((Controller.restore durable authority).opened incarnation).core (w.1, w'.2) := by
        rw [core_opened]
        refine ⟨⟨fun s hs => ?_, fun hne => ?_⟩, hd.2⟩
        · obtain ⟨d, hd', k, hk, hrest⟩ := hd.1 s (hsame ▸ hs)
          cases hdisk.symm.trans hd'
          refine ⟨k.replanned, by simp [hk], ?_⟩
          unfold CampaignCore.replanned
          split_ifs <;> exact hrest
        · have := hd.2 durable hdisk hne
          simpa using this
      refine ⟨hcore.1, fun d hd' => ?_⟩
      rw [hw] at hd'
      cases hd'
      exact hcore.1.2

end

/-- From `CaughtUp` on, what the successor crossed under the handoff is recorded in the campaign, and rules out a
reversible abort. -/
def Controller.RecordsCrossings (c : Controller) (crossed : Crossed) : Prop :=
  ∀ h, c.handoff = some h → h.reached .caughtUp = true → ∀ boundary, (h.id, boundary) ∈ crossed →
    ∃ k, c.campaign = some k ∧ k.irreversibleBoundaryCrossed = true ∧ boundary ∈ k.crossedBoundaries ∧
      (k.state.isTerminal = false → k.state ≠ .aborting → ∀ crossed, ∃ rule reason,
        evaluateCampaignAction k .abort h crossed k.manifest = .accepted .forwardRecovery rule reason)

theorem abort_of_crossed {k : CampaignRecord} (hcrossed : k.irreversibleBoundaryCrossed = true)
    (hterminal : k.state.isTerminal = false) (haborting : k.state ≠ .aborting) (h : HandoffRecord) (crossed : Bool) :
    ∃ rule reason, evaluateCampaignAction k .abort h crossed k.manifest = .accepted .forwardRecovery rule reason := by
  simp [evaluateCampaignAction, hterminal, haborting, hcrossed]

/-- In every run whose steps meet `boundaryPolicy`: the campaign in memory records what the successor crossed. -/
theorem crossings_recorded {S : SystemSetup} {clock : Nat} {source target : NodeDisk}
    {sourceUuid targetUuid : IncarnationUuid} {es : List SystemEvent}
    {s : Config Controller ControllerOp ControllerOp.Answer (World × Crossed) Status} {c : Controller}
    (hrun : Run ((crossingMachine S).step (boundaryPolicy S))
      (.down ((S.start clock source target sourceUuid targetUuid).world, [])) es s)
    (hmemory : s.memory = some c) : c.RecordsCrossings s.world.2 := by
  have hstart : CrossingsStored ((S.start clock source target sourceUuid targetUuid).world, []) :=
    ⟨fun s hs => (by cases hs), fun d hd => (by cases hd)⟩
  have hs := crossings_sound.run_holds hrun hstart
  have hc : Crossings.at c s.world := hs.memory (fun _ _ hp => hp) (fun _ _ _ hp => hp) hmemory
  intro h _ _ boundary hmem
  obtain ⟨k, hk, hcrossed, hlisted⟩ := hc.1.1 _ hmem
  obtain ⟨campaign, hcampaign, rfl⟩ := Option.map_eq_some_iff.mp hk
  exact ⟨campaign, hcampaign, hcrossed, hlisted, fun hterminal haborting crossed =>
    abort_of_crossed hcrossed hterminal haborting h crossed⟩

/-! ## Runs of the concrete system -/

namespace Sample

/-- A campaign with one irreversible step. -/
def irreversible : EvolutionManifest :=
  { manifest firstCampaign 1 with
    target := { (manifest firstCampaign 1).target with schema := 2 }
    migrations :=
      [{ id := ⟨"split", .inr (by decide)⟩, source := 1, target := 2, function := "identity", irreversibleBoundary := true }] }

def crossingSystem : Config Controller ControllerOp ControllerOp.Answer (World × Crossed) Status :=
  .down (system.world, [])

/-- The handoff as far as the migrate call. -/
def migrating : List SystemEvent :=
  prepared irreversible ++ .begin .start :: beginning ++ synchronizing ++ stepping ++ [answered, answered, answered]

/-- A boundary was crossed and the handoff is caught up; `p` says of the campaign what is left. -/
def caughtUpAnd (p : CampaignRecord → Bool) (s : Config Controller ControllerOp ControllerOp.Answer (World × Crossed) Status) :
    Bool :=
  s.memory.any fun c => c.handoff.any fun h => h.reached .caughtUp && s.world.2.any (·.1 = h.id) && c.campaign.any p

/-- The response of a migrate request that reaches the target is a success; one plan; no crash. -/
def answersMigrate (s : Config Controller ControllerOp ControllerOp.Answer (World × Crossed) Status) (e : SystemEvent) :
    Bool :=
  match e with
  | .exec choice =>
    match s, choice with
    | .running (.op (.call .target (.migrate handoff steps)) _ _) w, .answered io laterMs =>
      (w.1.serve setup .target (.migrate handoff steps) io laterMs).2.1.toBool
    | .running (.op (.call .target (.migrate ..)) _ _) _, _ => false
    | _, _ => true
  | .begin (.plan _) => s.memory.any (·.campaign.isNone)
  | .crash => false
  | _ => true

theorem allows_of_answersMigrate (s : Config Controller ControllerOp ControllerOp.Answer (World × Crossed) Status)
    (e : SystemEvent) (h : answersMigrate s e = true) : Machine.allows (boundaryPolicy setup) s e := by
  match s, e with
  | .idle c w, .begin (.plan manifest) =>
    intro m sealed _ _ _ campaign hcampaign
    have hnone : c.campaign = none := by simpa [answersMigrate, Config.memory] using h
    simp [hnone] at hcampaign
  | .idle _ _, .begin .preflight | .idle _ _, .begin .start | .idle _ _, .begin .advance | .idle _ _, .begin .run
  | .idle _ _, .begin .pause | .idle _ _, .begin .resume | .idle _ _, .begin .abort | .idle _ _, .begin .reconcile =>
    exact fun _ _ h => by cases h
  | .running (.op o c k) w, .exec choice =>
    rintro request rfl hcrossed
    by_cases hmigrate : ∃ handoff steps, request = .migrate handoff steps
    · obtain ⟨handoff, steps, rfl⟩ := hmigrate
      cases choice with
      | answered io laterMs =>
        cases hserve : (w.1.serve setup .target (.migrate handoff steps) io laterMs).2.1 with
        | error refusal => simp [answersMigrate, hserve, Except.toBool] at h
        | ok answer => exact .inr ⟨io, laterMs, answer, rfl, hserve⟩
      | _ => cases h
    · exact absurd (crossings_none fun handoff steps heq => hmigrate ⟨handoff, steps, heq⟩) hcrossed
  | .running (.ret _) _, .exec _ | .idle _ _, .exec _ | .down _, .exec _ => trivial
  | .running _ _, .begin _ | .down _, .begin _ | _, .finish | _, .boot _ | _, .world _ => trivial
  | _, .crash => cases h

end Sample

open Sample in
theorem crossings_recorded_sample :
    ∃ s c, (∃ es, Run ((crossingMachine setup).step (boundaryPolicy setup)) crossingSystem es s) ∧ s.memory = some c ∧
      caughtUpAnd (fun _ => true) s = true ∧ c.RecordsCrossings s.world.2 := by
  obtain ⟨s, hrun, hs⟩ := (crossingMachine setup).exists_run allows_of_answersMigrate crossingSystem
    (migrating ++ [answered, reading, stored] ++ recording) (caughtUpAnd fun _ => true) (by decide +kernel)
  obtain ⟨c, hc, -⟩ := (Option.any_eq_true _ _).mp hs
  exact ⟨s, c, ⟨_, hrun⟩, hc, hs, crossings_recorded hrun hc⟩

open Sample in
/-- The response of the migrate call is lost; the retry finds the target schema and records nothing. -/
theorem crossings_unrecorded :
    ¬ ∀ (S : SystemSetup) (clock : Nat) (source target : NodeDisk) (sourceUuid targetUuid : IncarnationUuid)
      (es : List SystemEvent) (s : Config Controller ControllerOp ControllerOp.Answer (World × Crossed) Status)
      (c : Controller),
      Run ((crossingMachine S).step {})
        (.down ((S.start clock source target sourceUuid targetUuid).world, [])) es s →
      s.memory = some c → c.RecordsCrossings s.world.2 := by
  intro hclaim
  obtain ⟨s, hrun, hs⟩ := (crossingMachine setup).exists_free_run crossingSystem
    (migrating ++ [.exec (.lost {} 1 failure), .finish, .begin .advance] ++ stepping ++ [answered, answered, answered] ++
      recording ++ [.finish])
    (caughtUpAnd fun k => !k.irreversibleBoundaryCrossed) (by decide +kernel)
  obtain ⟨c, hc, hs⟩ := (Option.any_eq_true _ _).mp hs
  obtain ⟨h, hh, hs⟩ := (Option.any_eq_true _ _).mp hs
  simp only [Bool.and_eq_true] at hs
  obtain ⟨⟨hreached, hcrossed⟩, hk⟩ := hs
  obtain ⟨k, hk, hunrecorded⟩ := (Option.any_eq_true _ _).mp hk
  obtain ⟨⟨id, boundary⟩, hmem, hid⟩ := List.any_eq_true.mp hcrossed
  obtain rfl : id = h.id := by simpa using hid
  obtain ⟨k', hk', hrecorded, -⟩ := hclaim setup _ _ _ _ _ _ s c hrun hc h hh hreached boundary hmem
  cases hk.symm.trans hk'
  simp [hrecorded] at hunrecorded

end FabricEvolution
