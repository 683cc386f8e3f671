import FabricEvolution.System.Operations

/-!
# The changes of the registry and their events

* `Decision` : a change an operation makes to the authority registry, `decidingMachine` : the system with a
  record of them;
* `RegistryOp.IsRecordedBy` : what the event of a change says, `AllJournaled` : every change is recorded by an
  event of its own;
* `decidingPolicy` : the changes that no event is appended for are refused, and no event of a change is lost;
* `decisions_journaled` : under this policy every change of an operation is in the journal when it returns.
-/

namespace FabricEvolution
open Lib

/-! ## Changes and events -/

/-- A change of the authority registry, and the length of the journal when it was made. -/
structure Decision where
  op : RegistryOp
  outcome : RegistryOutcome
  position : Nat

def RegistryOutcome.isRefused : RegistryOutcome → Bool
  | refused _ => true
  | _ => false

/-- What the event of a change says; a lease that is renewed or re-attested may also be recorded as granted. -/
def RegistryOp.IsRecordedBy (event : EpochEvent) : RegistryOp → RegistryOutcome → Prop
  | establish shard epoch, _ => event.kind = .shardEstablished ∧ event.shard = shard ∧ event.epoch = epoch
  | grant request, .issued lease =>
    event.kind = .leaseGranted ∧ event.shard = request.shard ∧ event.epoch = lease.epoch ∧
      event.generation = lease.generation
  | grant request, .renewed lease =>
    event.kind ∈ [.leaseGranted, .leaseRenewed] ∧ event.shard = request.shard ∧ event.epoch = lease.epoch ∧
      event.generation = lease.generation
  | renew shard _ _, _ | reattest shard _ _, _ => event.kind ∈ [.leaseGranted, .leaseRenewed] ∧ event.shard = shard
  | requestFence shard _ _, _ => event.kind = .fenceRequested ∧ event.shard = shard
  | acknowledgeFence shard _ fenceId, _ =>
    event.kind = .fenceAcknowledged ∧ event.shard = shard ∧ jsonU64 event.payload "fence_id" = some fenceId
  | revoke shard _ _, _ => event.kind = .leaseRevoked ∧ event.shard = shard
  | advanceEpoch shard epoch, _ => event.kind = .epochAdvanced ∧ event.shard = shard ∧ event.epoch = epoch
  | _, _ => True

/-- The record of the changes; what the registry refuses is none. -/
def Decision.note (o : ControllerOp) (c : Controller) (_ : Choice) (w : World) (x : o.Answer) (made : List Decision) :
    List Decision :=
  match o, x with
  | .authority op, readings =>
    let outcome := (op.exec c.authority readings.nowMs readings.slotNowMs readings.token).2
    if outcome.isRefused then made else made ++ [⟨op, outcome, w.journal.length⟩]
  | _, _ => made

def decidingMachine (S : SystemSetup) := (machine S).record Decision.note

/-- The event appended next records the change. -/
def Decision.Journaled (decision : Decision) (journal : List EpochEvent) : Prop :=
  ∃ event, journal[decision.position]? = some event ∧ decision.op.IsRecordedBy event decision.outcome

/-- Every change is recorded by an event of its own. -/
def AllJournaled (made : List Decision) (journal : List EpochEvent) : Prop :=
  made.Pairwise (·.position < ·.position) ∧ ∀ decision ∈ made, decision.Journaled journal

/-- The last change awaits its event. -/
def Awaiting (op : RegistryOp) (outcome : RegistryOutcome) (made : List Decision) (journal : List EpochEvent) : Prop :=
  ∃ before, made = before ++ [⟨op, outcome, journal.length⟩] ∧ AllJournaled before journal

theorem Decision.Journaled.lt_length {decision : Decision} {journal : List EpochEvent} (h : decision.Journaled journal) :
    decision.position < journal.length := by
  obtain ⟨event, hevent, -⟩ := h
  exact (List.getElem?_eq_some_iff.mp hevent).1

theorem Decision.Journaled.append {decision : Decision} {journal : List EpochEvent} (h : decision.Journaled journal)
    (event : EpochEvent) : decision.Journaled (journal ++ [event]) := by
  have hlt := h.lt_length
  obtain ⟨recorded, hrecorded, hop⟩ := h
  exact ⟨recorded, by rw [List.getElem?_append_left hlt, hrecorded], hop⟩

theorem AllJournaled.append {made : List Decision} {journal : List EpochEvent} (h : AllJournaled made journal)
    (event : EpochEvent) : AllJournaled made (journal ++ [event]) :=
  ⟨h.1, fun decision hmem => (h.2 decision hmem).append event⟩

/-- The event that a change awaits puts the journal in order. -/
theorem Awaiting.append {op : RegistryOp} {outcome : RegistryOutcome} {made : List Decision} {journal : List EpochEvent}
    (h : Awaiting op outcome made journal) {event : EpochEvent} (hevent : op.IsRecordedBy event outcome) :
    AllJournaled made (journal ++ [event]) := by
  obtain ⟨before, rfl, hbefore⟩ := h
  refine ⟨List.pairwise_append.mpr ⟨hbefore.1, List.pairwise_singleton _ _, ?_⟩, ?_⟩
  · intro decision hmem last hlast
    rw [List.mem_singleton.mp hlast]
    exact (hbefore.2 decision hmem).lt_length
  · intro decision hmem
    rcases List.mem_append.mp hmem with hmem | hmem
    · exact (hbefore.2 decision hmem).append event
    · rw [List.mem_singleton.mp hmem]
      exact ⟨event, by simp, hevent⟩

/-! ## The policy -/

/-- The changes that the controller appends no event for: renewals, the authority an abort restores, requested fences,
re-attestations, and the fences of a holder that was provably replaced. -/
def RegistryOp.isUnrecorded (c : Controller) : RegistryOp → Bool
  | grant request =>
    request.reason = "lease renewed during the evolution campaign" ||
      request.reason = "authority restored to the predecessor after a reversible abort"
  | requestFence _ _ _ | reattest _ _ _ => true
  | acknowledgeFence _ target _ => (Control.reportOn c target).any (Control.provablyReplaced target ·.incarnation)
  | _ => false

/-- A lease is taken back since it was not delivered. -/
def RegistryOp.isWithdrawal : RegistryOp → Bool
  | revoke _ _ reason => reason = "grant delivery failed"
  | _ => false

/-- The events of changes. -/
def EpochEventKind.isOfDecision : EpochEventKind → Bool
  | shardEstablished | leaseGranted | fenceAcknowledged | leaseRevoked => true
  | _ => false

/-- No lease fails to be delivered, the registry refuses what no event is appended for, and the journal takes the events of
changes. -/
def decidingPolicy : SystemPolicy (World × List Decision) where
  exec o c choice w :=
    match o, choice with
    | .authority op, .readings slotNowMs token =>
      op.isWithdrawal = false ∧
        (op.isUnrecorded c = true → (op.exec c.authority w.1.clock slotNowMs token).2.isRefused = true)
    | .append event, .failed _ => event.kind.isOfDecision = false
    | _, _ => True

abbrev decidingEffects (S : SystemSetup) : SystemEffects (World × List Decision) :=
  (decidingMachine S).effects decidingPolicy fun _ _ _ => True

section
variable {S : SystemSetup} {w w' : World × List Decision}

theorem deciding_exec {o : ControllerOp} {c : Controller} {x : o.Answer} (h : (decidingEffects S).exec o c w x w') :
    ∃ choice, decidingPolicy.exec o c choice w ∧ perform S o c choice w.1 = some (x, w'.1) ∧
      w'.2 = Decision.note o c choice w.1 x w.2 := by
  obtain ⟨choice, hpolicy, hexec⟩ := h
  exact ⟨choice, hpolicy, Machine.record_exec.mp hexec⟩

theorem note_of_ne {o : ControllerOp} (ho : ∀ op, o ≠ .authority op) (c : Controller) (choice : Choice) (w : World)
    (x : o.Answer) (made : List Decision) : Decision.note o c choice w x made = made := by
  cases o with
  | authority op => exact absurd rfl (ho op)
  | _ => rfl

end

/-! ## What effects do to changes and events -/

/-- A property of the changes and the journal. -/
def Held (I : List Decision → List EpochEvent → Prop) : Assertion (World × List Decision) := fun _ w => I w.2 w.1.journal

/-- The changes so far are recorded. -/
abbrev InOrder : Assertion (World × List Decision) := Held AllJournaled

/-- After an operation on the registry: a change, unless it was refused. -/
def Decided (op : RegistryOp) (outcome : RegistryOutcome) : Assertion (World × List Decision) :=
  if outcome.isRefused = true then InOrder else Held (Awaiting op outcome)

namespace Control
variable {S : SystemSetup} {I : List Decision → List EpochEvent → Prop}

/-- Time passing makes no changes and appends nothing. -/
theorem held_env {w w' : World × List Decision} (henv : (decidingEffects S).env w w') (h : I w.2 w.1.journal) :
    I w'.2 w'.1.journal := by
  refine Machine.env_keeps (I := fun v => I v.2 v.1.journal) ?_ henv h
  intro e v v' _ hafter hv
  obtain ⟨hafter, hmade⟩ := Machine.record_world.mp hafter
  show I v'.2 v'.1.journal
  rw [hmade, after_journal hafter]
  exact hv

theorem held_admits {o : ControllerOp} (ho : ∀ op, o ≠ .authority op) (happend : ∀ event, o ≠ .append event) :
    Admits (decidingEffects S) (Held I) o := by
  intro c w hp w₀ henv
  refine ⟨trivial, fun x w₁ hx => ?_⟩
  obtain ⟨choice, -, hperform, hmade⟩ := deciding_exec hx
  show I w₁.2 w₁.1.journal
  rcases perform_journal hperform with hjournal | ⟨event, heq, -⟩
  · rw [hmade, note_of_ne ho, hjournal]
    exact held_env henv hp
  · exact absurd heq (happend event)

theorem inOrder_admits {o : ControllerOp} (ho : ∀ op, o ≠ .authority op) : Admits (decidingEffects S) InOrder o := by
  intro c w hp w₀ henv
  have hp₀ : AllJournaled w₀.2 w₀.1.journal := held_env henv hp
  refine ⟨trivial, fun x w₁ hx => ?_⟩
  obtain ⟨choice, -, hperform, hmade⟩ := deciding_exec hx
  show AllJournaled w₁.2 w₁.1.journal
  rw [hmade, note_of_ne ho]
  rcases perform_journal hperform with hjournal | ⟨event, -, -, hjournal⟩
  · rw [hjournal]
    exact hp₀
  · rw [hjournal]
    exact hp₀.append event

theorem inOrder_calm : Calm (decidingEffects S) InOrder :=
  fun _ ho => inOrder_admits (ControllerOp.ne_authority_of_isQuiet ho)

theorem inOrder_call (role : NodeRole) (request : NodeRequest) : Admits (decidingEffects S) InOrder (.call role request) :=
  inOrder_admits (by simp)

section
variable {β : Type} {R : Except Status β → Controller → World × List Decision → Prop}

/-! What comes between a change and its event does not fail. -/

theorem now_held : Triple (decidingEffects S) (Held I).at now (Triple.between (fun _ => (Held I).at) R) :=
  Triple.perform (held_admits (by simp) (by simp))

theorem modifyHandoff_held (f : HandoffRecord → HandoffRecord) :
    Triple (decidingEffects S) (Held I).at (modifyHandoff f) (Triple.between (fun _ => (Held I).at) R) :=
  Triple.modify fun _ _ hp => hp

theorem call_held (role : NodeRole) (request : NodeRequest) :
    Triple (decidingEffects S) (Held I).at (call role request) (Triple.between (fun _ => (Held I).at) R) :=
  call_between (held_admits (by simp) (by simp))

theorem deliver_held (setup : ControllerSetup) (role : NodeRole) (lease : AuthorityLease) :
    Triple (decidingEffects S) (Held I).at (deliver setup role lease) (Triple.between (fun _ => (Held I).at) R) :=
  Triple.get fun _ => (call_held _ _).pre fun _ _ hp => hp.2

end

/-- The event of a change. -/
theorem append_records {op : RegistryOp} {outcome : RegistryOutcome} {event : EpochEvent}
    (hevent : op.IsRecordedBy event outcome) (hkind : event.kind.isOfDecision = true) :
    Triple (decidingEffects S) (Held (Awaiting op outcome)).at (append event) fun _ => InOrder.at := by
  unfold append
  refine Triple.seq (S := fun _ => InOrder.at) (Triple.perform fun c w hp w₀ henv => ⟨trivial, fun x w₁ hx => ?_⟩) fun _ =>
    Keeps.lift _
  have hp₀ : Awaiting op outcome w₀.2 w₀.1.journal := held_env henv hp
  obtain ⟨choice, hpolicy, hperform, hmade⟩ := deciding_exec hx
  show AllJournaled w₁.2 w₁.1.journal
  rw [hmade, note_of_ne (by simp)]
  cases choice with
  | stored =>
    obtain ⟨-, hworld⟩ := Prod.mk.inj (Option.some.inj hperform)
    rw [← hworld]
    exact hp₀.append hevent
  | failed refusal => exact absurd (hkind.symm.trans hpolicy) (by decide)
  | _ => cases hperform

/-! ## Operations on the registry -/

/-- A change awaits its event. -/
theorem authorityOp_decides (op : RegistryOp) {β : Type}
    {R : Except Status β → Controller → World × List Decision → Prop} :
    Triple (decidingEffects S) InOrder.at (authorityOp op)
      (Triple.between (fun outcome c w => (Decided op outcome).at c w ∧
        ∃ registry nowMs slotNowMs token, (op.exec registry nowMs slotNowMs token).2 = outcome) R) := by
  intro c w hp w₀ henv
  have hp₀ : AllJournaled w₀.2 w₀.1.journal := held_env henv hp
  refine ⟨trivial, fun x w₁ hx => ⟨?_, c.authority, x.nowMs, x.slotNowMs, x.token, rfl⟩⟩
  obtain ⟨choice, -, hperform, hmade⟩ := deciding_exec hx
  have hjournal : w₁.1.journal = w₀.1.journal := by
    obtain ⟨slotNowMs, token, -, -, -, hw⟩ := perform_authority hperform
    rw [hw]
  show Decided op (op.exec c.authority x.nowMs x.slotNowMs x.token).2 _ w₁
  unfold Decided
  by_cases hrefused : (op.exec c.authority x.nowMs x.slotNowMs x.token).2.isRefused = true
  · rw [if_pos hrefused]
    show AllJournaled w₁.2 w₁.1.journal
    rw [hmade, hjournal]
    simp only [Decision.note, hrefused, if_true]
    exact hp₀
  · rw [if_neg hrefused]
    show Awaiting op _ w₁.2 w₁.1.journal
    rw [hmade, hjournal]
    simp only [Decision.note, hrefused]
    exact ⟨w₀.2, rfl, hp₀⟩

/-- What no event is appended for is refused. -/
theorem authorityOp_refused (op : RegistryOp) {β : Type}
    {R : Except Status β → Controller → World × List Decision → Prop} :
    Triple (decidingEffects S) (fun c w => op.isUnrecorded c = true ∧ InOrder.at c w) (authorityOp op)
      (Triple.between (fun outcome c w => outcome.isRefused = true ∧ InOrder.at c w) R) := by
  intro c w hp w₀ henv
  have hp₀ : AllJournaled w₀.2 w₀.1.journal := held_env henv hp.2
  refine ⟨trivial, fun x w₁ hx => ?_⟩
  obtain ⟨choice, hpolicy, hperform, hmade⟩ := deciding_exec hx
  obtain ⟨slotNowMs, token, rfl, -, rfl, hw⟩ := perform_authority hperform
  have hrefused : (op.exec c.authority w₀.1.clock slotNowMs token).2.isRefused = true := hpolicy.2 hp.1
  refine ⟨hrefused, ?_⟩
  show AllJournaled w₁.2 w₁.1.journal
  rw [hmade, hw]
  simp only [Decision.note, hrefused, if_true]
  exact hp₀

/-- No lease is taken back. -/
theorem authorityOp_withdrawal {op : RegistryOp} (hop : op.isWithdrawal = true) {A : Controller → World × List Decision → Prop}
    {Q : Except Status RegistryOutcome → Controller → World × List Decision → Prop} :
    Triple (decidingEffects S) A (authorityOp op) Q := by
  intro c w hp w₀ henv
  refine ⟨trivial, fun x w₁ hx => ?_⟩
  obtain ⟨choice, hpolicy, hperform, -⟩ := deciding_exec hx
  obtain ⟨slotNowMs, token, rfl, -, -, -⟩ := perform_authority hperform
  exact absurd (hop.symm.trans hpolicy.1) (by decide)

/-- A change that is checked, and what goes on with its event. -/
theorem checked_keeps {op : RegistryOp} {f : Unit → Control Unit}
    (hf : ∀ outcome, Triple (decidingEffects S) (Held (Awaiting op outcome)).at (f ()) fun _ => InOrder.at) :
    Keeps (decidingEffects S) InOrder.at (authorityOp op >>= fun outcome => Eff.lift outcome.check >>= f) := by
  refine Triple.seq (authorityOp_decides op) fun outcome => ?_
  refine Triple.seq (S := fun _ => (Held (Awaiting op outcome)).at) (Triple.lift fun c w hp => ?_) fun _ => hf outcome
  cases outcome with
  | refused refusal => exact hp.1
  | _ => exact hp.1

/-- A grant that awaits its event. -/
def AwaitingGrant (request : GrantRequest) (lease : AuthorityLease) (made : List Decision) (journal : List EpochEvent) : Prop :=
  ∃ outcome, (outcome = .issued lease ∨ outcome = .renewed lease) ∧ Awaiting (.grant request) outcome made journal

/-- A grant, and what goes on with its event. -/
theorem granted_keeps {request : GrantRequest} {f : AuthorityLease → Control Unit}
    (hf : ∀ lease, Triple (decidingEffects S) (Held (AwaitingGrant request lease)).at (f lease) fun _ => InOrder.at) :
    Keeps (decidingEffects S) InOrder.at (grant request >>= fun granted => Eff.lift granted >>= f) := by
  unfold grant
  refine Triple.seq (S := fun granted : Result AuthorityLease => Triple.between
    (fun lease => (Held (AwaitingGrant request lease)).at) (fun (_ : Except Status Unit) => InOrder.at) granted)
    (Triple.seq (authorityOp_decides _) fun outcome => Triple.pure fun c w hp => ?_) fun granted => ?_
  · obtain ⟨hdecided, registry, nowMs, slotNowMs, token, rfl⟩ := hp
    show Triple.between (fun lease => (Held (AwaitingGrant request lease)).at) (fun (_ : Except Status Unit) => InOrder.at)
      (RegistryOutcome.ofGrant (registry.grant request nowMs slotNowMs token).2).lease c w
    change Decided (.grant request) (.ofGrant (registry.grant request nowMs slotNowMs token).2) _ w at hdecided
    cases h : (registry.grant request nowMs slotNowMs token).2 with
    | refused refusal =>
      rw [h] at hdecided
      exact hdecided
    | renewed lease =>
      rw [h] at hdecided
      exact ⟨_, .inr rfl, hdecided⟩
    | issued lease =>
      rw [h] at hdecided
      exact ⟨_, .inl rfl, hdecided⟩
  · refine Triple.seq (S := fun lease => (Held (AwaitingGrant request lease)).at) (Triple.lift fun c w hp => ?_) hf
    cases granted <;> exact hp

theorem append_granted {request : GrantRequest} {lease : AuthorityLease} {manifest : EvolutionManifest}
    (hshard : manifest.shard = request.shard) (atMs : Nat) :
    Triple (decidingEffects S) (Held (AwaitingGrant request lease)).at (append (grantedEvent manifest lease atMs))
      fun _ => InOrder.at := by
  intro c w hp
  obtain ⟨outcome, hlease, hawaiting⟩ := hp
  refine append_records ?_ rfl c w hawaiting
  rcases hlease with rfl | rfl
  · exact ⟨rfl, hshard, rfl, rfl⟩
  · exact ⟨List.mem_cons_self, hshard, rfl, rfl⟩

/-- A grant that no event is appended for does not come about. -/
theorem grant_refused {request : GrantRequest} (hrequest : ∀ c, (RegistryOp.grant request).isUnrecorded c = true) {β : Type}
    {R : Except Status β → Controller → World × List Decision → Prop} :
    Triple (decidingEffects S) InOrder.at (grant request)
      (Triple.between (fun granted c w => (∃ refusal, granted = .error refusal) ∧ InOrder.at c w) R) := by
  unfold grant
  refine Triple.seq ((authorityOp_refused _).pre fun c w hp => ⟨hrequest c, hp⟩) fun outcome => ?_
  refine Triple.pure fun c w hp => ?_
  cases outcome with
  | refused refusal => exact ⟨⟨refusal, rfl⟩, hp.2⟩
  | _ => cases hp.1

/-! ## The authority of a holder -/

theorem issueAuthority_keeps (setup : ControllerSetup) (role : NodeRole) (report : NodeReport) (manifest : EvolutionManifest) :
    Keeps (decidingEffects S) InOrder.at (issueAuthority setup role report manifest) := by
  unfold issueAuthority
  refine granted_keeps fun lease => Triple.seq (deliver_held _ _ _) fun delivered => ?_
  split
  · exact Triple.seq (S := fun _ _ _ => False) (authorityOp_withdrawal (by simp [RegistryOp.isWithdrawal])) fun _ =>
      Triple.throw fun _ _ hno => hno.elim
  · refine Triple.seq now_held fun atMs => ?_
    refine Triple.seq (S := fun _ => InOrder.at) (Triple.attempt ((append_granted rfl atMs).post fun r c w hp => hp)) fun _ => ?_
    exact save_calm inOrder_calm

/-- A renewal is refused, so there is nothing to deliver. -/
theorem renewAuthority_keeps (setup : ControllerSetup) (role : NodeRole) (current : AuthorityLease)
    (manifest : EvolutionManifest) : Keeps (decidingEffects S) InOrder.at (renewAuthority setup role current manifest) := by
  unfold renewAuthority
  refine Triple.seq (grant_refused fun c => by simp [RegistryOp.isUnrecorded, grantRequest]) fun granted => ?_
  refine Triple.seq (S := fun _ _ _ => False) (Triple.lift fun c w hp => ?_) fun _ _ _ hno => hno.elim
  obtain ⟨⟨refusal, rfl⟩, hp⟩ := hp
  exact hp

theorem reattestAuthority_keeps (role : NodeRole) (current : AuthorityLease) (manifest : EvolutionManifest) :
    Keeps (decidingEffects S) InOrder.at (reattestAuthority role current manifest) := by
  unfold reattestAuthority
  refine Keeps.bind (call_keeps (inOrder_call _ _)) fun reattested => ?_
  split
  · exact Keeps.pure _
  · refine Triple.seq ((authorityOp_refused _).pre fun c w hp => ⟨rfl, hp⟩) fun outcome => ?_
    refine Triple.seq (S := fun _ _ _ => False) (Triple.lift fun c w hp => ?_) fun _ _ _ hno => hno.elim
    cases outcome with
    | refused refusal => exact hp.2
    | _ => cases hp.1

theorem ensureHolderAuthority_ordered (setup : ControllerSetup) (role : NodeRole) (report : NodeReport) :
    Keeps (decidingEffects S) InOrder.at (ensureHolderAuthority setup role report) := by
  unfold ensureHolderAuthority
  refine Keeps.bind theManifest_keeps fun manifest => Keeps.bind (view_calm inOrder_calm _) fun view => ?_
  split
  · exact Keeps.pure _
  · split
    · exact issueAuthority_keeps _ _ _ _
    · split
      · split
        · refine Keeps.bind (now_calm inOrder_calm) fun nowMs => ?_
          split
          · exact Keeps.pure _
          · exact renewAuthority_keeps _ _ _ _
        · refine Keeps.bind (reattestAuthority_keeps _ _ _) fun reattested => ?_
          split
          · exact Keeps.pure _
          · exact issueAuthority_keeps _ _ _ _
      · exact issueAuthority_keeps _ _ _ _

theorem predecessor_ordered (setup : ControllerSetup) :
    Keeps (decidingEffects S) InOrder.at (ensurePredecessorAuthority setup) :=
  ensurePredecessorAuthority_triple (fun _ _ hp => hp) fun _ =>
    (ensureHolderAuthority_ordered _ _ _).pre fun _ _ hp => hp.2

theorem successor_ordered (setup : ControllerSetup) :
    Keeps (decidingEffects S) InOrder.at (ensureSuccessorAuthority setup) :=
  ensureSuccessorAuthority_triple (fun _ _ hp => hp) fun _ =>
    (ensureHolderAuthority_ordered _ _ _).pre fun _ _ hp => hp.2

/-! ## Fences and revocations -/

/-- A fence that is acknowledged, and what goes on with its event. -/
theorem acknowledged_keeps {shard : ShardId} {fence : FenceRecord} {holder : IncarnationId} {origin : List (String × Json)}
    (horigin : jsonU64 (Json.ofPairs ([("fence_id", .uint fence.id), ("holder", .string holder.toString)] ++ origin))
      "fence_id" = some fence.id) (atMs : Nat) (outcome : RegistryOutcome) :
    Triple (decidingEffects S) (Held (Awaiting (.acknowledgeFence shard holder fence.id) outcome)).at
      (append (acknowledgedEvent shard fence holder origin atMs)) fun _ => InOrder.at :=
  append_records ⟨rfl, rfl, horigin⟩ rfl

theorem inOrder_records (target : HandoffPhase) : Records (decidingEffects S) InOrder target :=
  PhaseRule.records (fun _ _ _ hp _ _ _ => hp) inOrder_calm

theorem acceptFencedReport_keeps (manifest : EvolutionManifest) (handoff : HandoffRecord) (view : AuthorityView) :
    Keeps (decidingEffects S) InOrder.at (acceptFencedReport manifest handoff view) := by
  unfold acceptFencedReport
  refine Keeps.bind ?_ fun _ => inOrder_records _ _
  generalize view.fences = fences
  induction fences with
  | nil => exact Keeps.pure _
  | cons fence rest ih =>
    unfold acknowledgeFences
    split
    · refine checked_keeps fun outcome => ?_
      refine Triple.seq (S := fun _ => InOrder.at) (Triple.seq now_held fun atMs =>
        (acknowledged_keeps (by simp [Json.ofPairs, Json.tryU64]) atMs outcome).post fun r c w hp => ?_) fun _ => ih
      cases r <;> exact hp
    · exact ih

theorem requestedFence_ordered (manifest : EvolutionManifest) (handoff : HandoffRecord) (view : AuthorityView) :
    Keeps (decidingEffects S) InOrder.at (requestedFence manifest handoff view) := by
  have hfind : Keeps (decidingEffects S) InOrder.at (requestedFence.findRequested manifest handoff) :=
    Keeps.bind (save_calm inOrder_calm) fun _ => Keeps.bind (view_calm inOrder_calm _) fun _ => orThrow_keeps _ _
  unfold requestedFence
  split
  · exact Keeps.pure _
  · refine Triple.seq ((authorityOp_refused _).pre fun c w hp => ⟨rfl, hp⟩) fun outcome => ?_
    refine Triple.pre (P := InOrder.at) ?_ fun c w hp => hp.2
    split
    · split
      · exact Keeps.throw _
      · exact hfind
    · exact hfind

theorem advanceFence_ordered : Keeps (decidingEffects S) InOrder.at advanceFence := by
  unfold advanceFence
  refine Keeps.bind theManifest_keeps fun manifest => Keeps.bind theHandoff_keeps fun handoff => ?_
  refine Keeps.bind (view_calm inOrder_calm _) fun view => get_keeps fun c => ?_
  split
  · exact acceptFencedReport_keeps _ _ _
  · unfold fencePredecessor
    refine Keeps.bind (requestedFence_ordered _ _ _) fun fence => Keeps.bind (call_keeps (inOrder_call _ _)) fun answer => ?_
    split
    · exact deferFence_calm inOrder_calm _ _
    · refine checked_keeps fun outcome => Triple.seq (modifyHandoff_held _) fun _ => Triple.seq now_held fun atMs => ?_
      refine Triple.seq (S := fun _ => InOrder.at) ((acknowledged_keeps ?_ atMs outcome).post fun r c w hp => ?_) fun _ =>
        inOrder_records _ _
      · simp [Json.ofPairs, Json.tryU64]
      · cases r <;> exact hp

/-- The fences of a replaced holder are not acknowledged. -/
theorem acknowledgeFences_refused {shard : ShardId} {target : IncarnationId} {after : FenceRecord → Control Unit}
    (fences : List FenceRecord) :
    Triple (decidingEffects S) (fun c w => (reportOn c target).any (provablyReplaced target ·.incarnation) = true ∧
      InOrder.at c w) (acknowledgeFences shard target after fences) fun _ => InOrder.at := by
  induction fences with
  | nil => exact Triple.pure fun c w hp => hp.2
  | cons fence rest ih =>
    unfold acknowledgeFences
    split
    · refine Triple.seq ((authorityOp_refused _).pre fun c w hp => hp) fun outcome => ?_
      refine Triple.seq (S := fun _ _ _ => False) (Triple.lift fun c w hp => ?_) fun _ _ _ hno => hno.elim
      cases outcome with
      | refused refusal => exact hp.2
      | _ => cases hp.1
    · exact ih

theorem revokeReplaced_ordered (manifest : EvolutionManifest) (view : AuthorityView) :
    Keeps (decidingEffects S) InOrder.at (revokeReplaced manifest view) := by
  unfold revokeReplaced
  refine Triple.get fun c₀ => ?_
  split
  · exact Triple.pure fun c w hp => hp.2
  · rename_i holder _
    split
    · exact Triple.pure fun c w hp => hp.2
    · rename_i report hreport
      obtain ⟨hreport, hreplaced⟩ := Option.filter_eq_some_iff.mp hreport
      refine Triple.seq (S := fun _ => InOrder.at) (((acknowledgeFences_refused _).pre fun c w hp => ⟨?_, hp.2⟩).post fun r c w hp => ?_) fun _ => ?_
      · rw [hp.1, hreport]
        exact hreplaced
      · cases r <;> exact hp
      · refine checked_keeps fun outcome => Triple.seq now_held fun atMs => ?_
        exact append_records ⟨rfl, rfl⟩ rfl

/-! ## The transfer and the abort -/

theorem inOrder_reports : ReportsFree (InOrder) := fun _ _ _ _ hp => hp

theorem inOrder_binding : BindingRules (decidingEffects S) InOrder fun _ => InOrder where
  calm _ := inOrder_calm
  weaken _ _ _ hp := hp
  read missing := (sourceClaim_calm inOrder_calm missing).post fun r c w hp => by cases r <;> exact hp
  send _ _ _ request _ c w _ _ hp := inOrder_call .target request c w hp

theorem transferAuthority_keeps (setup : ControllerSetup) :
    Keeps (decidingEffects S) InOrder.at (transferAuthority setup) := by
  unfold transferAuthority
  refine Keeps.bind theManifest_keeps fun manifest => Keeps.bind theHandoff_keeps fun handoff => ?_
  refine granted_keeps fun lease => Triple.seq (deliver_held _ _ _) fun delivered => ?_
  split
  · exact Triple.seq (S := fun _ _ _ => False) (authorityOp_withdrawal (by simp [RegistryOp.isWithdrawal])) fun _ _ _ hno =>
      hno.elim
  · refine Triple.seq (modifyHandoff_held _) fun _ => Triple.seq now_held fun atMs => ?_
    refine Triple.seq (S := fun _ => InOrder.at) ((append_granted rfl atMs).post fun r c w hp => ?_) fun _ =>
      inOrder_records _ _
    cases r <;> exact hp

theorem advanceTransfer_ordered (setup : ControllerSetup) :
    Keeps (decidingEffects S) InOrder.at (advanceTransfer setup) := by
  unfold advanceTransfer
  refine Keeps.bind (reportOf_calm inOrder_calm _) fun source => ?_
  refine Keeps.bind (transferLoop_keeps inOrder_calm inOrder_binding _ _ _) fun _ => ?_
  refine Keeps.bind (modifyHandoff_calm fun _ => rfl) fun _ => Keeps.bind (Keeps.modify fun _ _ hp => hp) fun _ => ?_
  exact transferAuthority_keeps setup

theorem restorePredecessor_ordered (setup : ControllerSetup) (manifest : EvolutionManifest) :
    Keeps (decidingEffects S) InOrder.at (restorePredecessor setup manifest) := by
  unfold restorePredecessor
  refine Keeps.bind (Keeps.attempt (reportOf_calm inOrder_calm _)) fun report => ?_
  split
  · exact Keeps.pure _
  · refine Keeps.bind (Keeps.attempt (view_calm inOrder_calm _)) fun view => ?_
    split
    · exact Keeps.pure _
    · refine Triple.seq (grant_refused fun c => by simp [RegistryOp.isUnrecorded, grantRequest]) fun granted => ?_
      refine Triple.pre (P := InOrder.at) ?_ fun c w hp => hp.2
      split
      · exact Keeps.pure _
      · exact Keeps.bind (deliver_keeps fun _ => inOrder_call _ _) fun _ => Keeps.pure _

theorem inOrder_action (action : CampaignAction) : Keeps (decidingEffects S) InOrder.at (applyAction action) :=
  applyAction_triple inOrder_calm inOrder_calm (fun _ _ hp => hp) fun _ _ _ _ _ _ _ hp _ _ _ => hp

theorem rollBack_ordered (setup : ControllerSetup) (manifest : EvolutionManifest) :
    Keeps (decidingEffects S) InOrder.at (rollBack setup manifest) := by
  unfold rollBack
  refine get_keeps fun c => Keeps.bind (whenever_keeps fun _ => restorePredecessor_ordered _ _) fun _ => ?_
  refine Keeps.bind (whenever_keeps fun _ => ?_) fun _ => Keeps.bind (whenever_keeps fun _ => ?_) fun _ => ?_
  · unfold retireSuccessor
    exact Keeps.bind theHandoff_keeps fun handoff => Keeps.bind (call_keeps (inOrder_call _ _)) fun _ => Keeps.pure _
  · refine Keeps.bind (Keeps.modify fun _ _ hp => hp) fun _ => Keeps.bind (now_calm inOrder_calm) fun updatedAtMs => ?_
    exact modifyHandoff_calm fun _ => rfl
  · exact Keeps.bind (inOrder_action _) fun _ => save_calm inOrder_calm

/-! ## The operations -/

theorem beginHandoff_ordered (setup : ControllerSetup) : Keeps (decidingEffects S) InOrder.at (beginHandoff setup) := by
  unfold beginHandoff
  refine get_keeps fun c => ?_
  split
  · exact Keeps.pure _
  · rename_i manifest _ _ _ _
    refine Keeps.bind (inOrder_action _) fun _ => Keeps.bind (bindNodes_keeps inOrder_calm inOrder_reports) fun _ => ?_
    refine Keeps.bind (createHandoff_triple inOrder_calm.still manifest (fun _ _ hp => hp) fun _ _ _ _ hp _ _ => hp) fun _ => ?_
    refine Keeps.bind (predecessor_ordered setup) fun _ => Keeps.bind ?_ fun _ => ?_
    · refine (recordPredecessorClaim_triple inOrder_calm.still manifest (T := fun _ _ => True)
        (fun _ _ _ _ _ _ _ _ => trivial) fun _ _ _ _ _ _ hp _ _ _ _ _ _ => hp).post fun r c w hp => ?_
      cases r with
      | error refusal => exact hp
      | ok u => exact hp.1
    · exact Keeps.bind (openWindow_keeps inOrder_calm.still manifest fun _ _ _ hp => hp) fun _ => save_calm inOrder_calm
  · exact Keeps.throw _

theorem migrateSuccessor_ordered (manifest : EvolutionManifest) :
    Keeps (decidingEffects S) InOrder.at (migrateSuccessor manifest) := by
  unfold migrateSuccessor
  refine Keeps.bind theHandoff_keeps fun handoff => Keeps.bind (callOk_keeps (inOrder_call _ _)) fun migrated => ?_
  split
  · refine Keeps.bind (Keeps.modify fun c w hp => hp) fun _ => ?_
    exact Keeps.bind (now_calm inOrder_calm) fun atMs => append_calm inOrder_calm _
  · exact Keeps.pure _

theorem incarnations_ordered : Keeps (decidingEffects S) InOrder.at reconcileIncarnations :=
  (RestartRules.of_replacements (N := InOrder) ⟨fun _ _ _ _ hp _ _ _ _ => hp, fun _ _ _ _ hp _ _ _ _ => hp,
    fun _ _ _ _ hp _ _ _ => hp⟩ inOrder_calm (inOrder_calm .now rfl)).reconcileIncarnations_of_revoked inOrder_calm
    revokeReplaced_ordered

theorem plan_ordered (setup : ControllerSetup) (manifest : EvolutionManifest) :
    Keeps (decidingEffects S) InOrder.at (plan setup manifest) := by
  unfold plan
  refine get_keeps fun c => Keeps.bind (Keeps.lift _) fun _ => Keeps.bind (Keeps.lift _) fun sealed => ?_
  refine Keeps.bind ?_ fun _ => Keeps.bind (Keeps.modify fun _ _ hp => hp) fun _ => ?_
  · unfold establishShard
    refine get_keeps fun c => ?_
    split
    · exact Keeps.pure _
    · exact checked_keeps fun outcome => Triple.seq now_held fun atMs => append_records ⟨rfl, rfl, rfl⟩ rfl
  · refine Keeps.bind (now_calm inOrder_calm) fun updatedAtMs => Keeps.bind (now_calm inOrder_calm) fun atMs => ?_
    exact Keeps.bind (Keeps.modify fun _ _ hp => hp) fun _ => save_calm inOrder_calm

theorem inOrder_enter {setup : ControllerSetup} {phase : HandoffPhase}
    (hstep : Keeps (decidingEffects S) InOrder.at (advancePhase setup phase)) :
    Triple (decidingEffects S) (fun c w => c.core.handoff.map (·.phase) = some phase ∧ InOrder.at c w)
      (enterPhase setup phase) fun _ => InOrder.at :=
  enterPhase_triple (N := InOrder) (fun c w hp => inOrder_admits (by simp) c w hp.1) hstep

theorem walk_ordered (setup : ControllerSetup) : Walk setup (decidingEffects S) InOrder InOrder InOrder where
  calm := inOrder_calm
  weaken _ _ hp := hp
  excuse _ _ hp := hp
  pause := inOrder_action _
  resume := inOrder_action _
  reports := (bindNodes_keeps inOrder_calm inOrder_reports).post fun r c w hp => by cases r <;> exact hp
  begin := .of_keeps (beginHandoff_ordered setup) fun _ _ hp => hp
  incarnations := incarnations_ordered
  renew := renewForPhase_keeps (predecessor_ordered setup) (successor_ordered setup)
  phase phase := by
    have hcalm : Calm (decidingEffects S) InOrder := inOrder_calm
    have hbinding : BindingRules (decidingEffects S) InOrder fun _ => InOrder := inOrder_binding
    cases phase with
    | notStarted =>
      exact inOrder_enter (advancePrepared_keeps hcalm inOrder_reports hbinding (predecessor_ordered setup)
        (inOrder_records _))
    | prepared => exact inOrder_enter (advanceSnapshot_keeps hcalm hbinding (inOrder_records _))
    | snapshotSynchronized =>
      exact inOrder_enter (advanceCatchUp_keeps hcalm inOrder_reports hbinding (inOrder_records _)
        migrateSuccessor_ordered (inOrder_records _))
    | caughtUp => exact inOrder_enter (advanceReadiness_keeps hcalm (inOrder_records _))
    | readinessVerified => exact inOrder_enter advanceFence_ordered
    | predecessorFenced => exact inOrder_enter (advanceTransfer_ordered setup)
    | authorityTransferred => exact inOrder_enter (advanceVerify_keeps hcalm (inOrder_records _))
    | successorVerified =>
      exact inOrder_enter (advanceRetire_keeps (fun _ => inOrder_call _ _) (inOrder_records _) (inOrder_action _))
    | predecessorRetired => exact inOrder_enter (Keeps.pure _)
    | failed => exact inOrder_enter (Keeps.throw _)
    | aborted => exact inOrder_enter (Keeps.throw _)

theorem preflight_ordered (setup : ControllerSetup) : Keeps (decidingEffects S) InOrder.at (preflight setup) := by
  refine preflight_keeps (R := InOrder) inOrder_calm inOrder_calm (fun _ _ hp => hp)
    ((inOrder_action _).post fun r c w hp => ?_)
    (preflightChecks_keeps inOrder_calm (bindNodes_keeps inOrder_calm inOrder_reports) (predecessor_ordered setup))
    fun _ _ hp => hp
  cases r <;> exact hp

theorem reconcile_ordered (setup : ControllerSetup) : Keeps (decidingEffects S) InOrder.at (reconcile setup) := by
  have hpass : ∀ {m : Control Unit}, Keeps (decidingEffects S) InOrder.at m → Triple (decidingEffects S) InOrder.at m
      (Triple.between (fun _ => InOrder.at) fun (_ : Except Status Unit) => InOrder.at) := fun hm =>
    hm.post fun r c w hp => by cases r <;> exact hp
  exact reconcile_triple (A := InOrder) (N := InOrder) inOrder_calm (fun _ _ hp => hp) (fun _ _ hp => hp)
    (hpass (bindNodes_keeps inOrder_calm inOrder_reports)) (hpass incarnations_ordered)
    (reconcileAuthority_keeps (predecessor_ordered setup) (successor_ordered setup))
    (reconcileTransfer_keeps inOrder_calm (inOrder_records _)) (reconcileFence_keeps (inOrder_records _))
    (reconcilePredecessor_triple (N := InOrder) inOrder_calm (fun _ _ hp => hp) (inOrder_calm .now rfl)
      fun _ _ _ _ hp _ _ _ _ _ _ => hp)

/-- Every operation keeps the journal in order. -/
theorem control_ordered (setup : ControllerSetup) (op : AdminOp) :
    Keeps (decidingEffects S) InOrder.at (op.control setup) := by
  have hwalk : Walk setup (decidingEffects S) InOrder InOrder InOrder := walk_ordered setup
  cases op with
  | plan manifest => exact plan_ordered setup manifest
  | preflight => exact preflight_ordered setup
  | start => exact hwalk.start.keeps
  | advance => exact hwalk.advance.keeps
  | run => exact hwalk.runToCompletion.keeps
  | pause => exact inOrder_action .pause
  | resume => exact hwalk.resumed.keeps
  | abort =>
    refine (hwalk.abort (N := InOrder) (fun _ _ hp => hp) ((inOrder_action .abort).post fun r c w hp => ?_)
      fun manifest => (rollBack_ordered setup manifest).pre fun _ _ hp => hp.1).keeps
    cases r <;> exact hp
  | reconcile => exact reconcile_ordered setup

end Control

/-- While no lease fails to be delivered, the registry refuses what no event is appended for, and the journal takes the
events of changes: every change of an operation that succeeds is recorded by an event of its own, the one appended next. -/
theorem decisions_journaled {S : SystemSetup} {op : AdminOp} {c c' : Controller} {w : World}
    {w' : World × List Decision} {es : List SystemEvent}
    (hrun : Run ((decidingMachine S).step decidingPolicy) (.running (op.control S.controller c) (w, [])) es
      (.running (.ret (.ok (), c')) w'))
    (hes : ∀ e ∈ es, Machine.isInner e = true) : AllJournaled w'.2 w'.1.journal := by
  have hstable : ∀ (r : Except Status Unit × Controller) (w w' : World × List Decision), AllJournaled w.2 w.1.journal →
      (decidingEffects S).env w w' → AllJournaled w'.2 w'.1.journal := fun _ _ _ hr henv => Control.held_env henv hr
  have hbegin : AllJournaled [] w.journal := ⟨List.Pairwise.nil, by simp⟩
  obtain ⟨p, w₁, ht, hp⟩ := Machine.wp_of_run hstable hrun hes (Control.control_ordered S.controller op c (w, []) hbegin)
  cases ht
  exact hp

/-! ## A renewal -/

namespace Sample

/-- An operation that succeeds after a run; `p` looks at the changes it made. -/
def endsOperation (es : List SystemEvent) (op : AdminOp) (es' : List SystemEvent)
    (ok : Config Controller ControllerOp ControllerOp.Answer (World × List Decision) Status → SystemEvent → Bool)
    (p : World × List Decision → Bool) : Bool :=
  ((machine setup).follow (fun _ _ => true) system es).any fun
    | .idle c w => ((decidingMachine setup).follow ok (.running (op.control setup.controller c) (w, [])) es').any fun
      | .running (.ret (.ok (), _)) w' => p w'
      | _ => false
    | _ => false

theorem endsOperation_cases {es : List SystemEvent} {op : AdminOp} {es' : List SystemEvent}
    {ok : Config Controller ControllerOp ControllerOp.Answer (World × List Decision) Status → SystemEvent → Bool}
    {p : World × List Decision → Bool} (h : endsOperation es op es' ok p = true) :
    ∃ c w c' w', (machine setup).follow (fun _ _ => true) system es = some (.idle c w) ∧
      (decidingMachine setup).follow ok (.running (op.control setup.controller c) (w, [])) es' =
        some (.running (.ret (.ok (), c')) w') ∧ p w' = true := by
  obtain ⟨s, hs, h⟩ := (Option.any_eq_true _ _).mp h
  split at h
  · rename_i c w
    obtain ⟨t, ht, h⟩ := (Option.any_eq_true _ _).mp h
    split at h
    · rename_i c' w'
      exact ⟨c, w, c', w', hs, ht, h⟩
    · cases h
  · cases h

/-- No change goes without an event, of an event of the machine. -/
def decidingBy (s : Config Controller ControllerOp ControllerOp.Answer (World × List Decision) Status) (e : SystemEvent) :
    Bool :=
  match s, e with
  | .running (.op (.authority op) c _) _, .exec (.readings _ _) => !op.isWithdrawal && !op.isUnrecorded c
  | .running (.op (.append event) _ _) _, .exec (.failed _) => !event.kind.isOfDecision
  | _, _ => true

theorem allows_of_decidingBy (s : Config Controller ControllerOp ControllerOp.Answer (World × List Decision) Status)
    (e : SystemEvent) (h : decidingBy s e = true) : Machine.allows decidingPolicy s e := by
  cases e with
  | exec choice =>
    match s with
    | .running (.op o c k) w =>
      show decidingPolicy.exec o c choice w
      dsimp only [decidingPolicy]
      split
      · rename_i op slotNowMs token
        obtain ⟨hkept, hrecorded⟩ := Bool.and_eq_true_iff.mp h
        rw [Bool.not_eq_true'] at hkept hrecorded
        exact ⟨hkept, fun hunrecorded => absurd (hunrecorded.symm.trans hrecorded) (by decide)⟩
      · exact (Bool.not_eq_true' _).mp h
      · trivial
    | .running (.ret _) _ | .idle _ _ | .down _ => trivial
  | begin op => cases s <;> trivial
  | crash => exact fun _ _ => trivial
  | finish | boot _ | world _ => trivial

/-- The controller opens and plans a first campaign. -/
def planned : List SystemEvent :=
  .boot controllerIncarnation :: planning (manifest firstCampaign 1) [readings 0, reading, stored]

/-- The effects of a preflight that grants a lease. -/
def preflighting : List SystemEvent :=
  action ++ [answered, answered, answered, answered, reading, readings 0, answered, reading, stored, stored, stored]

/-- The effects of a reconciliation that renews a lease. -/
def renewing : List SystemEvent :=
  [.exec (.answered {} 5000), .exec (.answered {} 5000), reading, reading, .exec (.readings 5000 (tokens 1)),
    .exec (.answered {} 5000), stored]

end Sample

open Sample in
theorem decisions_journaled_sample : ∃ c w es c' w',
    Run ((decidingMachine setup).step decidingPolicy) (.running (AdminOp.preflight.control setup.controller c) (w, [])) es
      (.running (.ret (.ok (), c')) w') ∧ w'.2 ≠ [] ∧ AllJournaled w'.2 w'.1.journal := by
  obtain ⟨c, w, c', w', -, hrun, hmade⟩ := endsOperation_cases
    (show endsOperation planned .preflight preflighting decidingBy (fun w' => !w'.2.isEmpty) = true by decide +kernel)
  have hrun := Machine.run_follow allows_of_decidingBy hrun
  exact ⟨c, w, _, c', w', hrun, by simpa using hmade, @decisions_journaled setup .preflight _ _ _ _ _ hrun (by decide)⟩

open Sample in
/-- A reconciliation renews the lease of the predecessor and succeeds; nothing is appended to the journal. -/
theorem renewal_not_journaled :
    ¬ ∀ (S : SystemSetup) (clock : Nat) (source target : NodeDisk) (sourceUuid targetUuid : IncarnationUuid)
      (es es' : List SystemEvent) (op : AdminOp) (c c' : Controller) (w : World) (w' : World × List Decision),
      Run ((machine S).step {}) (S.start clock source target sourceUuid targetUuid) es (.idle c w) →
      Run ((decidingMachine S).step {}) (.running (op.control S.controller c) (w, [])) es'
        (.running (.ret (.ok (), c')) w') → (∀ e ∈ es', Machine.isInner e = true) →
      ∀ decision ∈ w'.2, ∃ event ∈ w'.1.journal.drop decision.position, decision.op.IsRecordedBy event decision.outcome := by
  intro hclaim
  obtain ⟨c, w, c', w', hs, hrun, h⟩ := endsOperation_cases
    (show endsOperation (prepared (manifest firstCampaign 1) ++ [.world (.tick 5000)]) .reconcile renewing (fun _ _ => true)
      (fun w' => w'.2.any fun decision => w'.1.journal.length ≤ decision.position) = true by decide +kernel)
  obtain ⟨decision, hmem, hlate⟩ := List.any_eq_true.mp h
  obtain ⟨event, hevent, -⟩ := hclaim setup 1 _ _ _ _ _ _ .reconcile c c' w w'
    (Machine.run_follow (fun s e _ => Machine.allows_free s e) hs)
    (Machine.run_follow (fun s e _ => Machine.allows_free s e) hrun) (by decide) decision hmem
  rw [List.drop_eq_nil_of_le (by simpa using hlate)] at hevent
  exact absurd hevent List.not_mem_nil

end FabricEvolution
