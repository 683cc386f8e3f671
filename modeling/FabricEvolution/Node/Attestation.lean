import FabricEvolution.Node.Process

/-!
# What a node says of its own lease

* `LifeEvent`, `LifeStep` : requests under any outcome of their file effects, restarts, and the server stopped and
  started;
* `Leases`, `LeaseLaw` : what the changes of a lease keep holds of the lease in memory and of the saved one;
* `granted_lease_lost` : no restart finds a lease that was granted;
* `Truthful` : the report and the greeting against the check of a write;
  `attestation_truthful` : while no fenced or retired node takes a re-attestation.
-/

namespace FabricEvolution
open Lib

/-- The identifier a fresh process draws; it is never nil. -/
abbrev FreshUuid := { uuid : IncarnationUuid // uuid.isValid = true }

inductive LifeEvent where
  | request (request : NodeRequest) (nowMs laterMs : Nat) (io : NodeIo)
  | restart (uuid : FreshUuid)
  | stop
  | startServer

namespace NodeState
variable (options : NodeOptions) (digestOf : Json → Digest)

def afterLife (node : NodeState) : LifeEvent → NodeState
  | .request request nowMs laterMs io => (node.handle options digestOf io nowMs laterMs request).1
  | .restart uuid => opened options node.disk uuid
  | .stop => node.stop
  | .startServer => node.startServer

def afterLives (node : NodeState) (es : List LifeEvent) : NodeState := es.foldl (afterLife options digestOf) node

end NodeState

def LifeStep (options : NodeOptions) (digestOf : Json → Digest) (node : NodeState) (e : LifeEvent)
    (node' : NodeState) : Prop :=
  node' = node.afterLife options digestOf e

namespace NodeState
variable {options : NodeOptions} {digestOf : Json → Digest} {io : NodeIo} {nowMs laterMs : Nat}
  {node node' : NodeState} {request : NodeRequest} {P : AuthorityLease → Prop}

/-! ## The lease in memory and the lease on disk -/

/-- `P` holds of the lease in memory and of the one in the state file. -/
structure Leases (P : AuthorityLease → Prop) (node : NodeState) : Prop where
  held : ∀ lease, node.lease = some lease → P lease
  saved : ∀ file, node.disk.saved = some file → ∀ lease, file.lease = some lease → P lease

/-- Every granted lease has `P`, and what happens to a lease keeps it. -/
structure LeaseLaw (options : NodeOptions) (P : AuthorityLease → Prop) : Prop where
  granted : ∀ incarnation lease, Granted options incarnation lease → P lease
  withdrawn : ∀ lease state, P lease → P (lease.withdrawn state)
  reattested : ∀ lease seq, P lease → P { lease with attested := true, attestationSeq := seq }
  restored : ∀ lease, P lease → P { lease with attested := false }

theorem Leases.same (h : node.Leases P) (hsame : SameAuthority node node') : node'.Leases P :=
  ⟨hsame.lease ▸ h.held,
    saved_of_sameAuthority (P := fun lease => ∀ l, lease = some l → P l) hsame h.held h.saved⟩

theorem Leases.dispatch (hlaw : LeaseLaw options P) (h : node.Leases P) :
    (node.dispatch options digestOf io nowMs laterMs request).1.Leases P := by
  have hwithdrawn : ∀ state lease, node.withdrawnLease state = some lease → P lease := by
    intro state lease hlease
    obtain ⟨lease₀, hheld, rfl⟩ := Option.map_eq_some_iff.mp hlease
    exact hlaw.withdrawn lease₀ state (h.held lease₀ hheld)
  have hsaving : ∀ {node' : NodeState} (answer : NodeAnswer), node'.Leases P → (node'.saveThen io answer).1.Leases P :=
    fun answer hl => hl.same (saveThen_sameAuthority _ _ answer)
  by_cases htouch : request.touchesAuthority = true
  · cases request with
    | fence body =>
      simp only [NodeState.dispatch]
      rcases fence_cases node io body with ⟨heq, -⟩ | ⟨-, id, answer, heq⟩ <;> rw [heq]
      · exact h
      · exact hsaving answer ⟨hwithdrawn _, h.saved⟩
    | grantAuthority body =>
      simp only [NodeState.dispatch]
      rcases grantAuthority_cases options node io nowMs laterMs body with ⟨heq, -⟩ | ⟨-, lease, answer, hgranted, heq⟩ <;>
        rw [heq]
      · exact h
      · refine hsaving answer ⟨?_, h.saved⟩
        rintro _ ⟨⟩
        exact hlaw.granted _ lease hgranted
    | reattest token =>
      simp only [NodeState.dispatch]
      rcases reattest_cases node nowMs token with ⟨heq, -⟩ | ⟨lease, answer, hheld, -, -, heq⟩ <;> rw [heq]
      · exact h
      · refine ⟨?_, h.saved⟩
        rintro _ ⟨⟩
        exact hlaw.reattested lease _ (h.held lease hheld)
    | retire handoff =>
      simp only [NodeState.dispatch]
      rcases retire_cases node io handoff with ⟨heq, -⟩ | ⟨answer, heq⟩ <;> rw [heq]
      · exact h
      · exact hsaving answer ⟨hwithdrawn _, h.saved⟩
    | _ => cases htouch
  · exact h.same (dispatch_sameAuthority options digestOf node io nowMs laterMs (Bool.not_eq_true _ ▸ htouch))

theorem Leases.handle (hlaw : LeaseLaw options P) (h : node.Leases P) :
    (node.handle options digestOf io nowMs laterMs request).1.Leases P := by
  obtain ⟨node', hsame, -, ⟨heq, -⟩ | ⟨heq, -⟩⟩ := handle_cases options digestOf node io nowMs laterMs request
  · rw [heq]
    exact h.same hsame
  · rw [heq]
    exact (h.same hsame).dispatch hlaw

/-- A lease that is found again is the saved one, detached, with positive numbers and a token. -/
theorem restoreLease_eq_some {lease : Option AuthorityLease} {restored : AuthorityLease}
    (h : restoreLease lease = some restored) : ∃ l, lease = some l ∧ restored = { l with attested := false } ∧
      l.id ≠ 0 ∧ l.epoch ≠ 0 ∧ l.generation ≠ 0 ∧ l.token.isValid = true := by
  unfold restoreLease at h
  split at h
  · cases h
  · rename_i l
    split at h
    · cases h
    · rename_i decoded hread
      have hpositive := authorityLeaseFromJson_positive hread
      rw [eq_of_authorityLeaseFromJson hread] at h hpositive
      exact ⟨l, rfl, (Option.some.inj h).symm, hpositive⟩

/-- What holds of every lease a fresh process restores holds of it in memory and, saved again, on disk. -/
theorem leases_opened {disk : NodeDisk} (uuid : IncarnationUuid)
    (h : ∀ file lease, disk.saved = some file → restoreLease file.lease = some lease → P lease) :
    (opened options disk uuid).Leases P := by
  have hheld : ∀ lease, (opened options disk uuid).lease = some lease → P lease := by
    intro lease hlease
    simp only [opened] at hlease
    cases hsaved : disk.saved with
    | none =>
      rw [hsaved] at hlease
      cases hlease
    | some file =>
      rw [hsaved] at hlease
      exact h file lease hsaved hlease
  refine ⟨hheld, ?_⟩
  rintro file ⟨⟩
  exact hheld

theorem Leases.step {e : LifeEvent} (hlaw : LeaseLaw options P) (h : node.Leases P)
    (hstep : LifeStep options digestOf node e node') : node'.Leases P := by
  subst hstep
  cases e with
  | request request nowMs laterMs io => exact h.handle hlaw
  | restart uuid =>
    refine leases_opened uuid ?_
    intro file restored hsaved hrestored
    obtain ⟨lease, hlease, rfl, -⟩ := restoreLease_eq_some hrestored
    exact hlaw.restored lease (h.saved file hsaved lease hlease)
  | stop => exact ⟨h.held, h.saved⟩
  | startServer => exact ⟨h.held, h.saved⟩

/-! ## A granted lease over a restart -/

/-- A lease without a number; no such lease is read back. -/
def Unnumbered (lease : AuthorityLease) : Prop := lease.id = 0

theorem leaseLaw_unnumbered : LeaseLaw options Unnumbered where
  granted := fun _ _ h => h.id
  withdrawn := fun _ _ h => h
  reattested := fun _ _ h => h
  restored := fun _ h => h

theorem Leases.lost {uuid : FreshUuid} (h : node.Leases Unnumbered) :
    (opened options node.disk uuid).lease = none := by
  have hnone : (opened options node.disk uuid).Leases fun _ => False := by
    refine leases_opened uuid ?_
    intro file restored hsaved hrestored
    obtain ⟨lease, hlease, -, hid, -⟩ := restoreLease_eq_some hrestored
    exact hid (h.saved file hsaved lease hlease)
  cases hlease : (opened options node.disk uuid).lease with
  | none => rfl
  | some lease => exact absurd hlease fun hheld => hnone.held lease hheld

/-- An acknowledged grant has installed an unnumbered lease in memory and on disk. -/
theorem leases_of_grant {body : GrantBody} {answer : NodeAnswer}
    (hack : (node.handle options digestOf io nowMs laterMs (.grantAuthority body)).2.1 = .ok answer) :
    (node.handle options digestOf io nowMs laterMs (.grantAuthority body)).1.lease.isSome = true ∧
      (node.handle options digestOf io nowMs laterMs (.grantAuthority body)).1.Leases Unnumbered := by
  obtain ⟨node', -, -, ⟨-, hno⟩ | ⟨heq, hanswer⟩⟩ :=
    handle_cases options digestOf node io nowMs laterMs (.grantAuthority body)
  · exact absurd hack (hno answer)
  · rw [heq]
    rw [hanswer] at hack
    simp only [NodeState.dispatch] at hack ⊢
    rcases grantAuthority_cases options node' io nowMs laterMs body with ⟨-, hno⟩ | ⟨-, lease, answer', hgranted, hd⟩
    · exact absurd hack (hno answer)
    · rw [hd] at hack ⊢
      cases hsave : io.save with
      | error refusal => simp [saveThen, saveState, hsave] at hack
      | ok u =>
        rw [saveThen_ok answer' hsave]
        refine ⟨rfl, ?_, ?_⟩
        · rintro _ ⟨⟩
          exact hgranted.id
        · rintro _ ⟨⟩ _ ⟨⟩
          exact hgranted.id

/-- What a restart should leave of a lease: the same terms, unattested and unconfirmed. -/
structure KeptAsEvidence (lease : AuthorityLease) (node : NodeState) : Prop where
  lease : node.lease = some { lease with attested := false }
  unconfirmed : node.leaseConfirmed = false

/-! ## The report, the greeting and the check of a write -/

/-- The node's own claim: its incarnation under the terms of the recorded lease. -/
def selfClaim (options : NodeOptions) (node : NodeState) : AuthorityClaim :=
  { shard := options.shard
    incarnation := node.incarnation
    epoch := node.leaseEpoch
    generation := node.leaseGeneration
    token := (node.lease.map (·.token)).getD .nil }

/-- At every instant the node reports live mutating authority exactly when a write under its own claim would pass,
and greets with what it reports. -/
structure Truthful (options : NodeOptions) (digestOf : Json → Digest) (node : NodeState) : Prop where
  report : ∀ nowMs, ((node.report options digestOf nowMs).hasAuthority = true ∧
      (node.report options digestOf nowMs).mode = .mutating) ↔
    node.requireAuthority nowMs (selfClaim options node) .mutating "write" = .ok ()
  greeting : ∀ nowMs, (node.helloOf options nowMs).holdsAuthority = (node.report options digestOf nowMs).hasAuthority

/-- Positive numbers and a token. -/
def Termed (lease : AuthorityLease) : Prop := lease.epoch ≠ 0 ∧ lease.generation ≠ 0 ∧ lease.token.isValid = true

theorem leaseLaw_termed : LeaseLaw options Termed where
  granted := fun _ _ h => ⟨h.epoch, h.generation, h.token⟩
  withdrawn := fun _ _ h => h
  reattested := fun _ _ h => h
  restored := fun _ h => h

/-- Fenced or retired. -/
def OffDuty (node : NodeState) : Prop := node.lifecycle = .fenced ∨ node.lifecycle = .retired

/-- What truthful reports rest on. -/
structure Attestable (options : NodeOptions) (node : NodeState) : Prop where
  incarnation : node.incarnation.isValid = true
  leases : node.Leases Termed
  offDuty : node.OffDuty → ¬ (node.leaseConfirmed = true ∧ node.leaseMode = .mutating)

/-- The check of a write that presents the node's own claim. -/
theorem requireAuthority_selfClaim (h : node.Attestable options) (hshard : options.shard.isValid = true) :
    node.requireAuthority nowMs (selfClaim options node) .mutating "write" = .ok () ↔
      ¬ node.OffDuty ∧ node.leaseLive nowMs = true ∧ node.leaseMode = .mutating := by
  constructor
  · intro hpass
    have hm := mutates_of_requireAuthority hpass
    exact ⟨fun hoff => hoff.elim hm.not_fenced hm.not_retired, hm.live, hm.mutating⟩
  · rintro ⟨hon, hlive, hmode⟩
    have hfenced : node.lifecycle ≠ .fenced := fun hl => hon (.inl hl)
    have hretired : node.lifecycle ≠ .retired := fun hl => hon (.inr hl)
    cases hlease : node.lease with
    | none => simp [leaseLive, hlease] at hlive
    | some lease =>
      obtain ⟨hepoch, hgeneration, htoken⟩ := h.leases.held lease hlease
      have hvalid : (selfClaim options node).isValid = true := by
        simp [AuthorityClaim.isValid, selfClaim, leaseEpoch, leaseGeneration, hlease, hshard, h.incarnation, hepoch, hgeneration,
          htoken]
      simp only [leaseLive, hlease, Bool.and_eq_true, decide_eq_true_eq] at hlive
      have hmutating : lease.mode = .mutating := by simpa [leaseMode, hlease] using hmode
      have hexpires : ¬ nowMs ≥ lease.expiresAtMs := by omega
      simp [requireAuthority, hretired, hfenced, hlease, hlive.1, hexpires, hvalid, hmutating, AuthorityMode.allowsMutation,
        AuthorityMode.allowsRead]
      simp [selfClaim, leaseEpoch, leaseGeneration, hlease]

theorem Attestable.truthful (h : node.Attestable options) (hshard : options.shard.isValid = true) :
    node.Truthful options digestOf := by
  refine ⟨fun nowMs => ?_, fun nowMs => rfl⟩
  rw [requireAuthority_selfClaim h hshard]
  constructor
  · rintro ⟨hlive, hmode⟩
    refine ⟨fun hoff => h.offDuty hoff ⟨?_, hmode⟩, hlive, hmode⟩
    change node.leaseLive nowMs = true at hlive
    unfold leaseLive at hlive
    cases hlease : node.lease with
    | none => simp [hlease] at hlive
    | some lease =>
      simp only [hlease, Bool.and_eq_true] at hlive
      exact hlive.1
  · rintro ⟨-, hlive, hmode⟩
    exact ⟨hlive, hmode⟩

/-- The event re-attests, on a fenced or retired node, a mutating lease that has not expired. -/
def ReattestsOffDuty (node : NodeState) (e : LifeEvent) : Prop :=
  ∃ lease nowMs laterMs io, e = .request (.reattest (some (some lease.token))) nowMs laterMs io ∧
    (node.takeFault "node.reattest").2 ≠ some "error" ∧ node.OffDuty ∧
    node.lease = some lease ∧ lease.mode = .mutating ∧ nowMs < lease.expiresAtMs

theorem Attestable.same (h : node.Attestable options) (hsame : SameAuthority node node') : node'.Attestable options := by
  refine ⟨hsame.incarnation ▸ h.incarnation, h.leases.same hsame, ?_⟩
  unfold OffDuty leaseMode
  rw [hsame.lifecycle, hsame.lease, hsame.leaseConfirmed]
  exact h.offDuty

theorem Attestable.dispatch (h : node.Attestable options)
    (hreattest : ∀ lease, node.OffDuty → node.lease = some lease → lease.mode = .mutating → nowMs < lease.expiresAtMs →
      request ≠ .reattest (some (some lease.token))) :
    (node.dispatch options digestOf io nowMs laterMs request).1.Attestable options := by
  have hincarnation : (node.dispatch options digestOf io nowMs laterMs request).1.incarnation.isValid = true := by
    rw [dispatch_incarnation]
    exact h.incarnation
  have hleases : (node.dispatch options digestOf io nowMs laterMs request).1.Leases Termed := h.leases.dispatch leaseLaw_termed
  refine ⟨hincarnation, hleases, ?_⟩
  -- A lease that is taken away is unconfirmed, and a granted one is in service.
  have hunconfirmed : ∀ {node' : NodeState} (answer : NodeAnswer), node'.leaseConfirmed = false →
      (node'.saveThen io answer).1.OffDuty →
      ¬ ((node'.saveThen io answer).1.leaseConfirmed = true ∧ (node'.saveThen io answer).1.leaseMode = .mutating) := by
    intro node' answer hno _ hyes
    rw [(saveThen_sameAuthority node' io answer).leaseConfirmed, hno] at hyes
    exact Bool.false_ne_true hyes.1
  by_cases htouch : request.touchesAuthority = true
  · cases request with
    | fence body =>
      simp only [NodeState.dispatch]
      rcases fence_cases node io body with ⟨heq, -⟩ | ⟨-, id, answer, heq⟩ <;> rw [heq]
      · exact h.offDuty
      · exact hunconfirmed answer rfl
    | grantAuthority body =>
      simp only [NodeState.dispatch]
      rcases grantAuthority_cases options node io nowMs laterMs body with ⟨heq, -⟩ | ⟨-, lease, answer, -, heq⟩ <;> rw [heq]
      · exact h.offDuty
      · unfold OffDuty
        rw [(saveThen_sameAuthority _ io answer).lifecycle]
        intro hoff
        rcases hoff with hoff | hoff <;> cases hoff
    | reattest token =>
      simp only [NodeState.dispatch]
      rcases reattest_cases node nowMs token with ⟨heq, -⟩ | ⟨lease, answer, hheld, rfl, hlt, heq⟩ <;> rw [heq]
      · exact h.offDuty
      · rintro hoff ⟨-, hmode⟩
        exact hreattest lease hoff hheld hmode hlt rfl
    | retire handoff =>
      simp only [NodeState.dispatch]
      rcases retire_cases node io handoff with ⟨heq, -⟩ | ⟨answer, heq⟩ <;> rw [heq]
      · exact h.offDuty
      · exact hunconfirmed answer rfl
    | _ => cases htouch
  · exact (h.same (dispatch_sameAuthority options digestOf node io nowMs laterMs (Bool.not_eq_true _ ▸ htouch))).offDuty

/-- An injected failure leaves authority alone. -/
theorem handle_of_error (h : (node.takeFault request.op).2 = some "error") :
    SameAuthority node (node.handle options digestOf io nowMs laterMs request).1 := by
  unfold handle
  split
  · rename_i node' hfault
    exact takeFault_sameAuthority hfault
  · rename_i node' fault hno hfault
    rw [hfault] at h
    exact absurd h hno

theorem attestable_opened {disk : NodeDisk} (hcomponent : options.component.isValid = true) (uuid : FreshUuid) :
    (opened options disk uuid).Attestable options := by
  refine ⟨by simp [opened, IncarnationId.isValid, hcomponent, uuid.property], leases_opened uuid ?_, ?_⟩
  · intro file restored hsaved hrestored
    obtain ⟨lease, -, rfl, -, hterms⟩ := restoreLease_eq_some hrestored
    exact hterms
  · rintro - ⟨hconfirmed, -⟩
    cases hconfirmed

theorem Attestable.step {e : LifeEvent} (hcomponent : options.component.isValid = true) (h : node.Attestable options)
    (hstep : LifeStep options digestOf node e node') (hreattest : ¬ node.ReattestsOffDuty e) : node'.Attestable options := by
  subst hstep
  cases e with
  | request request nowMs laterMs io =>
    simp only [afterLife]
    by_cases hfault : (node.takeFault request.op).2 = some "error"
    · exact h.same (handle_of_error hfault)
    · obtain ⟨node', hsame, -, ⟨heq, -⟩ | ⟨heq, -⟩⟩ := handle_cases options digestOf node io nowMs laterMs request
      · rw [heq]
        exact h.same hsame
      · rw [heq]
        refine (h.same hsame).dispatch ?_
        rintro lease hoff hheld hmode hlt rfl
        unfold OffDuty at hoff
        rw [hsame.lifecycle] at hoff
        rw [hsame.lease] at hheld
        exact hreattest ⟨lease, nowMs, laterMs, io, rfl, hfault, hoff, hheld, hmode, hlt⟩
  | restart uuid => exact attestable_opened hcomponent uuid
  | stop =>
    refine ⟨h.incarnation, ⟨h.leases.held, h.leases.saved⟩, ?_⟩
    simp only [afterLife, OffDuty, NodeState.stop]
    intro hoff
    split_ifs at hoff with hrunning
    · rcases hoff with hoff | hoff <;> cases hoff
    · exact h.offDuty hoff
  | startServer =>
    refine ⟨h.incarnation, ⟨h.leases.held, h.leases.saved⟩, ?_⟩
    simp only [afterLife, OffDuty, NodeState.startServer]
    intro hoff
    split_ifs at hoff
    · rcases hoff with hoff | hoff <;> cases hoff
    · exact h.offDuty hoff

end NodeState

/-! ## The two laws -/

variable {options : NodeOptions} {digestOf : Json → Digest} {node node' : NodeState} {es : List LifeEvent}

/-- From any node whose grant was acknowledged, in any order of requests, stops, starts and restarts: the next restart
finds no lease. -/
theorem granted_lease_lost {body : GrantBody} {answer : NodeAnswer} {nowMs laterMs : Nat} {io : NodeIo}
    (hack : (node.handle options digestOf io nowMs laterMs (.grantAuthority body)).2.1 = .ok answer)
    (hrun : Run (LifeStep options digestOf) (node.handle options digestOf io nowMs laterMs (.grantAuthority body)).1 es node')
    (uuid : FreshUuid) :
    ∃ lease, (node.handle options digestOf io nowMs laterMs (.grantAuthority body)).1.lease = some lease ∧
      (node'.afterLife options digestOf (.restart uuid)).lease = none ∧
      ¬ (node'.afterLife options digestOf (.restart uuid)).KeptAsEvidence lease := by
  obtain ⟨hheld, hleases⟩ := NodeState.leases_of_grant hack
  obtain ⟨lease, hlease⟩ := Option.isSome_iff_exists.mp hheld
  have hleases' : node'.Leases NodeState.Unnumbered :=
    hrun.invariant (·.Leases NodeState.Unnumbered) (fun _ _ _ h hstep => h.step NodeState.leaseLaw_unnumbered hstep) hleases
  have hlost : (node'.afterLife options digestOf (.restart uuid)).lease = none := hleases'.lost
  refine ⟨lease, hlease, hlost, fun hkept => ?_⟩
  have hfound := hkept.lease
  rw [hlost] at hfound
  cases hfound

namespace Sample

def freshUuid : FreshUuid := ⟨uuid, by decide⟩

def nodeLater (node : NodeState) (e : LifeEvent) : NodeState := node.afterLife nodeOptions (fun _ => .zero) e

/-- The node takes its lease again. -/
def reattestOwn : LifeEvent := .request (.reattest (some (some (tokens 0)))) 1 1 {}

end Sample

open Sample in
/-- A node that was granted authority and restarted has no lease left. -/
theorem granted_lease_lost_sample : ∃ lease, grantedNode.lease = some lease ∧
    (nodeLater grantedNode (.restart freshUuid)).lease = none ∧
    ¬ (nodeLater grantedNode (.restart freshUuid)).KeptAsEvidence lease := by
  obtain ⟨answer, hack⟩ := exists_answer ((served booted.startServer (.grantAuthority grantBody)).2.1) (by decide +kernel)
  exact granted_lease_lost hack (.nil _) freshUuid

open Sample in
/-- No restart keeps the lease of an acknowledged grant. -/
theorem granted_lease_not_kept : ¬ ∀ (options : NodeOptions) (digestOf : Json → Digest) (disk : NodeDisk) (uuid : FreshUuid)
    (es : List LifeEvent) (node : NodeState) (body : GrantBody) (nowMs laterMs : Nat) (answer : NodeAnswer)
    (lease : AuthorityLease) (next : FreshUuid),
      Run (LifeStep options digestOf) (.opened options disk uuid) es node →
      (node.handle options digestOf {} nowMs laterMs (.grantAuthority body)).2.1 = .ok answer →
      (node.handle options digestOf {} nowMs laterMs (.grantAuthority body)).1.lease = some lease →
      ((node.handle options digestOf {} nowMs laterMs (.grantAuthority body)).1.afterLife options digestOf
        (.restart next)).KeptAsEvidence lease := by
  intro hall
  obtain ⟨answer, hack⟩ := exists_answer ((served booted.startServer (.grantAuthority grantBody)).2.1) (by decide +kernel)
  have hheld : grantedNode.lease.isSome = true := by decide +kernel
  obtain ⟨lease, hlease⟩ := Option.isSome_iff_exists.mp hheld
  have hlost : (nodeLater grantedNode (.restart freshUuid)).lease.isNone = true := by decide +kernel
  have hkept := hall nodeOptions (fun _ => .zero) { bootCounter := 0 } freshUuid [.startServer] booted.startServer grantBody 1 1
    answer lease freshUuid (.single rfl) hack hlease
  rw [show (nodeLater grantedNode (.restart freshUuid)).lease = some { lease with attested := false } from hkept.lease] at hlost
  cases hlost

/-- From any directory, in any order of requests, stops, starts and restarts, and at every instant: the report is
truthful, if no fenced or retired node re-attests a live mutating lease. -/
theorem attestation_truthful {disk : NodeDisk} {uuid : FreshUuid} (hcomponent : options.component.isValid = true)
    (hshard : options.shard.isValid = true)
    (hrun : Run (Guarded (fun node e => ¬ node.ReattestsOffDuty e) (LifeStep options digestOf)) (.opened options disk uuid)
      es node) : node.Truthful options digestOf := by
  have hattestable : node.Attestable options :=
    hrun.invariant (·.Attestable options) (fun _ _ _ h hstep => h.step hcomponent hstep.2 hstep.1)
      (NodeState.attestable_opened hcomponent uuid)
  exact hattestable.truthful hshard

open Sample in
/-- The node is granted authority and fenced. -/
theorem attestation_truthful_sample :
    (nodeLater grantedNode (.request (.fence fenceBody) 1 1 {})).Truthful nodeOptions fun _ => .zero := by
  have hquiet : ∀ (node : NodeState) (e : LifeEvent),
      (∀ token nowMs laterMs io, e ≠ .request (.reattest token) nowMs laterMs io) → ¬ node.ReattestsOffDuty e := by
    rintro node e hno ⟨lease, nowMs, laterMs, io, he, -⟩
    exact hno _ _ _ _ he
  have hrun : Run (Guarded (fun node e => ¬ node.ReattestsOffDuty e) (LifeStep nodeOptions fun _ => .zero))
      (.opened nodeOptions { bootCounter := 0 } freshUuid)
      [.startServer, .request (.grantAuthority grantBody) 1 1 {}, .request (.fence fenceBody) 1 1 {}]
      (nodeLater grantedNode (.request (.fence fenceBody) 1 1 {})) := by
    refine .cons ⟨hquiet _ _ ?_, rfl⟩ (.cons ⟨hquiet _ _ ?_, rfl⟩ (.cons ⟨hquiet _ _ ?_, rfl⟩ (.nil _))) <;>
      rintro _ _ _ _ ⟨⟩
  exact attestation_truthful (by decide) (by decide) hrun

open Sample in
/-- A fenced node re-attests its lease: it reports mutating authority and refuses its own claim. -/
theorem attestation_untruthful_fenced : ¬ ∀ (options : NodeOptions) (digestOf : Json → Digest) (disk : NodeDisk)
    (uuid : FreshUuid) (es : List LifeEvent) (node : NodeState), options.component.isValid = true →
      options.shard.isValid = true → Run (LifeStep options digestOf) (.opened options disk uuid) es node →
      node.Truthful options digestOf := by
  intro hall
  let fenced := nodeLater grantedNode (.request (.fence fenceBody) 1 1 {})
  have htruthful := hall nodeOptions (fun _ => .zero) { bootCounter := 0 } freshUuid
    [.startServer, .request (.grantAuthority grantBody) 1 1 {}, .request (.fence fenceBody) 1 1 {}, reattestOwn]
    (nodeLater fenced reattestOwn) (by decide) (by decide) (.cons rfl (.cons rfl (.cons rfl (.cons rfl (.nil _)))))
  have hreported : ((nodeLater fenced reattestOwn).report nodeOptions (fun _ => .zero) 1).hasAuthority = true ∧
      ((nodeLater fenced reattestOwn).report nodeOptions (fun _ => .zero) 1).mode = .mutating := by decide +kernel
  have hpass := (htruthful.report 1).mp hreported
  have hrefused : ((nodeLater fenced reattestOwn).requireAuthority 1 (NodeState.selfClaim nodeOptions (nodeLater fenced reattestOwn))
      .mutating "write").isOk = false := by decide +kernel
  rw [hpass] at hrefused
  cases hrefused

end FabricEvolution
