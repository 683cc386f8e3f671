import FabricEvolution.Node.Handlers

/-!
# What one request can do to a node

* `SameAuthority` : incarnation, lifecycle, lease and retirement are as before, in memory and on disk;
  `dispatch_sameAuthority` : so they are after every request but fence, grant, re-attestation and retirement;
* `fence_cases`, `grantAuthority_cases`, `reattest_cases`, `retire_cases` : what these four can do; `Granted` :
  the terms of a granted lease;
* `mutates_of_requireAuthority`, `mutates_of_write` : what an accepted write takes.
-/

namespace FabricEvolution
open Lib

namespace NodeState

/-- What the state file says of authority is what it said, or what memory says. -/
def SavedAuthority (node : NodeState) (saved : Option NodeSaved) : Prop :=
  saved = node.disk.saved ∨ ∃ file, saved = some file ∧ file.lease = node.lease ∧ file.retired = node.retiredMarker

/-- Incarnation, lifecycle, lease with its confirmation and retirement are as before. -/
structure SameAuthority (node node' : NodeState) : Prop where
  incarnation : node'.incarnation = node.incarnation
  lifecycle : node'.lifecycle = node.lifecycle
  lease : node'.lease = node.lease
  leaseConfirmed : node'.leaseConfirmed = node.leaseConfirmed
  retiredMarker : node'.retiredMarker = node.retiredMarker
  saved : node.SavedAuthority node'.disk.saved

namespace SameAuthority
variable {node node' node'' : NodeState}

@[refl] theorem refl (node : NodeState) : SameAuthority node node := ⟨rfl, rfl, rfl, rfl, rfl, .inl rfl⟩

theorem trans (h : SameAuthority node node') (h' : SameAuthority node' node'') : SameAuthority node node'' := by
  refine ⟨h'.incarnation.trans h.incarnation, h'.lifecycle.trans h.lifecycle, h'.lease.trans h.lease,
    h'.leaseConfirmed.trans h.leaseConfirmed, h'.retiredMarker.trans h.retiredMarker, ?_⟩
  rcases h'.saved with hsame | ⟨file, hfile, hlease, hretired⟩
  · rw [hsame]
    exact h.saved
  · exact .inr ⟨file, hfile, hlease.trans h.lease, hretired.trans h.retiredMarker⟩

/-- A change that begins by writing other fields of `node`. -/
theorem since (h : SameAuthority node' node'') (hincarnation : node'.incarnation = node.incarnation)
    (hlifecycle : node'.lifecycle = node.lifecycle) (hlease : node'.lease = node.lease)
    (hconfirmed : node'.leaseConfirmed = node.leaseConfirmed) (hretired : node'.retiredMarker = node.retiredMarker)
    (hsaved : node'.disk.saved = node.disk.saved) : SameAuthority node node'' :=
  trans ⟨hincarnation, hlifecycle, hlease, hconfirmed, hretired, .inl hsaved⟩ h

end SameAuthority

variable {options : NodeOptions} {digestOf : Json → Digest} {io : NodeIo} {nowMs laterMs : Nat}
  {node node' : NodeState} {outcome : Result Unit}

/-! ## Requests that leave authority alone -/

theorem saveState_sameAuthority : SameAuthority node (node.saveState io).1 := by
  unfold saveState
  split
  · rfl
  · exact ⟨rfl, rfl, rfl, rfl, rfl, .inr ⟨_, rfl, rfl, rfl⟩⟩

theorem saveThen_fst (answer : NodeAnswer) : (node.saveThen io answer).1 = (node.saveState io).1 := by
  unfold saveThen
  split <;> simp_all

theorem saveThen_sameAuthority (node : NodeState) (io : NodeIo) (answer : NodeAnswer) : SameAuthority node (node.saveThen io answer).1 := by
  rw [saveThen_fst]
  exact saveState_sameAuthority

theorem takeFault_sameAuthority {op : String} {action : Option String} (h : node.takeFault op = (node', action)) :
    SameAuthority node node' := by
  unfold takeFault at h
  dsimp only at h
  split at h <;> cases h <;> exact ⟨rfl, rfl, rfl, rfl, rfl, .inl rfl⟩

theorem appendRecordEntry_sameAuthority {record : ReplicationRecord}
    (h : node.appendRecordEntry options io record = (node', outcome)) : SameAuthority node node' := by
  unfold appendRecordEntry compactRecords at h
  split at h
  · cases h; rfl
  · dsimp only at h
    split at h
    · split at h <;> cases h <;> exact ⟨rfl, rfl, rfl, rfl, rfl, .inl rfl⟩
    · cases h; exact ⟨rfl, rfl, rfl, rfl, rfl, .inl rfl⟩

theorem applyRecord_sameAuthority {expected : SourceBinding} {entry : Result ReplicationRecord}
    (h : node.applyRecord options io expected entry = (node', outcome)) : SameAuthority node node' := by
  unfold applyRecord at h
  cases entry with
  | error refusal => cases h; rfl
  | ok entry =>
    dsimp only at h
    split_ifs at h
    · cases h; rfl
    · cases h; rfl
    · split at h
      · cases h; rfl
      · exact (appendRecordEntry_sameAuthority h).since rfl rfl rfl rfl rfl rfl

theorem applyAll_sameAuthority {expected : SourceBinding} {entries : List (Result ReplicationRecord)}
    (h : applyAll options io expected node entries = (node', outcome)) : SameAuthority node node' := by
  induction entries generalizing node with
  | nil => cases h; rfl
  | cons entry rest ih =>
    unfold applyAll at h
    split at h
    · rename_i heq
      cases h
      exact applyRecord_sameAuthority heq
    · rename_i heq
      exact (applyRecord_sameAuthority heq).trans (ih h)

theorem recordSteps_sameAuthority {steps : List MigrationStepRecord}
    (h : recordSteps options nowMs node steps = (node', outcome)) : SameAuthority node node' := by
  induction steps generalizing node with
  | nil => cases h; rfl
  | cons step rest ih =>
    unfold recordSteps at h
    split at h
    · cases h; rfl
    · exact (ih h).since rfl rfl rfl rfl rfl rfl

theorem prepare_sameAuthority (body : PrepareBody) : SameAuthority node (node.prepare options nowMs body).1 := by
  unfold prepare prepareSuccessor preparePredecessor
  repeat' split
  all_goals exact ⟨rfl, rfl, rfl, rfl, rfl, .inl rfl⟩

theorem snapshot_sameAuthority (handoff : Option Nat) : SameAuthority node (node.snapshot digestOf io handoff).1 := by
  unfold snapshot
  split
  · rfl
  · split
    · rfl
    · split
      · rfl
      · split
        rename_i node' corrupted hfault
        have hbefore := takeFault_sameAuthority hfault
        dsimp only
        split
        · exact hbefore
        · exact hbefore.trans ((saveThen_sameAuthority _ _ _).since rfl rfl rfl rfl rfl rfl)

theorem installSnapshot_sameAuthority (handoff : Option Nat) (snapshot : Option SnapshotBody) :
    SameAuthority node (node.installSnapshot digestOf io handoff snapshot).1 := by
  unfold installSnapshot
  dsimp only
  split
  · rfl
  · split
    · exact ⟨rfl, rfl, rfl, rfl, rfl, .inl rfl⟩
    · exact (saveThen_sameAuthority _ _ _).since rfl rfl rfl rfl rfl rfl

theorem applyRecords_sameAuthority (body : ApplyBody) : SameAuthority node (node.applyRecords options io body).1 := by
  unfold applyRecords
  dsimp only
  split
  · rfl
  · split
    · rename_i heq
      exact applyAll_sameAuthority heq
    · rename_i heq
      exact (applyAll_sameAuthority heq).trans (saveThen_sameAuthority _ _ _)

theorem readiness_sameAuthority (handoff : Option Nat) (targetLsn targetSchema : Nat) :
    SameAuthority node (node.readiness digestOf handoff targetLsn targetSchema).1 := by
  unfold readiness
  dsimp only
  split
  · rfl
  · split_ifs <;> rfl

theorem migrate_sameAuthority (handoff : Option Nat) (steps : Option (List (Result MigrationStepSpec))) :
    SameAuthority node (node.migrate options digestOf io nowMs handoff steps).1 := by
  unfold migrate
  dsimp only
  split
  · rfl
  · split
    · rfl
    · split
      · rename_i heq
        exact (recordSteps_sameAuthority heq).since rfl rfl rfl rfl rfl rfl
      · rename_i heq
        exact ((recordSteps_sameAuthority heq).trans (saveThen_sameAuthority _ _ _)).since rfl rfl rfl rfl rfl rfl

theorem applyWrite_sameAuthority {key value : String} {epoch generation : Nat} {origin : IncarnationId}
    (h : node.applyWrite options digestOf io key value epoch generation origin = (node', outcome)) :
    SameAuthority node node' := by
  unfold applyWrite at h
  split at h
  · cases h; rfl
  · split at h
    · cases h; rfl
    · dsimp only at h
      split at h
      · rename_i heq
        cases h
        exact (appendRecordEntry_sameAuthority heq).since rfl rfl rfl rfl rfl rfl
      · rename_i heq
        have hsave : SameAuthority _ node' := congrArg Prod.fst h ▸ saveState_sameAuthority
        exact ((appendRecordEntry_sameAuthority heq).trans hsave).since rfl rfl rfl rfl rfl rfl

theorem write_sameAuthority (body : WriteBody) :
    SameAuthority node (node.write options digestOf io nowMs body).1 := by
  unfold write
  split
  · rfl
  · rfl
  · split
    · exact ⟨rfl, rfl, rfl, rfl, rfl, .inl rfl⟩
    · rfl
    · split
      · split
        · rename_i heq
          exact applyWrite_sameAuthority heq
        · rename_i heq
          exact (applyWrite_sameAuthority heq).trans ⟨rfl, rfl, rfl, rfl, rfl, .inl rfl⟩
      · rfl

theorem read_sameAuthority (key : Option String) (allowStale : Bool) :
    SameAuthority node (node.read digestOf nowMs key allowStale).1 := by
  unfold read
  split
  · rfl
  · dsimp only
    split_ifs
    · rfl
    · rfl
    · exact ⟨rfl, rfl, rfl, rfl, rfl, .inl rfl⟩

theorem faultsHandler_sameAuthority (op action : Option String) (count : Option Nat) :
    SameAuthority node (node.faultsHandler op action count).1 := by
  unfold faultsHandler setFault
  split
  · dsimp only
    split_ifs <;> exact ⟨rfl, rfl, rfl, rfl, rfl, .inl rfl⟩
  · rfl

end NodeState

/-- The body of a fence that this incarnation takes for its own: positive ids and the incarnation as target. -/
structure FenceBody.Names (body : FenceBody) (incarnation : IncarnationId) : Prop where
  handoff : ∃ id, body.handoff = some id ∧ id ≠ 0
  fenceId : ∃ id, body.fenceId = some id ∧ id ≠ 0
  target : body.target = some (.ok incarnation)

/-- The four requests that change authority. -/
def NodeRequest.touchesAuthority : NodeRequest → Bool
  | fence _ | grantAuthority _ | reattest _ | retire _ => true
  | _ => false

namespace NodeState
variable {options : NodeOptions} {digestOf : Json → Digest} {io : NodeIo} {nowMs laterMs : Nat}
  {node node' : NodeState}

theorem dispatch_sameAuthority (options : NodeOptions) (digestOf : Json → Digest) (node : NodeState) (io : NodeIo)
    (nowMs laterMs : Nat) {request : NodeRequest} (h : request.touchesAuthority = false) :
    SameAuthority node (node.dispatch options digestOf io nowMs laterMs request).1 := by
  cases request with
  | hello => rfl
  | status => rfl
  | faults op action count => exact faultsHandler_sameAuthority op action count
  | prepare body => exact prepare_sameAuthority body
  | snapshot handoff => exact snapshot_sameAuthority handoff
  | installSnapshot handoff snapshot => exact installSnapshot_sameAuthority handoff snapshot
  | readSince fromLsn maxRecords =>
    simp only [dispatch, readSince]
    split <;> rfl
  | applyRecords body => exact applyRecords_sameAuthority body
  | readiness handoff targetLsn targetSchema => exact readiness_sameAuthority handoff targetLsn targetSchema
  | fence body => cases h
  | grantAuthority body => cases h
  | reattest token => cases h
  | migrate handoff steps => exact migrate_sameAuthority handoff steps
  | retire handoff => cases h
  | write body => exact write_sameAuthority body
  | read key allowStale => exact read_sameAuthority key allowStale
  | unknown op => rfl

/-! ## Requests that change authority -/

/-- A fence is refused, repeated, or takes the lease away and saves. -/
theorem fence_cases (node : NodeState) (io : NodeIo) (body : FenceBody) :
    (node.fence io body).1 = node ∧ (∀ answer, (node.fence io body).2 = .ok answer → node.lifecycle = .fenced) ∨
      body.Names node.incarnation ∧ ∃ id answer, node.fence io body =
        { node with
          lifecycle := .fenced
          leaseConfirmed := false
          lease := node.withdrawnLease .fenced
          lastFenceId := id }.saveThen io answer := by
  unfold fence
  dsimp only
  split
  · exact .inl ⟨rfl, fun _ h => by cases h⟩
  · rename_i id target hchecked
    simp only [Result.bind_eq_ok, orRefuse_eq_ok] at hchecked
    obtain ⟨handoff, hhandoff, _, hid, read, htarget, _, rfl, hok⟩ := hchecked
    cases hok
    split_ifs with hother hagain
    · exact .inl ⟨rfl, fun _ h => by cases h⟩
    · exact .inl ⟨rfl, fun _ _ => hagain.1⟩
    · obtain rfl := not_not.mp hother
      simp only [parseHandoffId, orRefuse_eq_ok, Option.filter_eq_some_iff, decide_eq_true_eq] at hhandoff hid
      exact .inr ⟨⟨⟨handoff, hhandoff⟩, ⟨id, hid⟩, htarget⟩, _, _, rfl⟩

/-- The terms of a lease that a grant installs. -/
structure Granted (options : NodeOptions) (incarnation : IncarnationId) (lease : AuthorityLease) : Prop where
  holder : lease.holder = incarnation
  shard : lease.shard = options.shard
  id : lease.id = 0
  epoch : lease.epoch ≠ 0
  generation : lease.generation ≠ 0
  token : lease.token.isValid = true

theorem readGrant_positive {body : GrantBody} {epoch generation ttlMs : Nat} {token : AuthorityToken} {mode : AuthorityMode}
    (h : readGrant options body = .ok (epoch, generation, token, mode, ttlMs)) :
    epoch ≠ 0 ∧ generation ≠ 0 ∧ token.isValid = true := by
  unfold readGrant at h
  split at h
  · rename_i epoch₀ generation₀ token₀ modeText hepoch hgeneration _ _
    simp only [Option.filter_eq_some_iff, decide_eq_true_eq] at hepoch hgeneration
    simp only [Result.bind_eq_ok, orRefuse_eq_ok, Option.filter_eq_some_iff] at h
    obtain ⟨token, ⟨-, hvalid⟩, mode, -, _, -, h⟩ := h
    cases h
    exact ⟨hepoch.2, hgeneration.2, hvalid⟩
  · cases h

/-- A grant is refused, or installs a lease of this incarnation and saves; a retired node refuses it. -/
theorem grantAuthority_cases (options : NodeOptions) (node : NodeState) (io : NodeIo) (nowMs laterMs : Nat)
    (body : GrantBody) :
    (node.grantAuthority options io nowMs laterMs body).1 = node ∧
        (∀ answer, (node.grantAuthority options io nowMs laterMs body).2 ≠ .ok answer) ∨
      node.lifecycle ≠ .retired ∧ ∃ lease answer, Granted options node.incarnation lease ∧
        node.grantAuthority options io nowMs laterMs body =
          { node with lease := some lease, leaseConfirmed := true, lifecycle := .serving }.saveThen io answer := by
  unfold grantAuthority
  split
  · exact .inl ⟨rfl, fun _ h => by cases h⟩
  · split_ifs with hretired
    · exact .inl ⟨rfl, fun _ h => by cases h⟩
    · split
      · exact .inl ⟨rfl, fun _ h => by cases h⟩
      · rename_i hread
        obtain ⟨hepoch, hgeneration, htoken⟩ := readGrant_positive hread
        exact .inr ⟨hretired, _, _, ⟨rfl, rfl, rfl, hepoch, hgeneration, htoken⟩, rfl⟩

/-- A re-attestation is refused, or confirms the recorded lease whatever its state. -/
theorem reattest_cases (node : NodeState) (nowMs : Nat) (token : Option (Option AuthorityToken)) :
    (node.reattest nowMs token).1 = node ∧ (∀ answer, (node.reattest nowMs token).2 ≠ .ok answer) ∨
      ∃ lease answer, node.lease = some lease ∧ token = some (some lease.token) ∧ nowMs < lease.expiresAtMs ∧
        node.reattest nowMs token =
          ({ node with
              lease := some { lease with attested := true, attestationSeq := wrapAdd lease.attestationSeq 1 }
              leaseConfirmed := true }, .ok answer) := by
  unfold reattest
  split
  · exact .inl ⟨rfl, fun _ h => by cases h⟩
  · exact .inl ⟨rfl, fun _ h => by cases h⟩
  · split
    · exact .inl ⟨rfl, fun _ h => by cases h⟩
    · rename_i lease hlease
      obtain ⟨hlease, htoken⟩ := Option.filter_eq_some_iff.mp hlease
      split_ifs with hexpired
      · exact .inl ⟨rfl, fun _ h => by cases h⟩
      · refine .inr ⟨lease, _, hlease, ?_, by omega, rfl⟩
        rw [of_decide_eq_true htoken]

/-- A retirement is refused for want of a handoff, or takes the lease away for good and saves. -/
theorem retire_cases (node : NodeState) (io : NodeIo) (handoff : Option Nat) :
    (node.retire io handoff).1 = node ∧ (∀ answer, (node.retire io handoff).2 ≠ .ok answer) ∨
      ∃ answer, node.retire io handoff =
        { node with
          lifecycle := .retired
          retiredMarker := true
          leaseConfirmed := false
          lease := node.withdrawnLease .revoked }.saveThen io answer := by
  unfold retire
  split
  · exact .inl ⟨rfl, fun _ h => by cases h⟩
  · exact .inr ⟨_, rfl⟩

/-- No request replaces the incarnation. -/
theorem dispatch_incarnation (request : NodeRequest) :
    (node.dispatch options digestOf io nowMs laterMs request).1.incarnation = node.incarnation := by
  by_cases h : request.touchesAuthority = true
  · cases request with
    | fence body =>
      rcases fence_cases node io body with ⟨h, -⟩ | ⟨-, id, answer, h⟩ <;> simp only [dispatch, h]
      exact (saveThen_sameAuthority _ _ answer).incarnation
    | grantAuthority body =>
      rcases grantAuthority_cases options node io nowMs laterMs body with ⟨h, -⟩ | ⟨-, lease, answer, -, h⟩ <;> simp only [dispatch, h]
      exact (saveThen_sameAuthority _ _ answer).incarnation
    | reattest token =>
      rcases reattest_cases node nowMs token with ⟨h, -⟩ | ⟨lease, answer, -, -, -, h⟩ <;>
        simp only [dispatch, h]
    | retire handoff =>
      rcases retire_cases node io handoff with ⟨h, -⟩ | ⟨answer, h⟩ <;> simp only [dispatch, h]
      exact (saveThen_sameAuthority _ _ answer).incarnation
    | _ => cases h
  · exact (dispatch_sameAuthority _ _ _ _ _ _ (Bool.not_eq_true _ ▸ h)).incarnation

/-! ## Acceptance of mutations -/

/-- The node would accept a write presented with the claim of its own recorded lease. -/
def AcceptsOwnClaim (node : NodeState) (nowMs : Nat) : Prop :=
  ∃ claim, node.ownClaim = some claim ∧ node.requireAuthority nowMs claim .mutating "write" = .ok ()

/-- What acceptance takes of the node: it is in service and holds a live mutating lease. -/
structure Mutates (node : NodeState) (nowMs : Nat) : Prop where
  not_retired : node.lifecycle ≠ .retired
  not_fenced : node.lifecycle ≠ .fenced
  live : node.leaseLive nowMs = true
  mutating : node.leaseMode = .mutating

theorem mutates_of_requireAuthority {claim : AuthorityClaim} {op : String}
    (h : node.requireAuthority nowMs claim .mutating op = .ok ()) : node.Mutates nowMs := by
  unfold requireAuthority at h
  simp only [refuseOp, Result.ite_error_eq_ok] at h
  obtain ⟨hretired, hfenced, h⟩ := h
  cases hlease : node.lease with
  | none => simp [hlease] at h
  | some lease =>
    simp only [hlease, Result.ite_error_eq_ok] at h
    obtain ⟨hconfirmed, hexpires, -, -, -, -, -, hmode, -⟩ := h
    have hmutating : lease.mode = .mutating := by simpa [AuthorityMode.allowsMutation] using hmode
    refine ⟨hretired, hfenced, ?_, by simp [leaseMode, hlease, hmutating]⟩
    simp_all [leaseLive]

/-- An accepted write takes live mutating authority. -/
theorem mutates_of_write {body : WriteBody} {answer : NodeAnswer}
    (h : (node.write options digestOf io nowMs body).2 = .ok answer) : node.Mutates nowMs := by
  unfold write at h
  split at h
  · cases h
  · cases h
  · rename_i claim _
    cases hauthority : node.requireAuthority nowMs claim .mutating "write" with
    | error refusal => simp [hauthority] at h
    | ok u => exact mutates_of_requireAuthority hauthority

theorem AcceptsOwnClaim.mutates (h : node.AcceptsOwnClaim nowMs) : node.Mutates nowMs := by
  obtain ⟨claim, -, hauthority⟩ := h
  exact mutates_of_requireAuthority hauthority

theorem leaseLive_anti {t t' : Nat} (h : t ≤ t') (hlive : node.leaseLive t' = true) : node.leaseLive t = true := by
  unfold leaseLive at hlive ⊢
  cases hlease : node.lease with
  | none => simp [hlease] at hlive
  | some lease =>
    simp only [hlease, Bool.and_eq_true, decide_eq_true_eq] at hlive ⊢
    exact ⟨hlive.1, by omega⟩

theorem Mutates.anti {t t' : Nat} (h : t ≤ t') (hm : node.Mutates t') : node.Mutates t :=
  ⟨hm.not_retired, hm.not_fenced, leaseLive_anti h hm.live, hm.mutating⟩

/-- Requests that leave authority alone leave acceptance alone. -/
theorem SameAuthority.mutates (h : SameAuthority node node') (hm : node'.Mutates nowMs) :
    node.Mutates nowMs := by
  obtain ⟨hretired, hfenced, hlive, hmode⟩ := hm
  rw [h.lifecycle] at hretired hfenced
  simp only [leaseLive, leaseMode, h.lease, h.leaseConfirmed] at hlive hmode
  exact ⟨hretired, hfenced, hlive, hmode⟩

end NodeState

end FabricEvolution
