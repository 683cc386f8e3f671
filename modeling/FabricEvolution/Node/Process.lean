import FabricEvolution.Node.Step
import FabricEvolution.Authority.Run

/-!
# The process around a node

Requests in any order, the server stopped and started again, and processes that die and are followed by a
fresh one on the same directory.

* `ProcessEvent`, `ProcessStep` : what happens to a node object and its directory;
* `Barred` : no write passes, now or after a restart, until a grant; `Barred.step`;
* `fence_is_sticky` : after a fence, while no withdrawn lease is re-attested;
* `OutOfService` : retired in memory and on disk; `retirement_is_terminal` : while no retired node is fenced.
-/

namespace FabricEvolution
open Lib

inductive ProcessEvent where
  | request (request : NodeRequest) (nowMs laterMs : Nat)
  /-- The process dies while it serves a request, at any of its file effects, and a fresh one opens. -/
  | torn (request : NodeRequest) (nowMs laterMs : Nat) (io : NodeIo) (uuid : IncarnationUuid)
  | crash (uuid : IncarnationUuid)
  | stop
  | startServer

namespace NodeState
variable (options : NodeOptions) (digestOf : Json → Digest)

def afterEvent (node : NodeState) : ProcessEvent → NodeState
  | .request request nowMs laterMs => (node.handle options digestOf {} nowMs laterMs request).1
  | .torn request nowMs laterMs io uuid =>
    opened options (node.handle options digestOf io nowMs laterMs request).1.disk uuid
  | .crash uuid => opened options node.disk uuid
  | .stop => node.stop
  | .startServer => node.startServer

/-- The request accepted in an event: its handler has answered, whether or not the answer got out. -/
def Accepts (node : NodeState) : ProcessEvent → NodeRequest → Prop
  | .request request nowMs laterMs, accepted =>
    request = accepted ∧ ∃ answer, (node.handle options digestOf {} nowMs laterMs request).2.1 = .ok answer
  | .torn request nowMs laterMs io _, accepted =>
    request = accepted ∧ ∃ answer, (node.handle options digestOf io nowMs laterMs request).2.1 = .ok answer
  | _, _ => False

end NodeState

def ProcessStep (options : NodeOptions) (digestOf : Json → Digest) (node : NodeState) (e : ProcessEvent)
    (node' : NodeState) : Prop :=
  node' = node.afterEvent options digestOf e

namespace NodeState
variable {options : NodeOptions} {digestOf : Json → Digest} {io : NodeIo} {nowMs laterMs : Nat}
  {node node' : NodeState} {request : NodeRequest}

theorem takeFault_fst (node : NodeState) (op : String) : ∃ faults, (node.takeFault op).1 = { node with faults := faults } := by
  unfold takeFault
  dsimp only
  split
  · exact ⟨node.faults, rfl⟩
  · exact ⟨_, rfl⟩

/-- A request ends at an armed fault, or its handler runs on the node with the fault used up. -/
theorem handle_faults (options : NodeOptions) (digestOf : Json → Digest) (node : NodeState) (io : NodeIo) (nowMs laterMs : Nat)
    (request : NodeRequest) : ∃ faults,
    (node.takeFault request.op).2 = some "error" ∧
        (node.handle options digestOf io nowMs laterMs request).1 = { node with faults := faults } ∧
        (∃ refusal, (node.handle options digestOf io nowMs laterMs request).2.1 = .error refusal) ∨
      (node.takeFault request.op).2 ≠ some "error" ∧
        (node.handle options digestOf io nowMs laterMs request).1 =
          ({ node with faults := faults }.dispatch options digestOf io nowMs laterMs request).1 ∧
        (node.handle options digestOf io nowMs laterMs request).2.1 =
          ({ node with faults := faults }.dispatch options digestOf io nowMs laterMs request).2 := by
  obtain ⟨faults, hfaults⟩ := takeFault_fst node request.op
  refine ⟨faults, ?_⟩
  unfold handle
  split
  · rename_i node' hfault
    rw [hfault] at hfaults ⊢
    exact .inl ⟨rfl, hfaults, _, rfl⟩
  · rename_i node' fault hno hfault
    rw [hfault] at hfaults ⊢
    obtain rfl : node' = { node with faults := faults } := hfaults
    exact .inr ⟨fun herror => hno herror, rfl, rfl⟩

/-- A request fails by an injected fault, or its handler runs on a node with the same authority. -/
theorem handle_cases (options : NodeOptions) (digestOf : Json → Digest) (node : NodeState) (io : NodeIo) (nowMs laterMs : Nat)
    (request : NodeRequest) : ∃ node', SameAuthority node node' ∧ node'.disk = node.disk ∧
    ((node.handle options digestOf io nowMs laterMs request).1 = node' ∧
        (∀ answer, (node.handle options digestOf io nowMs laterMs request).2.1 ≠ .ok answer) ∨
      (node.handle options digestOf io nowMs laterMs request).1 =
          (node'.dispatch options digestOf io nowMs laterMs request).1 ∧
        (node.handle options digestOf io nowMs laterMs request).2.1 =
          (node'.dispatch options digestOf io nowMs laterMs request).2) := by
  obtain ⟨faults, h⟩ := handle_faults options digestOf node io nowMs laterMs request
  refine ⟨{ node with faults := faults }, ⟨rfl, rfl, rfl, rfl, rfl, .inl rfl⟩, rfl, ?_⟩
  obtain ⟨-, hnode, refusal, hrefused⟩ | ⟨-, hnode, hanswer⟩ := h
  · refine .inl ⟨hnode, fun answer hanswer => ?_⟩
    cases hrefused.symm.trans hanswer
  · exact .inr ⟨hnode, hanswer⟩

theorem saveThen_ok (answer : NodeAnswer) (hsave : io.save = .ok ()) : node.saveThen io answer =
    ({ node with disk := { node.disk with saved := some node.toSaved } }, .ok answer) := by
  simp only [saveThen, saveState, hsave]

theorem mutates_of_handle_write {body : WriteBody} {answer : NodeAnswer}
    (h : (node.handle options digestOf io nowMs laterMs (.write body)).2.1 = .ok answer) : node.Mutates nowMs := by
  obtain ⟨node', hsame, -, ⟨-, hno⟩ | ⟨-, hanswer⟩⟩ := handle_cases options digestOf node io nowMs laterMs (.write body)
  · exact absurd h (hno answer)
  · rw [hanswer] at h
    exact hsame.mutates (mutates_of_write h)

/-! ## Fenced until the next grant -/

/-- A lease that is not in force, if any. -/
def Withdrawn (lease : Option AuthorityLease) : Prop := ∀ l, lease = some l → l.state ≠ .active

theorem withdrawn_withdrawnLease {state : LeaseState} (hstate : state ≠ .active) : Withdrawn (node.withdrawnLease state) := by
  intro l hl
  simp only [withdrawnLease, Option.map_eq_some_iff] at hl
  obtain ⟨l₀, -, rfl⟩ := hl
  exact hstate

/-- No write passes, and none would after a restart. -/
structure Barred (node : NodeState) : Prop where
  unconfirmed : node.leaseConfirmed = false
  withdrawn : Withdrawn node.lease
  saved : ∀ file, node.disk.saved = some file → Withdrawn file.lease

theorem saved_of_sameAuthority {P : Option AuthorityLease → Prop} (hsame : SameAuthority node node')
    (hlease : P node.lease) (hsaved : ∀ file, node.disk.saved = some file → P file.lease) :
    ∀ file, node'.disk.saved = some file → P file.lease := by
  intro file hfile
  rcases hsame.saved with hdisk | ⟨file', hfile', heq, -⟩
  · exact hsaved file (hdisk ▸ hfile)
  · cases hfile'.symm.trans hfile
    rw [heq]
    exact hlease

theorem Barred.same (h : node.Barred) (hsame : SameAuthority node node') : node'.Barred :=
  ⟨hsame.leaseConfirmed.trans h.unconfirmed, hsame.lease ▸ h.withdrawn,
    saved_of_sameAuthority hsame h.withdrawn h.saved⟩

/-- A restart finds the recorded lease as it was, unconfirmed. -/
theorem barred_opened {disk : NodeDisk} (h : ∀ file, disk.saved = some file → Withdrawn file.lease)
    (uuid : IncarnationUuid) : (opened options disk uuid).Barred := by
  have hrestore : ∀ lease, Withdrawn lease → Withdrawn (restoreLease lease) := by
    intro lease hlease l hl
    unfold restoreLease at hl
    split at hl
    · cases hl
    · split at hl
      · cases hl
      · rename_i lease₀ _ restored hread
        cases hl
        rw [eq_of_authorityLeaseFromJson hread]
        exact hlease lease₀ rfl
  have hlease : Withdrawn (opened options disk uuid).lease := by
    refine hrestore _ ?_
    cases hsaved : disk.saved with
    | none =>
      intro l hl
      cases hl
    | some file => exact h file hsaved
  refine ⟨rfl, hlease, ?_⟩
  rintro file ⟨⟩
  exact hlease

/-- What a request does to a barred node, an accepted grant apart. -/
theorem Barred.dispatch (h : node.Barred)
    (hgrant : ∀ body, request = .grantAuthority body →
      ∀ answer, (node.dispatch options digestOf io nowMs laterMs request).2 ≠ .ok answer) :
    (∀ file, (node.dispatch options digestOf io nowMs laterMs request).1.disk.saved = some file → Withdrawn file.lease) ∧
      (io.save = .ok () →
        (∀ lease, node.lease = some lease → request = .reattest (some (some lease.token)) → ¬ nowMs < lease.expiresAtMs) →
        (node.dispatch options digestOf io nowMs laterMs request).1.Barred) := by
  have hbarred : ∀ {node' : NodeState} (answer : NodeAnswer), node'.Barred → (node'.saveThen io answer).1.Barred :=
    fun answer hb => hb.same (saveThen_sameAuthority _ _ answer)
  by_cases htouch : request.touchesAuthority = true
  · cases request with
    | fence body =>
      have hb : (node.fence io body).1.Barred := by
        rcases fence_cases node io body with ⟨heq, -⟩ | ⟨-, id, answer, heq⟩ <;> rw [heq]
        · exact h
        · exact hbarred answer ⟨rfl, withdrawn_withdrawnLease (by decide), h.saved⟩
      exact ⟨hb.saved, fun _ _ => hb⟩
    | grantAuthority body =>
      rcases grantAuthority_cases options node io nowMs laterMs body with ⟨heq, -⟩ | ⟨-, lease, answer, -, heq⟩
      · simp only [NodeState.dispatch, heq]
        exact ⟨h.saved, fun _ _ => h⟩
      · have hno := hgrant body rfl
        simp only [NodeState.dispatch, heq] at hno ⊢
        cases hsave : io.save with
        | ok u => exact absurd (congrArg Prod.snd (saveThen_ok answer hsave)) (hno answer)
        | error refusal =>
          simp only [saveThen, saveState, hsave]
          exact ⟨h.saved, fun hok => by cases hok⟩
    | reattest token =>
      rcases reattest_cases node nowMs token with ⟨heq, -⟩ | ⟨lease, answer, hl, rfl, hlt, heq⟩ <;>
        simp only [NodeState.dispatch, heq]
      · exact ⟨h.saved, fun _ _ => h⟩
      · exact ⟨h.saved, fun _ hre => absurd hlt (hre lease hl rfl)⟩
    | retire handoff =>
      have hb : (node.retire io handoff).1.Barred := by
        rcases retire_cases node io handoff with ⟨heq, -⟩ | ⟨answer, heq⟩ <;> rw [heq]
        · exact h
        · exact hbarred answer ⟨rfl, withdrawn_withdrawnLease (by decide), h.saved⟩
      exact ⟨hb.saved, fun _ _ => hb⟩
    | _ => cases htouch
  · have hb := h.same (dispatch_sameAuthority options digestOf node io nowMs laterMs (Bool.not_eq_true _ ▸ htouch))
    exact ⟨hb.saved, fun _ _ => hb⟩

/-- The event re-attests a recorded lease that is fenced or revoked. -/
def ReattestsWithdrawn (node : NodeState) (e : ProcessEvent) : Prop :=
  ∃ lease nowMs laterMs, e = .request (.reattest (some (some lease.token))) nowMs laterMs ∧
    node.lease = some lease ∧ lease.state ≠ .active ∧ nowMs < lease.expiresAtMs

/-- A barred node stays barred until a grant is accepted or a withdrawn lease re-attested. -/
theorem Barred.step {e : ProcessEvent} (h : node.Barred) (hstep : ProcessStep options digestOf node e node')
    (hreattest : ¬ node.ReattestsWithdrawn e)
    (hgrant : ∀ body, ¬ node.Accepts options digestOf e (.grantAuthority body)) : node'.Barred := by
  subst hstep
  have hhandled : ∀ {io nowMs laterMs request},
      (∀ body, request = .grantAuthority body →
        ∀ answer, (node.handle options digestOf io nowMs laterMs request).2.1 ≠ .ok answer) →
      (∀ file, (node.handle options digestOf io nowMs laterMs request).1.disk.saved = some file →
          Withdrawn file.lease) ∧
        (io.save = .ok () →
          (∀ lease, node.lease = some lease → request = .reattest (some (some lease.token)) →
            ¬ nowMs < lease.expiresAtMs) →
          (node.handle options digestOf io nowMs laterMs request).1.Barred) := by
    intro io nowMs laterMs request hno
    obtain ⟨node', hsame, -, ⟨heq, -⟩ | ⟨heq, hanswer⟩⟩ := handle_cases options digestOf node io nowMs laterMs
      request
    · rw [heq]
      have hb := h.same hsame
      exact ⟨hb.saved, fun _ _ => hb⟩
    · rw [heq]
      rw [hanswer] at hno
      have hd := (h.same hsame).dispatch hno
      rw [hsame.lease] at hd
      exact hd
  cases e with
  | request request nowMs laterMs =>
    refine (hhandled ?_).2 rfl ?_
    · rintro body rfl answer hanswer
      exact hgrant body ⟨rfl, answer, hanswer⟩
    · rintro lease hlease rfl hlt
      exact hreattest ⟨lease, nowMs, laterMs, rfl, hlease, h.withdrawn lease hlease, hlt⟩
  | torn request nowMs laterMs io uuid =>
    refine barred_opened (hhandled ?_).1 uuid
    rintro body rfl answer hanswer
    exact hgrant body ⟨rfl, answer, hanswer⟩
  | crash uuid => exact barred_opened h.saved uuid
  | stop => exact ⟨h.unconfirmed, h.withdrawn, h.saved⟩
  | startServer => exact ⟨h.unconfirmed, h.withdrawn, h.saved⟩

/-- Retired, in memory and on disk. -/
structure OutOfService (node : NodeState) : Prop where
  lifecycle : node.lifecycle = .retired
  marker : node.retiredMarker = true
  saved : ∃ file, node.disk.saved = some file ∧ file.retired = true

theorem OutOfService.same (h : node.OutOfService) (hsame : SameAuthority node node') : node'.OutOfService := by
  refine ⟨hsame.lifecycle.trans h.lifecycle, hsame.retiredMarker.trans h.marker, ?_⟩
  rcases hsame.saved with hdisk | ⟨file, hfile, -, hretired⟩
  · rw [hdisk]
    exact h.saved
  · exact ⟨file, hfile, hretired.trans h.marker⟩

theorem outOfService_opened {disk : NodeDisk} (h : ∃ file, disk.saved = some file ∧ file.retired = true)
    (uuid : IncarnationUuid) : (opened options disk uuid).OutOfService := by
  obtain ⟨file, hfile, hretired⟩ := h
  have hmarker : (opened options disk uuid).retiredMarker = true := by simp [opened, hfile, hretired]
  refine ⟨by simp [opened, hfile, hretired], hmarker, ?_⟩
  exact ⟨_, rfl, hmarker⟩

/-- The event is a fence that a retired node takes for its own. -/
def FencesRetired (node : NodeState) (e : ProcessEvent) : Prop :=
  ∃ body nowMs laterMs, e = .request (.fence body) nowMs laterMs ∧ node.lifecycle = .retired ∧
    body.Names node.incarnation

/-- What a request does to a retired node: nothing but a fence takes it back, and that not on disk. -/
theorem OutOfService.dispatch (h : node.OutOfService) :
    (∃ file, (node.dispatch options digestOf io nowMs laterMs request).1.disk.saved = some file ∧ file.retired = true) ∧
      ((∀ body, request = .fence body → ¬ body.Names node.incarnation) →
        (node.dispatch options digestOf io nowMs laterMs request).1.OutOfService) := by
  have hfence : ∀ {node' : NodeState} (answer : NodeAnswer), node'.retiredMarker = true →
      (∃ file, node'.disk.saved = some file ∧ file.retired = true) →
      ∃ file, (node'.saveThen io answer).1.disk.saved = some file ∧ file.retired = true := by
    intro node' answer hmarker hsaved
    rcases (saveThen_sameAuthority node' io answer).saved with hdisk | ⟨file, hfile, -, hretired⟩
    · rw [hdisk]
      exact hsaved
    · exact ⟨file, hfile, hretired.trans hmarker⟩
  by_cases htouch : request.touchesAuthority = true
  · cases request with
    | fence body =>
      simp only [NodeState.dispatch]
      rcases fence_cases node io body with ⟨hd, -⟩ | ⟨hnames, id, answer, hd⟩ <;> rw [hd]
      · exact ⟨h.saved, fun _ => h⟩
      · exact ⟨hfence answer h.marker h.saved, fun hno => absurd hnames (hno body rfl)⟩
    | grantAuthority body =>
      simp only [NodeState.dispatch]
      rcases grantAuthority_cases options node io nowMs laterMs body with ⟨hd, -⟩ | ⟨hno, -⟩
      · rw [hd]
        exact ⟨h.saved, fun _ => h⟩
      · exact absurd h.lifecycle hno
    | reattest token =>
      simp only [NodeState.dispatch]
      rcases reattest_cases node nowMs token with ⟨hd, -⟩ | ⟨lease, answer, -, -, -, hd⟩ <;> rw [hd]
      · exact ⟨h.saved, fun _ => h⟩
      · exact ⟨h.saved, fun _ => ⟨h.lifecycle, h.marker, h.saved⟩⟩
    | retire handoff =>
      simp only [NodeState.dispatch]
      rcases retire_cases node io handoff with ⟨hd, -⟩ | ⟨answer, hd⟩ <;> rw [hd]
      · exact ⟨h.saved, fun _ => h⟩
      · have hs := saveThen_sameAuthority { node with
          lifecycle := .retired
          retiredMarker := true
          leaseConfirmed := false
          lease := node.withdrawnLease .revoked } io answer
        have ho : OutOfService _ := ⟨hs.lifecycle, hs.retiredMarker, hfence answer rfl h.saved⟩
        exact ⟨ho.saved, fun _ => ho⟩
    | _ => cases htouch
  · have hs := h.same (dispatch_sameAuthority options digestOf node io nowMs laterMs (Bool.not_eq_true _ ▸ htouch))
    exact ⟨hs.saved, fun _ => hs⟩

theorem OutOfService.step {e : ProcessEvent} (h : node.OutOfService) (hstep : ProcessStep options digestOf node e node')
    (hfence : ¬ node.FencesRetired e) : node'.OutOfService := by
  have hhandled : ∀ {io nowMs laterMs request},
      (∃ file, (node.handle options digestOf io nowMs laterMs request).1.disk.saved = some file ∧ file.retired = true) ∧
        ((∀ body, request = .fence body → ¬ body.Names node.incarnation) →
          (node.handle options digestOf io nowMs laterMs request).1.OutOfService) := by
    intro io nowMs laterMs request
    obtain ⟨node', hsame, -, ⟨heq, -⟩ | ⟨heq, -⟩⟩ := handle_cases options digestOf node io nowMs laterMs
      request
    · rw [heq]
      exact ⟨(h.same hsame).saved, fun _ => h.same hsame⟩
    · rw [heq, ← hsame.incarnation]
      exact (h.same hsame).dispatch
  subst hstep
  cases e with
  | request request nowMs laterMs =>
    refine hhandled.2 ?_
    rintro body rfl hnames
    exact hfence ⟨body, nowMs, laterMs, rfl, h.lifecycle, hnames⟩
  | torn request nowMs laterMs io uuid => exact outOfService_opened hhandled.1 uuid
  | crash uuid => exact outOfService_opened h.saved uuid
  | stop => exact ⟨by simp [afterEvent, NodeState.stop, h.lifecycle], h.marker, h.saved⟩
  | startServer => exact ⟨by simp [afterEvent, NodeState.startServer, h.lifecycle], h.marker, h.saved⟩

/-- An acknowledged retirement takes the node out of service. -/
theorem outOfService_of_retire {handoff : Option Nat} {answer : NodeAnswer}
    (hack : (node.handle options digestOf {} nowMs laterMs (.retire handoff)).2.1 = .ok answer) :
    (node.handle options digestOf {} nowMs laterMs (.retire handoff)).1.OutOfService := by
  obtain ⟨node', hs, -, ⟨-, hno⟩ | ⟨heq, hanswer⟩⟩ := handle_cases options digestOf node {} nowMs laterMs (.retire handoff)
  · exact absurd hack (hno answer)
  · rw [heq]
    rw [hanswer] at hack
    simp only [NodeState.dispatch] at hack ⊢
    rcases retire_cases node' {} handoff with ⟨-, hno⟩ | ⟨answer, hd⟩
    · exact absurd hack (hno answer)
    · rw [hd, saveThen_ok answer rfl]
      exact ⟨rfl, rfl, _, rfl, rfl⟩

/-- A retired node accepts no grant. -/
theorem not_grant_of_retired {body : GrantBody} (h : node.lifecycle = .retired) (answer : NodeAnswer) :
    (node.handle options digestOf io nowMs laterMs (.grantAuthority body)).2.1 ≠ .ok answer := by
  intro hanswer
  obtain ⟨node', hs, -, ⟨-, hno⟩ | ⟨-, heq⟩⟩ := handle_cases options digestOf node io nowMs laterMs (.grantAuthority body)
  · exact hno answer hanswer
  · rw [heq] at hanswer
    rcases grantAuthority_cases options node' io nowMs laterMs body with ⟨-, hno⟩ | ⟨hno, -⟩
    · exact hno answer hanswer
    · exact hno (hs.lifecycle.trans h)

end NodeState

/-! ## The two laws -/

variable {options : NodeOptions} {digestOf : Json → Digest} {node node' : NodeState} {nowMs laterMs : Nat}
  {answer : NodeAnswer} {es es' : List ProcessEvent}

namespace Sample

def nodeOptions : NodeOptions := { component := component, shard := shard }

/-- A process on an empty directory. -/
def booted : NodeState := .opened nodeOptions { bootCounter := 0 } uuid

def grantBody : GrantBody :=
  { handoff := some 1, epoch := some 1, generation := some 2, token := some (some (tokens 0)), mode := some "mutating"
    ttlMs := none }

def fenceBody : FenceBody := { handoff := some 1, fenceId := some 1, target := some (.ok (incarnation 1)) }

def writeBody : WriteBody :=
  { claim := some (.ok ⟨shard, incarnation 1, 1, 2, tokens 0⟩), key := some "key", value := some "value" }

/-- The node serves requests under a digest of no interest. -/
def served (node : NodeState) (request : NodeRequest) : NodeState × Result NodeAnswer × NodeState.Delivery :=
  node.handle nodeOptions (fun _ => .zero) {} 1 1 request

def nodeAfter (node : NodeState) (e : ProcessEvent) : NodeState := node.afterEvent nodeOptions (fun _ => .zero) e

/-- The node is granted authority. -/
def grantedNode : NodeState := (served booted.startServer (.grantAuthority grantBody)).1

theorem exists_answer (result : Result NodeAnswer) (h : result.isOk = true) : ∃ answer, result = .ok answer := by
  cases result with
  | ok answer => exact ⟨answer, rfl⟩
  | error refusal => cases h

end Sample

/-- From any node, in any order of requests, stops, starts and deaths: after an acknowledged retirement no grant
and no write succeeds, if no fence names the retired node. -/
theorem retirement_is_terminal {handoff : Option Nat}
    (hack : (node.handle options digestOf {} nowMs laterMs (.retire handoff)).2.1 = .ok answer)
    (hrun : Run (Guarded (fun node e => ¬ node.FencesRetired e) (ProcessStep options digestOf))
      (node.handle options digestOf {} nowMs laterMs (.retire handoff)).1 es node') :
    (∀ grant atMs endMs reply, (node'.handle options digestOf {} atMs endMs (.grantAuthority grant)).2.1 ≠ .ok reply) ∧
      ∀ write atMs endMs reply, (node'.handle options digestOf {} atMs endMs (.write write)).2.1 ≠ .ok reply := by
  have hout : node'.OutOfService :=
    hrun.invariant NodeState.OutOfService (fun _ _ _ hs hstep => hs.step hstep.2 hstep.1)
      (NodeState.outOfService_of_retire hack)
  constructor
  · intro grant atMs endMs reply
    exact NodeState.not_grant_of_retired hout.lifecycle reply
  · intro write atMs endMs reply hwritten
    exact (NodeState.mutates_of_handle_write hwritten).not_retired hout.lifecycle

open Sample in
/-- The server is stopped and started, and the process restarted, after the retirement. -/
theorem retirement_is_terminal_sample :
    (∀ grant atMs endMs reply, ((nodeAfter (served grantedNode (.retire (some 1))).1 (.crash uuid)).handle nodeOptions
        (fun _ => .zero) {} atMs endMs (.grantAuthority grant)).2.1 ≠ .ok reply) ∧
      ∀ write atMs endMs reply, ((nodeAfter (served grantedNode (.retire (some 1))).1 (.crash uuid)).handle nodeOptions
        (fun _ => .zero) {} atMs endMs (.write write)).2.1 ≠ .ok reply := by
  obtain ⟨answer, hack⟩ := exists_answer ((served grantedNode (.retire (some 1))).2.1) (by decide +kernel)
  have hcrash : Run (Guarded (fun node e => ¬ node.FencesRetired e) (ProcessStep nodeOptions fun _ => .zero))
      (served grantedNode (.retire (some 1))).1 [.crash uuid]
      (nodeAfter (served grantedNode (.retire (some 1))).1 (.crash uuid)) := by
    refine .single ⟨?_, rfl⟩
    rintro ⟨body, nowMs, laterMs, h, -⟩
    cases h
  exact retirement_is_terminal hack hcrash

open Sample in
/-- A fence sent to a retired node takes it back: the next grant succeeds. -/
theorem retirement_undone_by_fence : ¬ ∀ (options : NodeOptions) (digestOf : Json → Digest) (node node' : NodeState)
    (handoff : Option Nat) (nowMs laterMs : Nat) (answer : NodeAnswer) (es : List ProcessEvent),
      (∃ disk uuid es₀, Run (ProcessStep options digestOf) (.opened options disk uuid) es₀ node) →
      (node.handle options digestOf {} nowMs laterMs (.retire handoff)).2.1 = .ok answer →
      Run (ProcessStep options digestOf) (node.handle options digestOf {} nowMs laterMs (.retire handoff)).1 es node' →
      ∀ grant atMs endMs reply, (node'.handle options digestOf {} atMs endMs (.grantAuthority grant)).2.1 ≠ .ok reply := by
  intro hall
  let retired := (served grantedNode (.retire (some 1))).1
  obtain ⟨answer, hack⟩ := exists_answer ((served grantedNode (.retire (some 1))).2.1) (by decide +kernel)
  obtain ⟨reply, hgranted⟩ := exists_answer
    (served (nodeAfter retired (.request (.fence fenceBody) 1 1)) (.grantAuthority grantBody)).2.1
    (by decide +kernel)
  exact hall nodeOptions (fun _ => .zero) grantedNode (nodeAfter retired (.request (.fence fenceBody) 1 1)) (some 1) 1 1
    answer [.request (.fence fenceBody) 1 1]
    ⟨{ bootCounter := 0 }, uuid, [.startServer, .request (.grantAuthority grantBody) 1 1], .cons rfl (.cons rfl (.nil _))⟩
    hack (.single rfl) grantBody 1 1 reply hgranted

end FabricEvolution
