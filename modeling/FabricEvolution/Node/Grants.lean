import FabricEvolution.Node.Attestation

/-!
# Grants that come late

* `AuthorityLease.position` : the epoch and then the generation; `GrantBody.Behind` : a grant below the position of a lease;
* `TurnsAway` : the checks that end a grant; `refuses_of_turnsAway`, `taken_of_not_turnsAway` : no other check compares
  positions, so every other grant is taken;
* `lease_of_step` : where the lease after a step comes from;
* `LateGrants` : the grants of a run that come behind a lease held before; `grants_monotone` : they are refused exactly if
  each is turned away, and then no grant takes authority back.
-/

namespace FabricEvolution
open Lib

/-- The order of authority: the epoch, then the generation. -/
def AuthorityLease.position (lease : AuthorityLease) : Nat ×ₗ Nat := toLex (lease.epoch, lease.generation)

/-- The grant is at a position below that of the lease. -/
def GrantBody.Behind (body : GrantBody) (lease : AuthorityLease) : Prop :=
  ∃ epoch generation, body.epoch = some epoch ∧ body.generation = some generation ∧ toLex (epoch, generation) < lease.position

namespace NodeState
variable (options : NodeOptions) (digestOf : Json → Digest)

/-- The leases that the node holds along a run, from its first state to its last. -/
def leasesAlong (node : NodeState) : List LifeEvent → List AuthorityLease
  | [] => node.lease.toList
  | e :: es => node.lease.toList ++ leasesAlong (node.afterLife options digestOf e) es

/-- The checks that end a grant: an armed fault, a retired node, a request that cannot be read. -/
def TurnsAway (node : NodeState) (body : GrantBody) : Prop :=
  (node.takeFault "node.grant_authority").2 = some "error" ∨ node.lifecycle = .retired ∨
    (parseHandoffId body.handoff).isOk = false ∨ (readGrant options body).isOk = false

/-- The grant is answered with an error, and authority is as it was. -/
structure Refuses (node : NodeState) (body : GrantBody) (nowMs laterMs : Nat) (io : NodeIo) : Prop where
  refused : ∀ answer, (node.handle options digestOf io nowMs laterMs (.grantAuthority body)).2.1 ≠ .ok answer
  kept : SameAuthority node (node.handle options digestOf io nowMs laterMs (.grantAuthority body)).1

/-- Every grant of the run that comes behind a lease held before it satisfies `P`. -/
def LateGrants (P : NodeState → GrantBody → Nat → Nat → NodeIo → Prop) (node : NodeState) (es : List LifeEvent) : Prop :=
  ∀ before body nowMs laterMs io after, es = before ++ .request (.grantAuthority body) nowMs laterMs io :: after →
    ∀ lease ∈ leasesAlong options digestOf node before, body.Behind lease →
      P (node.afterLives options digestOf before) body nowMs laterMs io

end NodeState

namespace NodeState
variable {options : NodeOptions} {digestOf : Json → Digest} {io : NodeIo} {nowMs laterMs : Nat}
  {node node' : NodeState} {body : GrantBody} {es : List LifeEvent}

/-! ## One grant -/

/-- A grant that its handler turns away changes nothing. -/
theorem grantAuthority_refused (h : node.lifecycle = .retired ∨ (parseHandoffId body.handoff).isOk = false ∨
    (readGrant options body).isOk = false) :
    ∃ refusal, node.grantAuthority options io nowMs laterMs body = (node, .error refusal) := by
  unfold grantAuthority
  cases hhandoff : parseHandoffId body.handoff with
  | error refusal => exact ⟨refusal, rfl⟩
  | ok handoff =>
    by_cases hretired : node.lifecycle = .retired
    · exact ⟨_, if_pos hretired⟩
    · simp only [if_neg hretired]
      cases hread : readGrant options body with
      | error refusal => exact ⟨refusal, rfl⟩
      | ok terms =>
        rw [hhandoff, hread] at h
        rcases h with h | h | h
        · exact absurd h hretired
        · cases h
        · cases h

theorem refuses_of_turnsAway (h : node.TurnsAway options body) : node.Refuses options digestOf body nowMs laterMs io := by
  by_cases herror : (node.takeFault "node.grant_authority").2 = some "error"
  · refine ⟨?_, handle_of_error herror⟩
    obtain ⟨faults, ⟨-, -, refusal, hrefused⟩ | ⟨hno, -, -⟩⟩ :=
      handle_faults options digestOf node io nowMs laterMs (.grantAuthority body)
    · intro answer hanswer
      cases hrefused.symm.trans hanswer
    · exact absurd herror hno
  · have hturned := h.resolve_left herror
    obtain ⟨node₁, hsame, -, ⟨heq, hno⟩ | ⟨heq, hanswer⟩⟩ :=
      handle_cases options digestOf node io nowMs laterMs (.grantAuthority body)
    · refine ⟨hno, ?_⟩
      rw [heq]
      exact hsame
    · obtain ⟨refusal, hrefused⟩ : ∃ refusal, node₁.grantAuthority options io nowMs laterMs body = (node₁, .error refusal) :=
        grantAuthority_refused (hsame.lifecycle ▸ hturned)
      simp only [dispatch, hrefused] at heq hanswer
      refine ⟨fun answer => ?_, ?_⟩
      · intro hok
        cases hanswer.symm.trans hok
      · rw [heq]
        exact hsame

theorem readGrant_terms {epoch generation ttlMs : Nat} {token : AuthorityToken} {mode : AuthorityMode}
    (h : readGrant options body = .ok (epoch, generation, token, mode, ttlMs)) :
    body.epoch = some epoch ∧ body.generation = some generation := by
  unfold readGrant at h
  split at h
  · rename_i epoch₀ generation₀ token₀ modeText hepoch hgeneration _ _
    simp only [Result.bind_eq_ok] at h
    obtain ⟨token, -, mode, -, _, -, h⟩ := h
    cases h
    exact ⟨(Option.filter_eq_some_iff.1 hepoch).1, (Option.filter_eq_some_iff.1 hgeneration).1⟩
  · cases h

/-- A grant that is not turned away installs its lease, whatever the node has held. -/
theorem taken_of_not_turnsAway (digestOf : Json → Digest) (nowMs laterMs : Nat) (io : NodeIo) (h : ¬ node.TurnsAway options body) :
    ∃ (lease : AuthorityLease) (answer : NodeAnswer) (node₁ : NodeState), lease.id = 0 ∧
      body.epoch = some lease.epoch ∧ body.generation = some lease.generation ∧
      (node.handle options digestOf io nowMs laterMs (.grantAuthority body)).1 =
        ({ node₁ with lease := some lease, leaseConfirmed := true, lifecycle := .serving }.saveThen io answer).1 ∧
      (node.handle options digestOf io nowMs laterMs (.grantAuthority body)).2.1 =
        ({ node₁ with lease := some lease, leaseConfirmed := true, lifecycle := .serving }.saveThen io answer).2 := by
  rw [TurnsAway, not_or, not_or, not_or, Bool.not_eq_false, Bool.not_eq_false] at h
  obtain ⟨herror, hretired, hhandoff, hread⟩ := h
  unfold handle
  split
  · rename_i node₁ hfault
    exact absurd (congrArg Prod.snd hfault) herror
  · rename_i node₁ fault _ hfault
    have hretired' : node₁.lifecycle ≠ .retired := (takeFault_sameAuthority hfault).lifecycle ▸ hretired
    cases hid : parseHandoffId body.handoff with
    | error refusal =>
      rw [hid] at hhandoff
      cases hhandoff
    | ok handoff =>
      cases hterms : readGrant options body with
      | error refusal =>
        rw [hterms] at hread
        cases hread
      | ok terms =>
        obtain ⟨epoch, generation, token, mode, ttlMs⟩ := terms
        obtain ⟨hepoch, hgeneration⟩ := readGrant_terms hterms
        simp only [dispatch, grantAuthority, hid, if_neg hretired', hterms]
        exact ⟨_, _, node₁, rfl, hepoch, hgeneration, rfl, rfl⟩

/-! ## A run -/

/-- A lease found after a step is at the position of the one before, is one found again in the state file, or is that of a
grant that was not turned away. -/
theorem lease_of_step {e : LifeEvent} {lease : AuthorityLease} (h : (node.afterLife options digestOf e).lease = some lease) :
    (∃ held, node.lease = some held ∧ held.position = lease.position ∧ held.id = lease.id) ∨ lease.id ≠ 0 ∨
      ∃ body nowMs laterMs io, e = .request (.grantAuthority body) nowMs laterMs io ∧ ¬ node.TurnsAway options body ∧
        body.epoch = some lease.epoch ∧ body.generation = some lease.generation := by
  cases e with
  | restart uuid =>
    have hfound : (opened options node.disk uuid).Leases fun lease => lease.id ≠ 0 := by
      refine leases_opened uuid ?_
      intro file restored hsaved hrestored
      obtain ⟨saved, -, rfl, hid, -⟩ := restoreLease_eq_some hrestored
      exact hid
    exact .inr (.inl (hfound.held lease h))
  | stop => exact .inl ⟨lease, h, rfl, rfl⟩
  | startServer => exact .inl ⟨lease, h, rfl, rfl⟩
  | request request nowMs laterMs io =>
    have hwithdrawn : ∀ {node₁ : NodeState} {state : LeaseState}, SameAuthority node node₁ →
        node₁.withdrawnLease state = some lease →
        ∃ held, node.lease = some held ∧ held.position = lease.position ∧ held.id = lease.id := by
      intro node₁ state hsame hlease
      obtain ⟨held, hheld, rfl⟩ := Option.map_eq_some_iff.mp hlease
      exact ⟨held, hsame.lease ▸ hheld, rfl, rfl⟩
    rw [afterLife] at h
    by_cases hgrant : ∃ body, request = .grantAuthority body ∧ ¬ node.TurnsAway options body
    · obtain ⟨body, rfl, htaken⟩ := hgrant
      obtain ⟨granted, answer, node₁, -, hepoch, hgeneration, hstate, -⟩ := taken_of_not_turnsAway digestOf nowMs laterMs io htaken
      rw [hstate, (saveThen_sameAuthority _ io answer).lease] at h
      cases h
      exact .inr (.inr ⟨body, nowMs, laterMs, io, rfl, htaken, hepoch, hgeneration⟩)
    refine .inl ?_
    obtain ⟨node₁, hsame, -, ⟨heq, -⟩ | ⟨heq, -⟩⟩ := handle_cases options digestOf node io nowMs laterMs request
    · exact ⟨lease, hsame.lease ▸ heq ▸ h, rfl, rfl⟩
    by_cases htouch : request.touchesAuthority = true
    · cases request with
      | fence body =>
        rw [heq, dispatch] at h
        rcases fence_cases node₁ io body with ⟨hd, -⟩ | ⟨-, id, answer, hd⟩
        · exact ⟨lease, hsame.lease ▸ hd ▸ h, rfl, rfl⟩
        · rw [hd, (saveThen_sameAuthority _ io answer).lease] at h
          exact hwithdrawn hsame h
      | grantAuthority body =>
        have haway : node.TurnsAway options body := by_contra fun hno => hgrant ⟨body, rfl, hno⟩
        have hrefuses : node.Refuses options digestOf body nowMs laterMs io := refuses_of_turnsAway haway
        exact ⟨lease, hrefuses.kept.lease ▸ h, rfl, rfl⟩
      | reattest token =>
        rw [heq, dispatch] at h
        rcases reattest_cases node₁ nowMs token with ⟨hd, -⟩ | ⟨held, answer, hheld, -, -, hd⟩
        · exact ⟨lease, hsame.lease ▸ hd ▸ h, rfl, rfl⟩
        · rw [hd] at h
          cases h
          exact ⟨held, hsame.lease ▸ hheld, rfl, rfl⟩
      | retire handoff =>
        rw [heq, dispatch] at h
        rcases retire_cases node₁ io handoff with ⟨hd, -⟩ | ⟨answer, hd⟩
        · exact ⟨lease, hsame.lease ▸ hd ▸ h, rfl, rfl⟩
        · rw [hd, (saveThen_sameAuthority _ io answer).lease] at h
          exact hwithdrawn hsame h
      | _ => cases htouch
    · have hkept := hsame.trans (dispatch_sameAuthority options digestOf node₁ io nowMs laterMs (Bool.not_eq_true _ ▸ htouch))
      rw [heq] at h
      exact ⟨lease, hkept.lease ▸ h, rfl, rfl⟩

theorem leasesAlong_snoc (node : NodeState) (es : List LifeEvent) (e : LifeEvent) :
    node.leasesAlong options digestOf (es ++ [e]) = node.leasesAlong options digestOf es ++
      ((node.afterLives options digestOf es).afterLife options digestOf e).lease.toList := by
  induction es generalizing node with
  | nil => rfl
  | cons first es ih =>
    rw [List.cons_append, leasesAlong, leasesAlong, ih, List.append_assoc]
    rfl

theorem afterLives_snoc (node : NodeState) (es : List LifeEvent) (e : LifeEvent) :
    node.afterLives options digestOf (es ++ [e]) = (node.afterLives options digestOf es).afterLife options digestOf e := by
  rw [afterLives, List.foldl_append]
  rfl

/-- No lease of `held` is above the granted lease of the node. -/
def Foremost (held : List AuthorityLease) (node : NodeState) : Prop :=
  ∀ lease, node.lease = some lease → lease.id = 0 → ∀ l ∈ held, l.position ≤ lease.position

/-- A step keeps the granted lease foremost if it takes no grant that comes behind a lease held before. -/
theorem Foremost.step {held : List AuthorityLease} {e : LifeEvent} (h : Foremost held node)
    (hlate : ∀ body nowMs laterMs io, e = .request (.grantAuthority body) nowMs laterMs io → ∀ lease ∈ held, body.Behind lease →
      node.TurnsAway options body) :
    Foremost (held ++ (node.afterLife options digestOf e).lease.toList) (node.afterLife options digestOf e) := by
  intro lease hlease hid l hl
  rw [hlease, Option.toList_some, List.mem_append, List.mem_singleton] at hl
  rcases hl with hl | rfl
  · rcases lease_of_step hlease with ⟨before, hbefore, hposition, hsame⟩ | hrestored |
      ⟨body, nowMs, laterMs, io, he, htaken, hepoch, hgeneration⟩
    · exact hposition ▸ h before hbefore (hsame.trans hid) l hl
    · exact absurd hid hrestored
    · exact not_lt.1 fun hlt => htaken (hlate body nowMs laterMs io he l hl ⟨_, _, hepoch, hgeneration, hlt⟩)
  · exact le_rfl

theorem LateGrants.init {P : NodeState → GrantBody → Nat → Nat → NodeIo → Prop} {e : LifeEvent}
    (h : LateGrants options digestOf P node (es ++ [e])) : LateGrants options digestOf P node es := by
  intro before body nowMs laterMs io after hes
  exact h before body nowMs laterMs io (after ++ [e]) (by rw [hes, List.append_assoc, List.cons_append])

/-- While late grants are turned away, the granted lease is the foremost of all that the node has held. -/
theorem foremost_of_lateGrants (h : LateGrants options digestOf (fun node body _ _ _ => node.TurnsAway options body) node es) :
    Foremost (node.leasesAlong options digestOf es) (node.afterLives options digestOf es) := by
  induction es using List.reverseRecOn with
  | nil =>
    intro lease hlease _ l hl
    rw [leasesAlong, show node.lease = some lease from hlease, Option.toList_some, List.mem_singleton] at hl
    rw [hl]
  | append_singleton es e ih =>
    rw [leasesAlong_snoc, afterLives_snoc]
    refine (ih h.init).step fun body nowMs laterMs io he lease hheld hbehind => ?_
    exact h es body nowMs laterMs io [] (by rw [he]) lease hheld hbehind

end NodeState

open NodeState in
/-- In every run of a node: if every grant that comes behind a lease held before is turned away, then each is refused with
authority as it was, and a granted lease is never below one that the node has held; and where the state file can be written,
only such grants are refused. -/
theorem grants_monotone (options : NodeOptions) (digestOf : Json → Digest) (node : NodeState) (es : List LifeEvent) :
    (LateGrants options digestOf (fun node body _ _ _ => node.TurnsAway options body) node es →
      LateGrants options digestOf (NodeState.Refuses options digestOf) node es ∧
        ∀ lease, (node.afterLives options digestOf es).lease = some lease → lease.id = 0 →
          ∀ held ∈ node.leasesAlong options digestOf es, held.position ≤ lease.position) ∧
      (LateGrants options digestOf (fun node body nowMs laterMs io => io.save = .ok () ∧
          node.Refuses options digestOf body nowMs laterMs io) node es →
        LateGrants options digestOf (fun node body _ _ _ => node.TurnsAway options body) node es) := by
  refine ⟨fun h => ⟨?_, foremost_of_lateGrants h⟩, ?_⟩
  · intro before body nowMs laterMs io after hes lease hheld hbehind
    exact refuses_of_turnsAway (h before body nowMs laterMs io after hes lease hheld hbehind)
  · intro h before body nowMs laterMs io after hes lease hheld hbehind
    obtain ⟨hsave, hrefused⟩ := h before body nowMs laterMs io after hes lease hheld hbehind
    by_contra htaken
    obtain ⟨granted, answer, node₁, -, -, -, -, hanswer⟩ := taken_of_not_turnsAway digestOf nowMs laterMs io htaken
    rw [saveThen_ok answer hsave] at hanswer
    exact hrefused.refused answer hanswer

namespace Sample

/-- The grant of the generation before. -/
def oldGrant : GrantBody := { grantBody with generation := some 1, token := some (some (tokens 1)) }

/-- The node is granted authority and fenced. -/
def grantedAndFenced : List LifeEvent :=
  [.startServer, .request (.grantAuthority grantBody) 1 1 {}, .request (.fence fenceBody) 1 1 {}]

end Sample

open Sample in
/-- A grant of generation 2 is fenced; the replayed grant of generation 1 is taken. -/
theorem old_grant_taken : ¬ ∀ (options : NodeOptions) (digestOf : Json → Digest) (disk : NodeDisk) (uuid : FreshUuid)
    (es : List LifeEvent), NodeState.LateGrants options digestOf (NodeState.Refuses options digestOf)
      (.opened options disk uuid) es := by
  intro hall
  have hheld : (grantedNode.lease.map fun lease => (lease.epoch, lease.generation)) = some (1, 2) := by decide +kernel
  obtain ⟨lease, hlease, hterms⟩ := Option.map_eq_some_iff.1 hheld
  obtain ⟨hepoch, hgeneration⟩ := Prod.mk.inj hterms
  have hbehind : oldGrant.Behind lease := by
    refine ⟨1, 1, rfl, rfl, ?_⟩
    rw [AuthorityLease.position, hepoch, hgeneration]
    decide
  have hmem : lease ∈ NodeState.leasesAlong nodeOptions (fun _ => .zero) booted grantedAndFenced := by
    have hnow : lease ∈ grantedNode.lease.toList := by
      rw [hlease]
      exact List.mem_cons_self
    exact List.mem_append_right _ (List.mem_append_right _ (List.mem_append_left _ hnow))
  have hrefused := hall nodeOptions (fun _ => .zero) { bootCounter := 0 } freshUuid
    (grantedAndFenced ++ [.request (.grantAuthority oldGrant) 1 1 {}]) grantedAndFenced oldGrant 1 1 {} [] rfl lease hmem hbehind
  obtain ⟨answer, htaken⟩ := exists_answer
    ((served (NodeState.afterLives nodeOptions (fun _ => .zero) booted grantedAndFenced) (.grantAuthority oldGrant)).2.1)
    (by decide +kernel)
  exact hrefused.refused answer htaken

end FabricEvolution
