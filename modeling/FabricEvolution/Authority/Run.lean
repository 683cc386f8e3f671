import FabricEvolution.Authority.LeaseStep
import FabricEvolution.Lib.Run

/-!
# Runs of the registry

* `RegistryState` : the registry, the last clock reading and how many tokens the source has minted;
* `RegistryStep source` : one operation with non-decreasing readings, or time passing;
* `RegistryState.WellFormed` : shards under their own name, lease ids ascending; holds in every
  reachable state (`wellFormed_step`);
* `ShardInvariant` : an invariant of single shards, and `ShardInvariant.step` : it is one of the registry.
-/

namespace FabricEvolution
open Lib

structure RegistryState where
  registry : AuthorityRegistry
  clockMs : Nat
  /-- Tokens minted so far: the position of the token source. -/
  minted : Nat

/-- A fresh process at some clock value. -/
def RegistryState.start (clockMs : Nat) : RegistryState := { registry := .empty, clockMs := clockMs, minted := 0 }

inductive RegistryEvent where
  | call (op : RegistryOp) (nowMs slotNowMs : Nat)
  | tick (nowMs : Nat)

/-- Only an issued lease takes a token from the source. -/
def RegistryOutcome.tokens : RegistryOutcome → Nat
  | issued _ => 1
  | _ => 0

namespace RegistryState

/-- What the operation of `call op nowMs slotNowMs` reports in this state. -/
def outcome (source : Nat → AuthorityToken) (s : RegistryState) (op : RegistryOp) (nowMs slotNowMs : Nat) :
    RegistryOutcome :=
  (op.exec s.registry nowMs slotNowMs (source s.minted)).2

def after (source : Nat → AuthorityToken) (s : RegistryState) : RegistryEvent → RegistryState
  | .call op nowMs slotNowMs =>
    { registry := (op.exec s.registry nowMs slotNowMs (source s.minted)).1
      clockMs := slotNowMs
      minted := s.minted + (s.outcome source op nowMs slotNowMs).tokens }
  | .tick nowMs => { s with clockMs := nowMs }

/-- The readings of an event do not go back. -/
def Admits (s : RegistryState) : RegistryEvent → Prop
  | .call _ nowMs slotNowMs => s.clockMs ≤ nowMs ∧ nowMs ≤ slotNowMs
  | .tick nowMs => s.clockMs ≤ nowMs

instance (s : RegistryState) (e : RegistryEvent) : Decidable (s.Admits e) := by
  cases e <;> unfold Admits <;> infer_instance

end RegistryState

/-- One step of the registry: the readings do not go back. -/
def RegistryStep (source : Nat → AuthorityToken) (s : RegistryState) (e : RegistryEvent) (s' : RegistryState) : Prop :=
  s.Admits e ∧ s' = s.after source e

theorem RegistryStep.clock_le {source : Nat → AuthorityToken} {s s' : RegistryState} {e : RegistryEvent}
    (h : RegistryStep source s e s') : s.clockMs ≤ s'.clockMs := by
  obtain ⟨hadm, rfl⟩ := h
  cases e with
  | call op nowMs slotNowMs => exact hadm.1.trans hadm.2
  | tick nowMs => exact hadm

/-! ## Well-formed registries -/

/-- Lease ids ascend along the list and stay below the next one. -/
structure ShardAuthority.IdsAscend (a : ShardAuthority) : Prop where
  ascend : (a.leases.map (·.id)).Pairwise (· < ·)
  below : ∀ lease ∈ a.leases, lease.id < a.nextLeaseId

theorem ShardAuthority.IdsAscend.nodup {a : ShardAuthority} (h : a.IdsAscend) : (a.leases.map (·.id)).Nodup :=
  h.ascend.imp fun hlt => Nat.ne_of_lt hlt

/-- Two leases of one id are the same lease. -/
theorem ShardAuthority.IdsAscend.eq_of_id {a : ShardAuthority} (h : a.IdsAscend) {l l' : AuthorityLease}
    (hl : l ∈ a.leases) (hl' : l' ∈ a.leases) (hid : l.id = l'.id) : l = l' :=
  List.inj_on_of_nodup_map h.nodup hl hl' hid

theorem ShardStep.idsAscend {k : ShardId} {nowMs slotNowMs : Nat} {token : AuthorityToken} {a a' : ShardAuthority}
    {op : RegistryOp} {outcome : RegistryOutcome} (hids : a.IdsAscend)
    (h : ShardStep k nowMs slotNowMs token a op outcome a') : a'.IdsAscend := by
  have hmap : ∀ {leases}, Pointwise (LeaseStep k a op outcome nowMs) a.leases leases →
      leases.map (·.id) = a.leases.map (·.id) := fun hp => hp.map_eq _ fun _ _ hs => hs.id_eq
  rcases h.leases hids.nodup with ⟨hp, hnext, -⟩ | ⟨request, lease, -, -, hid, -, hnext, hl⟩
  · refine ⟨by rw [hmap hp]; exact hids.ascend, fun l' hl' => ?_⟩
    obtain ⟨l, hl, hs⟩ := hp.exists_left hl'
    rw [hs.id_eq, hnext]
    exact hids.below l hl
  · have hflush : Pointwise (LeaseStep k a op outcome nowMs) a.leases (a.expireInPlace nowMs).leases :=
      ShardStep.pointwise_flush
    have hbelow : ∀ l ∈ (a.expireInPlace nowMs).leases, l.id < lease.id := by
      intro l hmem
      obtain ⟨l₀, hl₀, hs⟩ := hflush.exists_left hmem
      rw [hs.id_eq, hid]
      exact hids.below l₀ hl₀
    constructor
    · rw [hl]
      refine List.Pairwise.sublist ((pushBounded_sublist _ _ _).map _) ?_
      rw [List.map_append, hmap hflush]
      refine List.pairwise_append.mpr ⟨hids.ascend, by simp, fun i hi j hj => ?_⟩
      rw [← hmap hflush] at hi
      obtain ⟨l, hmem, rfl⟩ := List.mem_map.mp hi
      simp only [List.map_cons, List.map_nil, List.mem_singleton] at hj
      exact hj ▸ hbelow l hmem
    · intro l' hl'
      rw [hl] at hl'
      rcases mem_of_mem_pushBounded hl' with hmem | rfl
      · have := hbelow l' hmem
        omega
      · omega

structure RegistryState.WellFormed (s : RegistryState) : Prop where
  keyed : s.registry.Keyed
  ids : ∀ k a, s.registry.find k = some a → a.IdsAscend

section
variable {source : Nat → AuthorityToken} {s s' : RegistryState} {e : RegistryEvent}

theorem wellFormed_start (clockMs : Nat) : (RegistryState.start clockMs).WellFormed :=
  ⟨fun _ _ h => by simp [RegistryState.start] at h, fun _ _ h => by simp [RegistryState.start] at h⟩

/-- Where the authority of a shard after a step comes from. -/
theorem RegistryStep.shard_cases (hwf : s.WellFormed) (h : RegistryStep source s e s') {k : ShardId}
    {a' : ShardAuthority} (hfind : s'.registry.find k = some a') :
    (s.registry.find k = none ∧ k.isValid = true ∧
        ∃ epoch, epoch ≠ 0 ∧ a' = { shard := k, epoch := epoch, generation := 1 }) ∨
      ∃ a, s.registry.find k = some a ∧
        (a' = a ∨ ∃ op nowMs slotNowMs, e = .call op nowMs slotNowMs ∧
          ShardStep k nowMs slotNowMs (source s.minted) a op (s.outcome source op nowMs slotNowMs) a') := by
  obtain ⟨-, rfl⟩ := h
  cases e with
  | tick nowMs => exact .inr ⟨a', hfind, .inl rfl⟩
  | call op nowMs slotNowMs =>
    cases hk : s.registry.find k with
    | none =>
      obtain ⟨epoch, -, hepoch, hvalid, rfl⟩ := exec_fresh hwf.keyed hk hfind
      exact .inl ⟨rfl, hvalid, epoch, hepoch, rfl⟩
    | some a =>
      obtain ⟨a'', hfind', hstep⟩ := exec_step op nowMs slotNowMs (source s.minted) hwf.keyed hk
      have heq : a'' = a' := Option.some.inj (hfind'.symm.trans hfind)
      subst heq
      rcases hstep with ⟨rfl, -⟩ | ⟨-, hstep⟩
      · exact .inr ⟨_, rfl, .inl rfl⟩
      · exact .inr ⟨_, rfl, .inr ⟨op, nowMs, slotNowMs, rfl, hstep⟩⟩

/-- A shard stays established, and the step says what became of it. -/
theorem RegistryStep.shard_forward (hwf : s.WellFormed) (h : RegistryStep source s e s') {k : ShardId}
    {a : ShardAuthority} (hfind : s.registry.find k = some a) :
    ∃ a', s'.registry.find k = some a' ∧
      (a' = a ∨ ∃ op nowMs slotNowMs, e = .call op nowMs slotNowMs ∧
        ShardStep k nowMs slotNowMs (source s.minted) a op (s.outcome source op nowMs slotNowMs) a') := by
  obtain ⟨-, rfl⟩ := h
  cases e with
  | tick nowMs => exact ⟨a, hfind, .inl rfl⟩
  | call op nowMs slotNowMs =>
    obtain ⟨a', hfind', hstep⟩ := exec_step op nowMs slotNowMs (source s.minted) hwf.keyed hfind
    rcases hstep with ⟨rfl, -⟩ | ⟨-, hstep⟩
    · exact ⟨_, hfind', .inl rfl⟩
    · exact ⟨_, hfind', .inr ⟨op, nowMs, slotNowMs, rfl, hstep⟩⟩

theorem wellFormed_step (hwf : s.WellFormed) (h : RegistryStep source s e s') : s'.WellFormed := by
  constructor
  · intro k a' hfind
    rcases h.shard_cases hwf hfind with ⟨-, -, epoch, -, rfl⟩ | ⟨a, ha, rfl | ⟨_, _, _, -, hstep⟩⟩
    · rfl
    · exact hwf.keyed k _ ha
    · rw [hstep.shard_eq, hwf.keyed k a ha]
  · intro k a' hfind
    rcases h.shard_cases hwf hfind with ⟨-, -, epoch, -, rfl⟩ | ⟨a, ha, rfl | ⟨_, _, _, -, hstep⟩⟩
    · exact ⟨List.Pairwise.nil, by simp⟩
    · exact hwf.ids k _ ha
    · exact hstep.idsAscend (hwf.ids k a ha)

end

/-! ## Invariants of single shards -/

/-- A property of a shard at a clock reading and a position of the token source which every operation
on the shard keeps. -/
structure ShardInvariant (source : Nat → AuthorityToken) (inv : Nat → Nat → ShardId → ShardAuthority → Prop) :
    Prop where
  fresh : ∀ clockMs minted k epoch, k.isValid = true → epoch ≠ 0 →
    inv clockMs minted k { shard := k, epoch := epoch, generation := 1 }
  later : ∀ {clockMs clockMs' minted minted' k a}, clockMs ≤ clockMs' → minted ≤ minted' →
    inv clockMs minted k a → inv clockMs' minted' k a
  step : ∀ {clockMs minted nowMs slotNowMs k a op outcome a'}, a.IdsAscend → clockMs ≤ nowMs →
    nowMs ≤ slotNowMs → inv clockMs minted k a →
    ShardStep k nowMs slotNowMs (source minted) a op outcome a' →
    inv slotNowMs (minted + outcome.tokens) k a'

/-- Every shard of the registry satisfies `inv`. -/
def RegistryState.AllShards (inv : Nat → Nat → ShardId → ShardAuthority → Prop) (s : RegistryState) : Prop :=
  ∀ k a, s.registry.find k = some a → inv s.clockMs s.minted k a

namespace ShardInvariant
variable {source : Nat → AuthorityToken} {inv : Nat → Nat → ShardId → ShardAuthority → Prop}
  {s s' : RegistryState} {e : RegistryEvent}

theorem minted_le (h : RegistryStep source s e s') : s.minted ≤ s'.minted := by
  obtain ⟨-, rfl⟩ := h
  cases e with
  | call => exact Nat.le_add_right _ _
  | tick => exact Nat.le_refl _

theorem allShards_step (hinv : ShardInvariant source inv) (hwf : s.WellFormed) (hs : s.AllShards inv)
    (h : RegistryStep source s e s') : s'.AllShards inv := by
  intro k a' hfind
  rcases h.shard_cases hwf hfind with
    ⟨-, hvalid, epoch, hepoch, rfl⟩ | ⟨a, ha, rfl | ⟨op, nowMs, slotNowMs, rfl, hstep⟩⟩
  · exact hinv.fresh _ _ _ _ hvalid hepoch
  · exact hinv.later h.clock_le (minted_le h) (hs k _ ha)
  · obtain ⟨hadm, rfl⟩ := h
    exact hinv.step (hwf.ids k a ha) hadm.1 hadm.2 (hs k a ha) hstep

/-- The invariant holds in every reachable state. -/
theorem reachable (hinv : ShardInvariant source inv) {clockMs : Nat} {es : List RegistryEvent}
    (h : Run (RegistryStep source) (.start clockMs) es s) : s.WellFormed ∧ s.AllShards inv := by
  refine Run.invariant (fun s => s.WellFormed ∧ s.AllShards inv) ?_ h ?_
  · intro s e t hs hstep
    exact ⟨wellFormed_step hs.1 hstep, hinv.allShards_step hs.1 hs.2 hstep⟩
  · exact ⟨wellFormed_start clockMs, fun k a hfind => by simp [RegistryState.start] at hfind⟩

end ShardInvariant

theorem wellFormed_reachable {source : Nat → AuthorityToken} {s : RegistryState} {clockMs : Nat}
    {es : List RegistryEvent} (h : Run (RegistryStep source) (.start clockMs) es s) : s.WellFormed :=
  Run.invariant _ (fun _ _ _ hs hstep => wellFormed_step hs hstep) h (wellFormed_start clockMs)

/-! ## Running a list of events -/

namespace RegistryState

/-- The state after a list of events. -/
def play (source : Nat → AuthorityToken) (s : RegistryState) (es : List RegistryEvent) : RegistryState :=
  es.foldl (fun s e => s.after source e) s

/-- No event of the list goes back in time. -/
def admitsAll (source : Nat → AuthorityToken) (s : RegistryState) : List RegistryEvent → Bool
  | [] => true
  | e :: es => decide (s.Admits e) && (s.after source e).admitsAll source es

theorem run_play {source : Nat → AuthorityToken} {s : RegistryState} {es : List RegistryEvent}
    (h : s.admitsAll source es = true) : Run (RegistryStep source) s es (s.play source es) := by
  induction es generalizing s with
  | nil => exact .nil s
  | cons e es ih =>
    obtain ⟨hadm, hrest⟩ := Bool.and_eq_true_iff.mp h
    exact .cons ⟨of_decide_eq_true hadm, rfl⟩ (ih hrest)

end RegistryState

/-! ## Concrete identities -/

namespace Sample

def shard : ShardId := ⟨"shard-a", .inr (by decide)⟩
def component : ComponentId := ⟨"node", .inr (by decide)⟩
def uuid : Uuid128 := ⟨List.replicate 16 1, rfl⟩

/-- The incarnations of one component, by boot counter. -/
def incarnation (boot : Nat) : IncarnationId := ⟨component, uuid, boot⟩

/-- The identifier whose bytes spell `n` in base 256. -/
def numbered (n : Nat) : Uuid128 :=
  ⟨(List.range 16).map fun i => Fin.ofNat 256 (n / 256 ^ i), by simp⟩

/-- A source of pairwise distinct tokens, for `2 ^ 128 - 1` of them. -/
def tokens (n : Nat) : AuthorityToken := numbered (n + 1)

/-- A shard is established and one incarnation gets to write to it. -/
def events : List RegistryEvent :=
  [.call (.establish shard 1) 0 0, .call (.grant { shard := shard, holder := incarnation 1 }) 5 6]

def state : RegistryState := (RegistryState.start 0).play tokens events

theorem run_state : Run (RegistryStep tokens) (.start 0) events state := RegistryState.run_play (by decide)

/-- The authority of the shard in `state`. -/
def authority : ShardAuthority := (state.registry.find shard).get (by decide)

/-- Its writer's lease. -/
def lease : AuthorityLease := authority.leases.headD default

theorem find_state : state.registry.find shard = some authority := (Option.some_get _).symm

end Sample

end FabricEvolution
