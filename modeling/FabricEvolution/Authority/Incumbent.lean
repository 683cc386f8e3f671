import FabricEvolution.Authority.History

/-!
# The incumbent writer's claim

* `AuthorityLease.Incumbent` : an attested, unexpired, active mutating lease;
* `Unseats` : the two events that invalidate its claim without ending it: a grant in mode `none` that
  moves the generation on, and a grant that drops the lease from a full list;
* `Aligned` : active mutating leases carry the current pair; kept by every other event;
* `incumbent_claim_holds` : without such events every incumbent's claim passes, and only a fence of its
  holder, a revocation, an epoch advance, a reload or its expiry ends that;
* `modeless_grant_unseats` : with one, the claim of a live incumbent is refused.
-/

namespace FabricEvolution
open Lib AuthorityLease

/-- An attested, unexpired, active mutating lease. -/
structure AuthorityLease.Incumbent (l : AuthorityLease) (t : Nat) : Prop where
  attested : l.attested = true
  state : l.state = .active
  live : t < l.expiresAtMs
  mode : l.mode = .mutating

/-- Whether some lease of the shard is mutating and effectively active. -/
def ShardAuthority.hasWriter (a : ShardAuthority) (t : Nat) : Bool :=
  a.leases.any fun l => l.mode = .mutating && l.effectiveState t = .active

/-- A grant in mode `none` that gets as far as moving the generation on while the shard has a writer, or
a grant that drops an attested writer from a full list. -/
def Unseats (s : RegistryState) : RegistryEvent → Bool
  | .call (.grant request) nowMs slotNowMs =>
    match s.registry.find request.shard with
    | none => false
    | some a =>
      a.reachesIssue request nowMs slotNowMs &&
        (request.mode = .none && a.hasWriter slotNowMs ||
          maxLeaseHistoryPerShard ≤ a.leases.length && a.leases.head?.any fun l =>
            l.attested && l.mode = .mutating && l.effectiveState slotNowMs = .active)
  | _ => false

/-- The operations that may end the incumbency of `l` on shard `k`. -/
def RegistryOp.mayEnd (op : RegistryOp) (k : ShardId) (l : AuthorityLease) : Prop :=
  (∃ reason, op = .requestFence k l.holder reason) ∨ (∃ reason, op = .revoke k l.id reason) ∨
    (∃ epoch, op = .advanceEpoch k epoch) ∨ op = .reload

/-! ## Leases carry the current pair -/

/-- What a claim needs of its lease beyond being live: valid identities, and for a writer the pair of
the shard. -/
structure Aligned (source : Nat → AuthorityToken) (clockMs minted : Nat) (k : ShardId) (a : ShardAuthority) :
    Prop where
  valid : k.isValid = true ∧ a.epoch ≠ 0 ∧ a.generation ≠ 0
  slot : a.SlotUnique clockMs
  holders : ∀ l ∈ a.leases, l.shard = k ∧ l.holder.isValid = true ∧ ∃ i < minted, l.token = source i
  pair : ∀ l ∈ a.leases, l.mode = .mutating → l.effectiveState clockMs = .active →
    l.epoch = a.epoch ∧ l.generation = a.generation

section
variable {source : Nat → AuthorityToken} {k : ShardId} {clockMs minted nowMs slotNowMs : Nat}
  {token : AuthorityToken} {a a' : ShardAuthority} {op : RegistryOp} {outcome : RegistryOutcome}
  {l l' : AuthorityLease}

theorem LeaseStep.shard_eq (h : LeaseStep k a op outcome nowMs l l') : l'.shard = l.shard :=
  show l'.terms.shard = l.terms.shard from congrArg _ h.terms_eq

theorem LeaseStep.pair_eq (h : LeaseStep k a op outcome nowMs l l') :
    l'.epoch = l.epoch ∧ l'.generation = l.generation :=
  ⟨show l'.terms.epoch = l.terms.epoch from congrArg _ h.terms_eq,
    show l'.terms.generation = l.terms.generation from congrArg _ h.terms_eq⟩

theorem Aligned.later {clockMs' minted' : Nat} (h : Aligned source clockMs minted k a) (hle : clockMs ≤ clockMs')
    (hle' : minted ≤ minted') : Aligned source clockMs' minted' k a := by
  refine ⟨h.valid, h.slot.later hle, fun l hl => ?_, fun l hl hmode hact => h.pair l hl hmode ?_⟩
  · obtain ⟨hs, hh, i, hi, he⟩ := h.holders l hl
    exact ⟨hs, hh, i, by omega, he⟩
  · obtain ⟨hs, hlive⟩ := effectiveState_eq_active.mp hact
    exact effectiveState_eq_active.mpr ⟨hs, by omega⟩

/-- The generation of a new or exhausted issue is not 0. -/
theorem nextGeneration_ne_zero {mode : AuthorityMode} {generation : Nat} (hne : a.generation ≠ 0)
    (h : (a.expireInPlace nowMs).nextGeneration mode = some generation) : generation ≠ 0 := by
  unfold ShardAuthority.nextGeneration at h
  split_ifs at h
  · simp only [Option.some.injEq] at h
    exact h ▸ hne
  · have := eq_succ_of_nextId h
    omega

/-- Identities stay valid. -/
theorem ShardStep.valid (hv : k.isValid = true ∧ a.epoch ≠ 0 ∧ a.generation ≠ 0)
    (h : ShardStep k nowMs slotNowMs token a op outcome a') :
    k.isValid = true ∧ a'.epoch ≠ 0 ∧ a'.generation ≠ 0 := by
  obtain ⟨hk, he, hg⟩ := hv
  cases h with
  | bumped _ _ _ _ _ hgen => exact ⟨hk, he, nextGeneration_ne_zero hg hgen⟩
  | issued _ _ _ _ hgen => exact ⟨hk, he, nextGeneration_ne_zero hg hgen⟩
  | fenced _ _ _ _ _ _ _ _ _ _ _ _ hgen =>
    have := eq_succ_of_nextId hgen
    exact ⟨hk, he, by dsimp only; omega⟩
  | advanced epoch hepoch => exact ⟨hk, by dsimp only; omega, by dsimp only; omega⟩
  | _ => exact ⟨hk, he, hg⟩

/-- Unless the step moved the generation on past a writer, writers keep the pair of their shard. -/
theorem Aligned.pair_step (hids : a.IdsAscend) (hle : clockMs ≤ nowMs) (hle' : nowMs ≤ slotNowMs)
    (hal : Aligned source clockMs minted k a) (h : ShardStep k nowMs slotNowMs token a op outcome a')
    (hkeep : ∀ request, op = .grant request → request.shard = k → a.reachesIssue request nowMs slotNowMs = true →
      request.mode = .none → a.hasWriter slotNowMs = false)
    (hl' : l' ∈ a'.leases) (hmode : l'.mode = .mutating) (hact : l'.effectiveState slotNowMs = .active) :
    l'.epoch = a'.epoch ∧ l'.generation = a'.generation := by
  obtain ⟨hs', hlive'⟩ := effectiveState_eq_active.mp hact
  rcases h.backward hids.nodup hl' with ⟨l, hl, hls⟩ | hout
  · have hlm : l.mode = .mutating := hls.mode_eq.symm.trans hmode
    obtain ⟨hs, hlive⟩ := hls.active_of_active hs' (by omega)
    obtain ⟨hpe, hpg⟩ := hal.pair l hl hlm (effectiveState_eq_active.mpr ⟨hs, by omega⟩)
    rw [hls.pair_eq.1, hls.pair_eq.2, hpe, hpg]
    -- Only a moved pair is of interest.
    have hmoved : ∀ {request generation}, op = .grant request → request.shard = k →
        a.reachesIssue request nowMs slotNowMs = true →
        (a.expireInPlace nowMs).nextGeneration request.mode = some generation →
        slotNowMs < l.expiresAtMs → generation = a.generation := by
      intro request generation hop hshard hreach hgen hlate
      have hl₁ : l ∈ (a.expireInPlace nowMs).leases := by
        have hkept : l.expireAt nowMs = l := if_neg fun hd => by omega
        rw [← hkept]
        exact List.mem_map_of_mem hl
      cases hm : request.mode with
      | readOnlyShared =>
        rw [hm] at hgen
        exact (Option.some.inj hgen).symm
      | mutating =>
        have hfree := List.find?_eq_none.mp (ShardAuthority.slot_free_of_reachesIssue hreach hm) l hl₁
        exact absurd (blocksMutationSlot_iff_stored.mpr ⟨hlm, .inl hs, hlate⟩) hfree
      | none =>
        have hno := hkeep request hop hshard hreach hm
        have hyes : a.hasWriter slotNowMs = true := by
          refine List.any_eq_true.mpr ⟨l, hl, ?_⟩
          simp [hlm, effectiveState_eq_active.mpr ⟨hs, hlate⟩]
        exact absurd (hyes.symm.trans hno) (by simp)
    cases h with
    | bumped request _ generation hshard hreach hgen =>
      have hexp : l'.expiresAtMs = l.expiresAtMs := by
        rcases hls.expiry with he | he
        · exact he
        · simp [extension] at he
      exact ⟨rfl, (hmoved rfl hshard hreach hgen (by omega)).symm⟩
    | issued request generation hshard hreach hgen =>
      have hexp : l'.expiresAtMs = l.expiresAtMs := by
        rcases hls.expiry with he | he
        · exact he
        · simp [extension] at he
      exact ⟨rfl, (hmoved rfl hshard hreach hgen (by omega)).symm⟩
    | fenced target reason pre post lease generation _ _ hleases hholder hlmode hlact =>
      -- The fenced lease is the one writer.
      exfalso
      have hlease := ShardAuthority.mem_of_flushed_active hleases hlact
      have hsame : l = lease := hal.slot.later hle l hl lease hlease.1
        (blocksMutationSlot_iff_stored.mpr ⟨hlm, .inl hs, by omega⟩)
        (blocksMutationSlot_iff_stored.mpr ⟨hlmode, .inl hlact, hlease.2⟩)
      have hfence := (ShardStep.fenced target reason pre post lease generation _ ‹_› hleases hholder hlmode hlact
        ‹_› ‹_› : ShardStep k nowMs slotNowMs token a _ _ _).idsAscend hids
      have hl'' := hfence.eq_of_id hl' (List.mem_append_right _ List.mem_cons_self)
        (show l'.id = lease.id by rw [hls.id_eq, hsame])
      rw [hl''] at hs'
      exact LeaseState.noConfusion hs'
    | advanced epoch =>
      exfalso
      obtain ⟨x, -, rfl⟩ := List.mem_map.mp hl'
      split_ifs at hs' with hc
      exact hc (.inl hs')
    | _ => exact ⟨rfl, rfl⟩
  · subst hout
    cases h with
    | issued => exact ⟨rfl, rfl⟩

theorem Aligned.step (hids : a.IdsAscend) (hle : clockMs ≤ nowMs) (hle' : nowMs ≤ slotNowMs)
    (hal : Aligned source clockMs minted k a) (h : ShardStep k nowMs slotNowMs (source minted) a op outcome a')
    (hkeep : ∀ request, op = .grant request → request.shard = k → a.reachesIssue request nowMs slotNowMs = true →
      request.mode = .none → a.hasWriter slotNowMs = false) :
    Aligned source slotNowMs (minted + outcome.tokens) k a' := by
  refine ⟨h.valid hal.valid, h.slotUnique hids hle' (hal.slot.later hle), fun l' hl' => ?_,
    fun l' hl' => hal.pair_step hids hle hle' h hkeep hl'⟩
  rcases h.backward hids.nodup hl' with ⟨l, hl, hls⟩ | hout
  · obtain ⟨hs, hh, i, hi, he⟩ := hal.holders l hl
    exact ⟨hls.shard_eq.trans hs, hls.holder_eq ▸ hh, i, by omega, hls.token_eq.trans he⟩
  · subst hout
    cases h with
    | issued request _ hshard hreach =>
      exact ⟨hshard, ShardAuthority.holder_valid_of_reachesIssue hreach, minted, Nat.lt_succ_self minted, rfl⟩

end

/-! ## Runs -/

/-- The first `n` tokens of the source are non-nil and pairwise distinct. -/
def GoodTokens (source : Nat → AuthorityToken) (n : Nat) : Prop :=
  DistinctUpTo source n ∧ ∀ i < n, (source i).isValid = true

instance (source : Nat → AuthorityToken) (n : Nat) : Decidable (GoodTokens source n) :=
  inferInstanceAs (Decidable (_ ∧ ∀ i < n, _))

/-- What every state of a run without unseating events satisfies. -/
structure RegistryState.Seated (source : Nat → AuthorityToken) (s : RegistryState) : Prop where
  wellFormed : s.WellFormed
  tokens : s.AllShards fun _ minted _ a => DistinctUpTo source minted → a.TokensDistinct source minted
  aligned : s.AllShards (Aligned source)

section
variable {source : Nat → AuthorityToken} {s s' : RegistryState} {e : RegistryEvent} {k : ShardId}
  {a : ShardAuthority} {l : AuthorityLease}

theorem unseats_of_modeless {request : GrantRequest} {nowMs slotNowMs : Nat}
    (hfind : s.registry.find request.shard = some a)
    (hu : Unseats s (.call (.grant request) nowMs slotNowMs) = false)
    (hreach : a.reachesIssue request nowMs slotNowMs = true) (hmode : request.mode = .none) :
    a.hasWriter slotNowMs = false := by
  simp only [Unseats, hfind, hreach, hmode, decide_true, Bool.true_and] at hu
  exact (Bool.or_eq_false_iff.mp hu).1

theorem RegistryState.Seated.step (hs : s.Seated source) (hu : Unseats s e = false)
    (h : RegistryStep source s e s') : s'.Seated source := by
  refine ⟨wellFormed_step hs.wellFormed h, (tokensDistinct source).allShards_step hs.wellFormed hs.tokens h, ?_⟩
  intro k a' hfind'
  rcases h.shard_cases hs.wellFormed hfind' with
    ⟨-, hvalid, epoch, hepoch, rfl⟩ | ⟨a, ha, rfl | ⟨op, nowMs, slotNowMs, rfl, hstep⟩⟩
  · exact ⟨⟨hvalid, hepoch, Nat.one_ne_zero⟩, by simp [ShardAuthority.SlotUnique], by simp, by simp⟩
  · exact (hs.aligned k _ ha).later h.clock_le (ShardInvariant.minted_le h)
  · obtain ⟨hadm, rfl⟩ := h
    refine (hs.aligned k a ha).step (hs.wellFormed.ids k a ha) hadm.1 hadm.2 hstep ?_
    rintro request rfl hk hreach hmode
    exact unseats_of_modeless (hk ▸ ha) hu hreach hmode

/-- The claim of an incumbent passes in a seated state. -/
theorem RegistryState.Seated.passes (hs : s.Seated source) (htokens : GoodTokens source s.minted)
    (hfind : s.registry.find k = some a) (hl : l ∈ a.leases) (hinc : l.Incumbent s.clockMs) :
    s.Passes l.claim := by
  have hal := hs.aligned k a hfind
  obtain ⟨hshard, hholder, i, hi, htoken⟩ := hal.holders l hl
  have hact := effectiveState_eq_active.mpr ⟨hinc.state, hinc.live⟩
  obtain ⟨hepoch, hgen⟩ := hal.pair l hl hinc.mode hact
  have hfind' : s.registry.find l.claim.shard = some a := by
    rw [show l.claim.shard = k from hshard]
    exact hfind
  refine RegistryState.passes_iff.mpr ⟨a, hfind', ShardAuthority.validateClaim_eq_ok.mpr ⟨?_, hepoch, hgen, l, ?_,
    hact, hinc.attested, hinc.mode⟩⟩
  · have htv : l.token.isValid = true := htoken ▸ htokens.2 i hi
    simp [AuthorityClaim.isValid, AuthorityLease.claim, hshard, hal.valid.1, hholder, hepoch, hgen, hal.valid.2.1,
      hal.valid.2.2, htv]
  · have hself : presentedBy l.claim l = true := presentedBy_iff.mpr ⟨rfl, rfl⟩
    cases hl₀ : a.leases.find? (presentedBy l.claim) with
    | none => exact absurd hself (List.find?_eq_none.mp hl₀ l hl)
    | some l₀ =>
      rw [eq_of_presentedBy (hs.tokens k a hfind htokens.1) (List.mem_of_find?_eq_some hl₀) hl
        (List.find?_some hl₀) hself]

/-- An operation that may not end the incumbency of a lease leaves it attested and active, or it expires. -/
theorem LeaseStep.incumbent {op : RegistryOp} {outcome : RegistryOutcome} {nowMs : Nat} {l' : AuthorityLease}
    (h : LeaseStep k a op outcome nowMs l l') (hno : ¬ op.mayEnd k l) (hatt : l.attested = true)
    (hs : l.state = .active) : l'.attested = true ∧ l'.state = .active ∨ l.expiresAtMs ≤ nowMs := by
  cases h with
  | kept => exact .inl ⟨hatt, hs⟩
  | expired _ hdue => exact .inr hdue
  | extended _ _ _ _ _ hactive _ hattested => exact .inl ⟨hattested hatt, hactive⟩
  | fenced reason hop => exact absurd (.inl ⟨reason, hop⟩) hno
  | acknowledged _ _ _ _ _ _ hfencing => exact absurd (hs.symm.trans hfencing) (by decide)
  | revoked reason hop => exact absurd (.inr (.inl ⟨reason, hop⟩)) hno
  | reattested => exact .inl ⟨rfl, hs⟩
  | advanced epoch hop => exact absurd (.inr (.inr (.inl ⟨epoch, hop⟩))) hno
  | detached hop => exact absurd (.inr (.inr (.inr hop))) hno

theorem LeaseStep.claim_eq {op : RegistryOp} {outcome : RegistryOutcome} {nowMs : Nat} {l' : AuthorityLease}
    (h : LeaseStep k a op outcome nowMs l l') : l'.claim = l.claim := by
  simp only [AuthorityLease.claim, h.shard_eq, h.holder_eq, h.pair_eq.1, h.pair_eq.2, h.token_eq]

/-- After a step that neither unseats nor may end it, an incumbent still is one, or its expiry has passed. -/
theorem incumbent_step (hs : s.Seated source) (hu : Unseats s e = false) (h : RegistryStep source s e s')
    (hfind : s.registry.find k = some a) (hl : l ∈ a.leases) (hinc : l.Incumbent s.clockMs)
    (hno : ∀ op nowMs slotNowMs, e = .call op nowMs slotNowMs → ¬ op.mayEnd k l) :
    l.expiresAtMs ≤ s'.clockMs ∨ ∃ a', s'.registry.find k = some a' ∧ ∃ l' ∈ a'.leases,
      l'.claim = l.claim ∧ (l'.expiresAtMs ≤ s'.clockMs ∨ l'.Incumbent s'.clockMs) := by
  by_cases hdue : l.expiresAtMs ≤ s'.clockMs
  · exact .inl hdue
  have hids := (hs.wellFormed.ids k a hfind).nodup
  obtain ⟨a', hfind', hcase⟩ := h.shard_forward hs.wellFormed hfind
  refine .inr ⟨a', hfind', ?_⟩
  rcases hcase with rfl | ⟨op, nowMs, slotNowMs, rfl, hstep⟩
  · exact ⟨l, hl, rfl, .inr ⟨hinc.attested, hinc.state, by omega, hinc.mode⟩⟩
  · obtain ⟨hadm, rfl⟩ := h
    have hadm' : s.clockMs ≤ nowMs ∧ nowMs ≤ slotNowMs := hadm
    have hdue' : ¬ l.expiresAtMs ≤ slotNowMs := hdue
    rcases hstep.forward hids hl with ⟨l', hl', hls⟩ | ⟨⟨lease, hout⟩, hfull, hhead⟩
    · refine ⟨l', hl', hls.claim_eq, ?_⟩
      rcases hls.incumbent (hno op nowMs slotNowMs rfl) hinc.attested hinc.state with ⟨hatt, hst⟩ | hlate
      · by_cases hdue₁ : l'.expiresAtMs ≤ slotNowMs
        · exact .inl hdue₁
        · exact .inr ⟨hatt, hst, Nat.lt_of_not_le hdue₁, hls.mode_eq.trans hinc.mode⟩
      · omega
    · -- The lease is not dropped from a full list.
      exfalso
      have hact := effectiveState_eq_active.mpr ⟨hinc.state, Nat.lt_of_not_le hdue'⟩
      rw [hout] at hstep
      cases hstep with
      | issued request _ hshard hreach =>
        subst hshard
        simp [Unseats, hfind, hreach, hfull, hhead, hinc.attested, hinc.mode, hact] at hu

/-- In every run without unseating events and with good tokens, the claim of every incumbent passes; and
the next such event, unless it is a fence of its holder, its revocation, an epoch advance or a reload,
leaves it passing or past its expiry. -/
theorem incumbent_claim_holds {clockMs : Nat} {es : List RegistryEvent}
    (h : Run (Guarded (fun s e => Unseats s e = false) (RegistryStep source)) (.start clockMs) es s)
    (htokens : GoodTokens source s.minted) (hfind : s.registry.find k = some a) (hl : l ∈ a.leases)
    (hinc : l.Incumbent s.clockMs) :
    s.Passes l.claim ∧ ∀ e s', Unseats s e = false → RegistryStep source s e s' → GoodTokens source s'.minted →
      (∀ op nowMs slotNowMs, e = .call op nowMs slotNowMs → ¬ op.mayEnd k l) →
      s'.Passes l.claim ∨ l.expiresAtMs ≤ s'.clockMs ∨
        ∃ a', s'.registry.find k = some a' ∧ ∃ l' ∈ a'.leases, l'.claim = l.claim ∧ l'.expiresAtMs ≤ s'.clockMs := by
  have hstart : (RegistryState.start clockMs).Seated source :=
    ⟨wellFormed_start clockMs, fun k a hk => by simp [RegistryState.start] at hk,
      fun k a hk => by simp [RegistryState.start] at hk⟩
  have hs : s.Seated source :=
    Run.invariant (RegistryState.Seated source) (fun _ _ _ hs hg => hs.step hg.1 hg.2) h hstart
  refine ⟨hs.passes htokens hfind hl hinc, fun e s' hu hstep htokens' hno => ?_⟩
  rcases incumbent_step hs hu hstep hfind hl hinc hno with hdue | ⟨a', hfind', l', hl', hclaim, hdue | hinc'⟩
  · exact .inr (.inl hdue)
  · exact .inr (.inr ⟨a', hfind', l', hl', hclaim, hdue⟩)
  · exact .inl (hclaim ▸ (hs.step hu hstep).passes htokens' hfind' hl' hinc')

end

namespace Sample

/-- A grant that another incarnation asks for in the given mode. -/
def grantOther (mode : AuthorityMode) : GrantRequest :=
  { shard := shard, holder := incarnation 2, mode := mode }

/-- After a grant in mode `none`. -/
def unseated : RegistryState := state.after tokens (.call (.grant (grantOther .none)) 7 7)

def unseatedAuthority : ShardAuthority := (unseated.registry.find shard).get (by decide)

end Sample

open Sample in
theorem incumbent_claim_holds_sample : state.Passes lease.claim ∧
    (state.after tokens (.call (.grant (grantOther .readOnlyShared)) 7 7)).Passes lease.claim := by
  have hrun : Run (Guarded (fun s e => Unseats s e = false) (RegistryStep tokens)) (.start 0) events state :=
    .cons ⟨by decide, by decide, rfl⟩ (.cons ⟨by decide, by decide, rfl⟩ (.nil _))
  have h := incumbent_claim_holds hrun (by decide) find_state (l := lease) (by decide)
    ⟨by decide, by decide, by decide, by decide⟩
  refine ⟨h.1, (h.2 (.call (.grant (grantOther .readOnlyShared)) 7 7) _ (by decide) ⟨by decide, rfl⟩ (by decide)
    ?_).resolve_right ?_⟩
  · rintro op nowMs slotNowMs heq
    cases heq
    rintro (⟨reason, h⟩ | ⟨reason, h⟩ | ⟨epoch, h⟩ | h) <;> cases h
  · rintro (hdue | ⟨a', hfind', l', hl', hclaim, hdue⟩)
    · exact absurd hdue (by decide)
    · have hall : ((state.after tokens (.call (.grant (grantOther .readOnlyShared)) 7 7)).registry.find shard).all
          fun a => a.leases.all fun l => 7 < l.expiresAtMs := by decide
      rw [hfind'] at hall
      have := List.all_eq_true.mp hall l' hl'
      have hlate : 7 < l'.expiresAtMs := of_decide_eq_true this
      exact absurd hdue (Nat.not_le_of_lt hlate)

open Sample in
/-- A grant in mode `none` to another incarnation makes the claim of a live, attested writer stale. -/
theorem modeless_grant_unseats : ¬ ∀ (source : Nat → AuthorityToken) (clockMs : Nat) (es : List RegistryEvent)
    (s : RegistryState) (k : ShardId) (a : ShardAuthority) (l : AuthorityLease),
      Run (RegistryStep source) (.start clockMs) es s → GoodTokens source s.minted → s.registry.find k = some a →
      l ∈ a.leases → l.Incumbent s.clockMs → s.Passes l.claim := by
  intro hall
  have hrun : Run (RegistryStep tokens) (.start 0) (events ++ [.call (.grant (grantOther .none)) 7 7]) unseated :=
    run_state.snoc ⟨by decide, rfl⟩
  have hpass := hall tokens 0 _ unseated shard unseatedAuthority lease hrun (by decide) (Option.some_get _).symm
    (by decide) ⟨by decide, by decide, by decide, by decide⟩
  exact absurd (congrArg Except.isOk hpass) (by decide)

end FabricEvolution
