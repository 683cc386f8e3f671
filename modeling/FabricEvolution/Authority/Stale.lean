import FabricEvolution.Authority.Slot

/-!
# Stale claims never revive

The tokens minted in a run are assumed pairwise distinct (`DistinctUpTo`).

* `axis` : the pair (epoch, generation), ordered lexicographically;
* `tokensDistinct` : every lease carries a token of its own, one the source has minted;
* `ShardAuthority.validateClaim_eq_ok` : when a claim passes;
* `Dead` : a claim no later operation brings back; `Dead.step`, and `Tracked.dead_of_refused` : a claim
  that passed once and is refused is dead unless it only lacks attestation;
* `stale_claims_never_revive`.
-/

namespace FabricEvolution
open Lib AuthorityLease

/-! ## Epoch and generation -/

/-- Epoch and generation, the epoch first. -/
def ShardAuthority.axis (a : ShardAuthority) : ℕ ×ₗ ℕ := toLex (a.epoch, a.generation)

def AuthorityLease.axis (l : AuthorityLease) : ℕ ×ₗ ℕ := toLex (l.epoch, l.generation)

def AuthorityClaim.axis (claim : AuthorityClaim) : ℕ ×ₗ ℕ := toLex (claim.epoch, claim.generation)

section Axis
variable {k : ShardId} {nowMs slotNowMs : Nat} {token : AuthorityToken} {a a' : ShardAuthority}
  {op : RegistryOp} {outcome : RegistryOutcome} {source : Nat → AuthorityToken} {s s' : RegistryState}
  {e : RegistryEvent}

theorem ShardStep.axis_mono (h : ShardStep k nowMs slotNowMs token a op outcome a') : a.axis ≤ a'.axis :=
  Prod.Lex.toLex_le_toLex.mpr h.axis_le

/-- A lease that permits mutation is minted under a pair above every earlier one. -/
theorem ShardStep.axis_issued {lease : AuthorityLease}
    (h : ShardStep k nowMs slotNowMs token a op (.issued lease) a') (hmode : lease.mode = .mutating) :
    a.axis < lease.axis ∧ lease.axis = a'.axis := by
  cases h with
  | issued request generation _ _ hgen _ =>
    have hm : request.mode = .mutating := hmode
    rw [ShardAuthority.nextGeneration, hm, if_neg (by decide)] at hgen
    have hnext : generation = a.generation + 1 := eq_succ_of_nextId hgen
    refine ⟨Prod.Lex.toLex_lt_toLex.mpr (.inr ⟨rfl, ?_⟩), rfl⟩
    change a.generation < generation
    omega

/-- The pair of an established shard never decreases. -/
theorem axis_step (hwf : s.WellFormed) (h : RegistryStep source s e s') (hfind : s.registry.find k = some a) :
    ∃ a', s'.registry.find k = some a' ∧ a.axis ≤ a'.axis := by
  obtain ⟨a', hfind', rfl | ⟨op, nowMs, slotNowMs, -, hstep⟩⟩ := h.shard_forward hwf hfind
  · exact ⟨_, hfind', le_refl _⟩
  · exact ⟨a', hfind', hstep.axis_mono⟩

theorem axis_run {es : List RegistryEvent} (hwf : s.WellFormed) (h : Run (RegistryStep source) s es s')
    (hfind : s.registry.find k = some a) : ∃ a', s'.registry.find k = some a' ∧ a.axis ≤ a'.axis := by
  induction h generalizing a with
  | nil => exact ⟨a, hfind, le_refl _⟩
  | cons hstep _ ih =>
    obtain ⟨a₁, hfind₁, hle₁⟩ := axis_step hwf hstep hfind
    obtain ⟨a₂, hfind₂, hle₂⟩ := ih (wellFormed_step hwf hstep) hfind₁
    exact ⟨a₂, hfind₂, hle₁.trans hle₂⟩

end Axis

/-- The event issues `lease` for its shard. -/
def Issues (source : Nat → AuthorityToken) (s : RegistryState) (e : RegistryEvent) (lease : AuthorityLease) : Prop :=
  ∃ op nowMs slotNowMs, e = .call op nowMs slotNowMs ∧ s.outcome source op nowMs slotNowMs = .issued lease

section Issue
variable {source : Nat → AuthorityToken} {s s' : RegistryState} {e : RegistryEvent} {lease : AuthorityLease}

/-- An issued lease is minted by a step of its own shard. -/
theorem Issues.shardStep (hwf : s.WellFormed) (hi : Issues source s e lease) (h : RegistryStep source s e s') :
    ∃ a a' op nowMs slotNowMs, s.registry.find lease.shard = some a ∧ s'.registry.find lease.shard = some a' ∧
      e = .call op nowMs slotNowMs ∧
      ShardStep lease.shard nowMs slotNowMs (source s.minted) a op (.issued lease) a' := by
  obtain ⟨op, nowMs, slotNowMs, rfl, hout⟩ := hi
  obtain ⟨-, rfl⟩ := h
  obtain ⟨a, a', hfind, hfind', hstep⟩ := exec_issued hwf.keyed hout
  exact ⟨a, a', op, nowMs, slotNowMs, hfind, hfind', rfl, hstep⟩

end Issue

/-! ## Tokens -/

/-- The first `n` tokens of the source are pairwise distinct. -/
def DistinctUpTo (source : Nat → AuthorityToken) (n : Nat) : Prop :=
  ∀ i < n, ∀ j < n, source i = source j → i = j

instance (source : Nat → AuthorityToken) (n : Nat) : Decidable (DistinctUpTo source n) :=
  inferInstanceAs (Decidable (∀ i < n, ∀ j < n, source i = source j → i = j))

theorem DistinctUpTo.mono {source : Nat → AuthorityToken} {n m : Nat} (h : DistinctUpTo source m) (hle : n ≤ m) :
    DistinctUpTo source n := fun i hi j hj => h i (by omega) j (by omega)

/-- Every lease carries a token of its own, one of the `minted` first ones of the source. -/
structure ShardAuthority.TokensDistinct (source : Nat → AuthorityToken) (minted : Nat) (a : ShardAuthority) :
    Prop where
  minted : ∀ l ∈ a.leases, ∃ i < minted, l.token = source i
  nodup : (a.leases.map (·.token)).Nodup

theorem tokensDistinct (source : Nat → AuthorityToken) :
    ShardInvariant source fun _ minted _ a => DistinctUpTo source minted → a.TokensDistinct source minted where
  fresh _ _ _ _ _ _ _ := ⟨by simp, List.nodup_nil⟩
  later _ hle h hdist := by
    have h' := h (hdist.mono hle)
    exact ⟨fun l hl => (h'.minted l hl).imp fun _ hi => ⟨by omega, hi.2⟩, h'.nodup⟩
  step {clockMs minted nowMs slotNowMs k a op outcome a'} hids _ _ h hstep hdist := by
    have h' := h (hdist.mono (Nat.le_add_right _ _))
    have hmap : ∀ {leases}, Pointwise (LeaseStep k a op outcome nowMs) a.leases leases →
        leases.map (·.token) = a.leases.map (·.token) := fun hp => hp.map_eq _ fun _ _ hs => hs.token_eq
    rcases hstep.leases hids.nodup with ⟨hp, -, -⟩ | ⟨request, lease, -, rfl, -, htoken, -, hl⟩
    · refine ⟨fun l' hl' => ?_, by rw [hmap hp]; exact h'.nodup⟩
      obtain ⟨l, hl, hs⟩ := hp.exists_left hl'
      obtain ⟨i, hi, he⟩ := h'.minted l hl
      exact ⟨i, by omega, hs.token_eq.trans he⟩
    · have hflush : Pointwise (LeaseStep k a op (.issued lease) nowMs) a.leases (a.expireInPlace nowMs).leases :=
        ShardStep.pointwise_flush
      have hold : ∀ l' ∈ (a.expireInPlace nowMs).leases, ∃ i < minted, l'.token = source i := by
        intro l' hl'
        obtain ⟨l, hmem, hs⟩ := hflush.exists_left hl'
        rw [hs.token_eq]
        exact h'.minted l hmem
      constructor
      · intro l' hl'
        rw [hl] at hl'
        rcases mem_of_mem_pushBounded hl' with hmem | rfl
        · obtain ⟨i, hi, he⟩ := hold l' hmem
          exact ⟨i, by omega, he⟩
        · exact ⟨minted, Nat.lt_succ_self minted, htoken⟩
      · rw [hl]
        refine List.Nodup.sublist ((pushBounded_sublist _ _ _).map _) ?_
        rw [List.map_append, hmap hflush]
        refine List.nodup_append.mpr ⟨h'.nodup, by simp, fun t ht t' ht' => ?_⟩
        rw [← hmap hflush] at ht
        obtain ⟨l', hmem, rfl⟩ := List.mem_map.mp ht
        obtain ⟨i, hi, he⟩ := hold l' hmem
        simp only [List.map_cons, List.map_nil, List.mem_singleton] at ht'
        intro hc
        have hlt : i < minted + RegistryOutcome.tokens (.issued lease) := by omega
        have := hdist i hlt minted (Nat.lt_succ_self minted) (he.symm.trans (hc.trans (ht'.trans htoken)))
        omega

/-! ## When a claim passes -/

namespace ShardAuthority
variable {a : ShardAuthority} {claim : AuthorityClaim} {t : Nat}

/-- A mutating claim passes when it names the current pair and its lease is live, attested and mutating. -/
theorem validateClaim_eq_ok : a.validateClaim claim .mutating t = .ok () ↔
    claim.isValid = true ∧ claim.epoch = a.epoch ∧ claim.generation = a.generation ∧
      ∃ l, a.leases.find? (presentedBy claim) = some l ∧ l.effectiveState t = .active ∧
        l.attested = true ∧ l.mode = .mutating := by
  unfold validateClaim
  split_ifs with hvalid hepoch hgen
  · simp only [false_iff]
    rintro ⟨h, -⟩
    simp [h] at hvalid
  · simp only [false_iff]
    exact fun h => hepoch h.2.1
  · simp only [false_iff]
    exact fun h => hgen h.2.2.1
  · have hpre : claim.isValid = true ∧ claim.epoch = a.epoch ∧ claim.generation = a.generation :=
      ⟨by simpa using hvalid, not_not.mp hepoch, not_not.mp hgen⟩
    cases hfind : a.leases.find? (presentedBy claim) with
    | none => simp
    | some l =>
      have hmodes : l.mode.allowsMutation = true ↔ l.mode = .mutating := by simp [AuthorityMode.allowsMutation]
      have hread : l.mode = .mutating → l.mode.allowsRead = true := fun h => by simp [AuthorityMode.allowsRead, h]
      have hmut : AuthorityMode.mutating.allowsMutation = true := rfl
      have hrd : AuthorityMode.mutating.allowsRead = true := rfl
      by_cases hact : l.effectiveState t = .active <;> by_cases hatt : l.attested = true <;>
        by_cases hm : l.mode = .mutating <;> simp_all

end ShardAuthority

/-! ## Dead claims -/

/-- The claim passes for mutation at the current reading. -/
def RegistryState.Passes (s : RegistryState) (claim : AuthorityClaim) : Prop :=
  s.registry.validateClaim claim .mutating s.clockMs = .ok ()

/-- The claim is refused at the current reading. -/
def RegistryState.Refuses (s : RegistryState) (claim : AuthorityClaim) (refusal : Status) : Prop :=
  s.registry.validateClaim claim .mutating s.clockMs = .error refusal

/-- No lease of the shard that matches the claim is live, or the pair has moved past the claim's. -/
def DeadIn (claim : AuthorityClaim) (t : Nat) (a : ShardAuthority) : Prop :=
  claim.axis < a.axis ∨ ∀ l ∈ a.leases, presentedBy claim l = true → l.effectiveState t ≠ .active

/-- The claim's token is spent and its shard gives it nothing. -/
def Dead (source : Nat → AuthorityToken) (claim : AuthorityClaim) (s : RegistryState) : Prop :=
  (∃ i < s.minted, claim.token = source i) ∧
    ∃ a, s.registry.find claim.shard = some a ∧ DeadIn claim s.clockMs a

/-- What holds of a claim from the moment it passes: its pair is not ahead of the shard's, and the lease
it matches, while there, permits mutation. -/
def Tracked (source : Nat → AuthorityToken) (claim : AuthorityClaim) (s : RegistryState) : Prop :=
  claim.isValid = true ∧ (∃ i < s.minted, claim.token = source i) ∧
    ∃ a, s.registry.find claim.shard = some a ∧ claim.axis ≤ a.axis ∧
      ∀ l ∈ a.leases, presentedBy claim l = true → l.mode = .mutating

section Dead
variable {source : Nat → AuthorityToken} {claim : AuthorityClaim} {s s' : RegistryState} {e : RegistryEvent}

theorem presentedBy_iff {l : AuthorityLease} :
    presentedBy claim l = true ↔ l.holder = claim.incarnation ∧ l.token = claim.token := by
  simp [presentedBy]

theorem LeaseStep.presentedBy_eq {k : ShardId} {a : ShardAuthority} {op : RegistryOp}
    {outcome : RegistryOutcome} {nowMs : Nat} {l l' : AuthorityLease} (h : LeaseStep k a op outcome nowMs l l') : presentedBy claim l' = presentedBy claim l := by
  simp only [presentedBy, h.holder_eq, h.token_eq]

theorem minted_token_step (h : RegistryStep source s e s') (ht : ∃ i < s.minted, claim.token = source i) :
    ∃ i < s'.minted, claim.token = source i :=
  ht.imp fun _ hi => ⟨hi.1.trans_le (ShardInvariant.minted_le h), hi.2⟩

/-- A lease matching the claim after a step was there before it: its token is not minted again. -/
theorem matching_backward {a a' : ShardAuthority} {k : ShardId} {nowMs slotNowMs : Nat} {op : RegistryOp}
    {outcome : RegistryOutcome} (hids : a.IdsAscend) (hdist : DistinctUpTo source (s.minted + outcome.tokens))
    (ht : ∃ i < s.minted, claim.token = source i)
    (h : ShardStep k nowMs slotNowMs (source s.minted) a op outcome a') {l' : AuthorityLease}
    (hl' : l' ∈ a'.leases) (hm : presentedBy claim l' = true) :
    ∃ l ∈ a.leases, LeaseStep k a op outcome nowMs l l' ∧ presentedBy claim l = true := by
  rcases h.backward hids.nodup hl' with ⟨l, hl, hs⟩ | hout
  · exact ⟨l, hl, hs, hs.presentedBy_eq ▸ hm⟩
  · subst hout
    have htoken : l'.token = source s.minted := by
      cases h with
      | issued => rfl
    obtain ⟨i, hi, he⟩ := ht
    have hsame : source s.minted = source i := htoken.symm.trans ((presentedBy_iff.mp hm).2.trans he)
    have := hdist s.minted (Nat.lt_succ_self _) i (by omega) hsame
    omega

/-- A dead claim stays dead. -/
theorem Dead.step (hwf : s.WellFormed) (hd : Dead source claim s) (h : RegistryStep source s e s')
    (hdist : DistinctUpTo source s'.minted) : Dead source claim s' := by
  obtain ⟨ht, a, hfind, hdead⟩ := hd
  refine ⟨minted_token_step h ht, ?_⟩
  have hclock := h.clock_le
  obtain ⟨a', hfind', hcase⟩ := h.shard_forward hwf hfind
  refine ⟨a', hfind', ?_⟩
  rcases hdead with hlt | hno
  · rcases hcase with rfl | ⟨op, nowMs, slotNowMs, -, hstep⟩
    · exact .inl hlt
    · exact .inl (hlt.trans_le hstep.axis_mono)
  · refine .inr fun l' hl' hm hact => ?_
    obtain ⟨hs, hlive⟩ := effectiveState_eq_active.mp hact
    rcases hcase with rfl | ⟨op, nowMs, slotNowMs, rfl, hstep⟩
    · exact hno l' hl' hm (effectiveState_eq_active.mpr ⟨hs, by omega⟩)
    · obtain ⟨hadm, rfl⟩ := h
      obtain ⟨l, hl, hls, hm'⟩ := matching_backward (hwf.ids _ a hfind) hdist ht hstep hl' hm
      have hadm' : s.clockMs ≤ nowMs ∧ nowMs ≤ slotNowMs := hadm
      have hlive' : slotNowMs < l'.expiresAtMs := hlive
      obtain ⟨hs', ht'⟩ := hls.active_of_active hs (by omega)
      exact hno l hl hm' (effectiveState_eq_active.mpr ⟨hs', by omega⟩)

theorem Dead.run (hwf : s.WellFormed) (hd : Dead source claim s) {es : List RegistryEvent}
    (h : Run (RegistryStep source) s es s') (hdist : DistinctUpTo source s'.minted) : Dead source claim s' :=
  (Run.invariant (fun s => s.WellFormed ∧ (DistinctUpTo source s.minted → Dead source claim s))
    (fun _ _ _ hs hstep => ⟨wellFormed_step hs.1 hstep, fun hdist =>
      (hs.2 (hdist.mono (ShardInvariant.minted_le hstep))).step hs.1 hstep hdist⟩) h ⟨hwf, fun _ => hd⟩).2 hdist

theorem RegistryState.passes_iff : s.Passes claim ↔
    ∃ a, s.registry.find claim.shard = some a ∧ a.validateClaim claim .mutating s.clockMs = .ok () := by
  unfold RegistryState.Passes AuthorityRegistry.validateClaim
  cases s.registry.find claim.shard <;> simp

/-- A dead claim does not pass. -/
theorem Dead.not_passes (hd : Dead source claim s) : ¬ s.Passes claim := by
  intro hp
  obtain ⟨-, a, hfind, hdead⟩ := hd
  obtain ⟨a', hfind', hok⟩ := RegistryState.passes_iff.mp hp
  cases hfind.symm.trans hfind'
  obtain ⟨-, hepoch, hgen, l, hl, hact, -, -⟩ := ShardAuthority.validateClaim_eq_ok.mp hok
  rcases hdead with hlt | hno
  · have haxis : claim.axis = a.axis := by rw [AuthorityClaim.axis, ShardAuthority.axis, hepoch, hgen]
    exact lt_irrefl _ (haxis ▸ hlt)
  · exact hno l (List.mem_of_find?_eq_some hl) (List.find?_some hl) hact

/-- The one lease a claim can match when tokens are distinct. -/
theorem eq_of_presentedBy {minted : Nat} {a : ShardAuthority} (htok : a.TokensDistinct source minted)
    {l l' : AuthorityLease} (hl : l ∈ a.leases) (hl' : l' ∈ a.leases) (hm : presentedBy claim l = true)
    (hm' : presentedBy claim l' = true) : l = l' :=
  List.inj_on_of_nodup_map htok.nodup hl hl'
    ((presentedBy_iff.mp hm).2.trans (presentedBy_iff.mp hm').2.symm)

theorem Tracked.of_passes (htok : s.AllShards fun _ minted _ a => a.TokensDistinct source minted)
    (hp : s.Passes claim) : Tracked source claim s := by
  obtain ⟨a, hfind, hok⟩ := RegistryState.passes_iff.mp hp
  obtain ⟨hvalid, hepoch, hgen, l, hl, -, -, hmode⟩ := ShardAuthority.validateClaim_eq_ok.mp hok
  have hmem := List.mem_of_find?_eq_some hl
  have hm : presentedBy claim l = true := List.find?_some hl
  obtain ⟨i, hi, he⟩ := (htok _ a hfind).minted l hmem
  refine ⟨hvalid, ⟨i, hi, (presentedBy_iff.mp hm).2.symm.trans he⟩, a, hfind, ?_, fun l' hl' hm' => ?_⟩
  · rw [AuthorityClaim.axis, ShardAuthority.axis, hepoch, hgen]
  · rw [eq_of_presentedBy (htok _ a hfind) hl' hmem hm' hm]
    exact hmode

theorem Tracked.step (hwf : s.WellFormed) (ht : Tracked source claim s) (h : RegistryStep source s e s')
    (hdist : DistinctUpTo source s'.minted) : Tracked source claim s' := by
  obtain ⟨hvalid, htoken, a, hfind, haxis, hmode⟩ := ht
  obtain ⟨a', hfind', hcase⟩ := h.shard_forward hwf hfind
  refine ⟨hvalid, minted_token_step h htoken, a', hfind', ?_, fun l' hl' hm => ?_⟩
  · rcases hcase with rfl | ⟨op, nowMs, slotNowMs, -, hstep⟩
    · exact haxis
    · exact haxis.trans hstep.axis_mono
  · rcases hcase with rfl | ⟨op, nowMs, slotNowMs, rfl, hstep⟩
    · exact hmode l' hl' hm
    · obtain ⟨-, rfl⟩ := h
      obtain ⟨l, hl, hls, hm'⟩ := matching_backward (hwf.ids _ a hfind) hdist htoken hstep hl' hm
      exact hls.mode_eq.trans (hmode l hl hm')

theorem Tracked.run (hwf : s.WellFormed) (ht : Tracked source claim s) {es : List RegistryEvent}
    (h : Run (RegistryStep source) s es s') (hdist : DistinctUpTo source s'.minted) : Tracked source claim s' :=
  (Run.invariant (fun s => s.WellFormed ∧ (DistinctUpTo source s.minted → Tracked source claim s))
    (fun _ _ _ hs hstep => ⟨wellFormed_step hs.1 hstep, fun hdist =>
      (hs.2 (hdist.mono (ShardInvariant.minted_le hstep))).step hs.1 hstep hdist⟩) h ⟨hwf, fun _ => ht⟩).2 hdist

theorem minted_le_run {es : List RegistryEvent} (h : Run (RegistryStep source) s es s') : s.minted ≤ s'.minted := by
  induction h with
  | nil => exact Nat.le_refl _
  | cons hstep _ ih => exact (ShardInvariant.minted_le hstep).trans ih

/-- A claim that passed once and is refused for want of more than attestation is dead. -/
theorem Tracked.dead_of_refused (htok : s.AllShards fun _ minted _ a => a.TokensDistinct source minted)
    (ht : Tracked source claim s) {refusal : Status} (hr : s.Refuses claim refusal)
    (hreason : refusal ≠ unattested claim) : Dead source claim s := by
  obtain ⟨hvalid, htoken, a, hfind, haxis, hmode⟩ := ht
  refine ⟨htoken, a, hfind, ?_⟩
  have hr' : a.validateClaim claim .mutating s.clockMs = .error refusal := by
    simpa [RegistryState.Refuses, AuthorityRegistry.validateClaim, hfind] using hr
  by_cases hpair : claim.axis = a.axis
  · have hepoch : claim.epoch = a.epoch := congrArg (fun p => (ofLex p).1) hpair
    have hgen : claim.generation = a.generation := congrArg (fun p => (ofLex p).2) hpair
    refine .inr fun l hl hm hact => ?_
    cases hl₀ : a.leases.find? (presentedBy claim) with
    | none => exact List.find?_eq_none.mp hl₀ l hl hm
    | some l₀ =>
      have heq := eq_of_presentedBy (htok _ a hfind) hl (List.mem_of_find?_eq_some hl₀) hm (List.find?_some hl₀)
      subst heq
      by_cases hatt : l.attested = true
      · have hok := ShardAuthority.validateClaim_eq_ok.mpr
          ⟨hvalid, hepoch, hgen, l, hl₀, hact, hatt, hmode l hl hm⟩
        exact absurd (hr'.symm.trans hok) (by simp)
      · simp [ShardAuthority.validateClaim, hvalid, hepoch, hgen, hl₀, hact, hatt] at hr'
        exact hreason hr'.symm
  · exact .inl (lt_of_le_of_ne haxis hpair)

end Dead

/-- Stale claims never revive: with distinct tokens, a claim that passed for mutation and is then
refused, other than for want of attestation, is refused in every later state; the pair of a shard never
decreases; and mutating leases are issued with strictly increasing pairs. -/
theorem stale_claims_never_revive {source : Nat → AuthorityToken} {clockMs : Nat} {es : List RegistryEvent}
    {s : RegistryState} (h : Run (RegistryStep source) (.start clockMs) es s) :
    (∀ claim es₁ s₁ refusal es₂ s₂, s.Passes claim → Run (RegistryStep source) s es₁ s₁ →
        s₁.Refuses claim refusal → refusal ≠ unattested claim → Run (RegistryStep source) s₁ es₂ s₂ →
        DistinctUpTo source s₂.minted → ∃ refusal', s₂.Refuses claim refusal') ∧
      (∀ k a es₁ s₁, s.registry.find k = some a → Run (RegistryStep source) s es₁ s₁ →
        ∃ a₁, s₁.registry.find k = some a₁ ∧ a.axis ≤ a₁.axis) ∧
      ∀ e s₁ lease es₂ s₂ e₂ s₃ lease₂, RegistryStep source s e s₁ → Issues source s e lease →
        Run (RegistryStep source) s₁ es₂ s₂ → RegistryStep source s₂ e₂ s₃ → Issues source s₂ e₂ lease₂ →
        lease.shard = lease₂.shard → lease.mode = .mutating → lease₂.mode = .mutating →
        lease.axis < lease₂.axis := by
  obtain ⟨hwf, htok⟩ := (tokensDistinct source).reachable h
  refine ⟨?_, fun k a es₁ s₁ hfind h₁ => axis_run hwf h₁ hfind, ?_⟩
  · intro claim es₁ s₁ refusal es₂ s₂ hpass h₁ hrefuse hreason h₂ hdist
    obtain ⟨hwf₁, htok₁⟩ := (tokensDistinct source).reachable (h.append h₁)
    have hdist₁ := hdist.mono (minted_le_run h₂)
    have hdist₀ := hdist₁.mono (minted_le_run h₁)
    have htracked := (Tracked.of_passes (fun k a hk => htok k a hk hdist₀) hpass).run hwf h₁ hdist₁
    have hdead := htracked.dead_of_refused (fun k a hk => htok₁ k a hk hdist₁) hrefuse hreason
    have hno := (hdead.run hwf₁ h₂ hdist).not_passes
    unfold RegistryState.Passes at hno
    unfold RegistryState.Refuses
    cases hv : s₂.registry.validateClaim claim .mutating s₂.clockMs with
    | error refusal' => exact ⟨refusal', rfl⟩
    | ok u => exact absurd hv hno
  · intro e s₁ lease es₂ s₂ e₂ s₃ lease₂ hstep hissue h₂ hstep₂ hissue₂ hshard hmode hmode₂
    have hwf₁ := wellFormed_step hwf hstep
    have hwf₂ := wellFormed_reachable ((h.snoc hstep).append h₂)
    obtain ⟨a, a', op, nowMs, slotNowMs, -, hfind', -, hss⟩ := hissue.shardStep hwf hstep
    obtain ⟨b, b', op₂, nowMs₂, slotNowMs₂, hfind₂, -, -, hss₂⟩ := hissue₂.shardStep hwf₂ hstep₂
    obtain ⟨b₀, hfind₀, hle⟩ := axis_run hwf₁ h₂ hfind'
    rw [hshard] at hfind₀
    cases hfind₀.symm.trans hfind₂
    calc lease.axis = a'.axis := (hss.axis_issued hmode).2
      _ ≤ b.axis := hle
      _ < lease₂.axis := (hss₂.axis_issued hmode₂).1

/-- A revoked claim stays refused. -/
theorem stale_claims_never_revive_sample :
    ∃ refusal, ((Sample.state.after Sample.tokens (.call (.revoke Sample.shard 1 "") 8 8)).after Sample.tokens
      (.call (.grant { shard := Sample.shard, holder := Sample.incarnation 1 }) 9 9)).Refuses
        Sample.lease.claim refusal := by
  have hrevoke : RegistryStep Sample.tokens Sample.state (.call (.revoke Sample.shard 1 "") 8 8)
      (Sample.state.after Sample.tokens (.call (.revoke Sample.shard 1 "") 8 8)) := ⟨by decide, rfl⟩
  refine (stale_claims_never_revive Sample.run_state).1 Sample.lease.claim _ _ _ _ _ ?_ (.single hrevoke) rfl ?_
    (.single ⟨by decide, rfl⟩) ?_
  · rfl
  · intro hc
    exact absurd (congrArg Status.message hc) (by decide)
  · decide

end FabricEvolution
