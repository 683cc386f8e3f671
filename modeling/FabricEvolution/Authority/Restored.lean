import FabricEvolution.Authority.Run

/-!
# Leases restored from storage

A registry is loaded from a snapshot, its own or any other document that decodes; its leases come back
unattested.

* `keyed_of_registryFromJson`, `detached_of_registryFromJson` : what loading leaves;
* `ShardAuthority.extendable` : the lease a grant extends instead of issuing one, `grant_leases` : what a
  grant does to the leases;
* `RestoreStep` : the steps of the registry, with further loads among them;
* `Unattested` : no lease of a holder and token is attested; `Unattested.exec` : kept by every operation but
  the grant that extends such a lease and its re-attestation;
* `restored_needs_reattestation`.
-/

namespace FabricEvolution
open Lib

/-! ## Loading -/

theorem unattested_of_shardAuthorityFromJson {value : Json} {a : ShardAuthority} (h : shardAuthorityFromJson value = .ok a) :
    ∀ lease ∈ a.leases, lease.attested = false := by
  have hleases : ∀ (values : List Json) (shard : ShardId) {leases : List AuthorityLease},
      restoreLeases shard values = .ok leases → ∀ lease ∈ leases, lease.attested = false := by
    intro values shard
    induction values with
    | nil =>
      intro leases h
      cases h
      simp
    | cons value rest ih =>
      intro leases h
      simp only [restoreLeases, Result.bind_eq_ok] at h
      obtain ⟨decoded, -, _, -, tail, htail, h⟩ := h
      cases h
      intro lease hmem
      rcases List.mem_cons.mp hmem with rfl | hmem
      · rfl
      · exact ih htail lease hmem
  simp only [shardAuthorityFromJson, Result.bind_eq_ok] at h
  obtain ⟨_, -, _, -, shard, -, _, -, _, -, values, -, leases, hl, _, -, _, -, h⟩ := h
  cases h
  exact hleases values shard hl

/-- What holds of every decoded shard entry holds of every shard of a loaded registry. -/
theorem find_of_registryFromJson {value : Json} {registry : AuthorityRegistry} (h : registryFromJson value = .ok registry)
    {k : ShardId} {a : ShardAuthority} (hfind : registry.find k = some a) :
    a.shard = k ∧ ∃ entry, shardAuthorityFromJson entry = .ok a := by
  have hloop : ∀ (values : List Json) {restored out : SortedMap ShardId ShardAuthority},
      (∀ k a, restored.find k = some a → a.shard = k ∧ ∃ entry, shardAuthorityFromJson entry = .ok a) →
      restoreShards values restored = .ok out →
      ∀ k a, out.find k = some a → a.shard = k ∧ ∃ entry, shardAuthorityFromJson entry = .ok a := by
    intro values
    induction values with
    | nil =>
      intro restored out hall h
      cases h
      exact hall
    | cons entry rest ih =>
      intro restored out hall h
      simp only [restoreShards, Result.bind_eq_ok] at h
      obtain ⟨decoded, hdecoded, _, -, h⟩ := h
      refine ih (fun k a hk => ?_) h
      rw [SortedMap.find_insert] at hk
      split_ifs at hk with heq
      · cases hk
        exact ⟨heq, entry, hdecoded⟩
      · exact hall k a hk
  simp only [registryFromJson, Result.bind_eq_ok] at h
  obtain ⟨_, -, values, -, restored, hrestored, h⟩ := h
  cases h
  exact hloop values (fun k a hk => by simp at hk) hrestored k a hfind

theorem keyed_of_registryFromJson {value : Json} {registry : AuthorityRegistry}
    (h : registryFromJson value = .ok registry) : registry.Keyed :=
  fun _ _ hfind => (find_of_registryFromJson h hfind).1

/-- No lease of a loaded registry is attested. -/
theorem detached_of_registryFromJson {value : Json} {registry : AuthorityRegistry}
    (h : registryFromJson value = .ok registry) {k : ShardId} {a : ShardAuthority} (hfind : registry.find k = some a)
    {lease : AuthorityLease} (hl : lease ∈ a.leases) : lease.attested = false := by
  obtain ⟨-, entry, hentry⟩ := find_of_registryFromJson h hfind
  exact unattested_of_shardAuthorityFromJson hentry lease hl

/-! ## What a grant does to the leases -/

namespace ShardAuthority

/-- The lease a grant extends instead of issuing one. -/
def extendable (a : ShardAuthority) (request : GrantRequest) (nowMs slotNowMs : Nat) : Option AuthorityLease :=
  let flushed := a.expireInPlace nowMs
  if request.mode = .mutating then
    match flushed.activeMutating slotNowMs with
    | some blocker =>
      if blocker.holder = request.holder ∧ blocker.effectiveState nowMs = .active then
        flushed.leases.find? (·.id = blocker.id)
      else none
    | none => none
  else flushed.leases.find? (request.heldBy nowMs)

/-- Holder, token and attestation of a lease are those of one of `leases`. -/
def Recorded (leases : List AuthorityLease) (lease : AuthorityLease) : Prop :=
  ∃ l ∈ leases, lease.holder = l.holder ∧ lease.token = l.token ∧ lease.attested = l.attested

variable {a : ShardAuthority} {request : GrantRequest} {nowMs slotNowMs : Nat} {token : AuthorityToken}
  {lease : AuthorityLease}

theorem Recorded.of_mem {leases : List AuthorityLease} (h : lease ∈ leases) : Recorded leases lease :=
  ⟨lease, h, rfl, rfl, rfl⟩

theorem Recorded.of_flushed (h : lease ∈ (a.expireInPlace nowMs).leases) : Recorded a.leases lease := by
  obtain ⟨l, hl, rfl⟩ := List.mem_map.mp h
  refine ⟨l, hl, ?_⟩
  unfold AuthorityLease.expireAt
  split_ifs <;> exact ⟨rfl, rfl, rfl⟩

theorem mem_renewFirst {p : AuthorityLease → Bool} (h : lease ∈ (a.renewFirst p request nowMs).leases) :
    lease ∈ a.leases ∨ ∃ l, a.leases.find? p = some l ∧ lease = l.renewedBy request nowMs := by
  cases hfind : a.leases.find? p with
  | none =>
    refine .inl ?_
    have hsame : ∀ leases : List AuthorityLease, (∀ l ∈ leases, p l = false) →
        modifyFirst p (·.renewedBy request nowMs) leases = leases := by
      intro leases
      induction leases with
      | nil => exact fun _ => rfl
      | cons l leases ih =>
        intro hno
        simp [modifyFirst, hno l List.mem_cons_self, ih fun l' hl' => hno l' (List.mem_cons_of_mem _ hl')]
    have hno : ∀ l ∈ a.leases, p l = false := fun l hl => by simpa using List.find?_eq_none.mp hfind l hl
    rwa [renewFirst, hsame a.leases hno] at h
  | some l =>
    obtain ⟨pre, post, hl, hm, -, -⟩ := exists_modifyFirst hfind (·.renewedBy request nowMs)
    rw [renewFirst, hm] at h
    rw [hl]
    simp only [List.mem_append, List.mem_cons] at h ⊢
    rcases h with h | rfl | h
    · exact .inl (.inl h)
    · exact .inr ⟨l, rfl, rfl⟩
    · exact .inl (.inr (.inr h))

theorem mem_issue (h : lease ∈ (a.issue request nowMs token).1.leases) :
    lease ∈ a.leases ∨ lease.token = token ∧ (a.issue request nowMs token).2 = .issued lease := by
  unfold issue at h ⊢
  cases hgen : a.nextGeneration request.mode with
  | none =>
    rw [hgen] at h
    exact .inl h
  | some generation =>
    rw [hgen] at h
    dsimp only at h ⊢
    cases hid : nextId a.nextLeaseId with
    | none =>
      rw [hid] at h
      exact .inl h
    | some nextLeaseId =>
      rw [hid] at h
      rcases mem_of_mem_pushBounded h with h | rfl
      · exact .inl h
      · exact .inr ⟨rfl, rfl⟩

/-- Every lease after a grant is one from before, the extended one, or newly minted. -/
theorem grant_leases (h : lease ∈ (a.grant request nowMs slotNowMs token).1.leases) :
    Recorded a.leases lease ∨
      (∃ l ∈ (a.expireInPlace nowMs).leases, a.extendable request nowMs slotNowMs = some l ∧
        lease = l.renewedBy request nowMs) ∨
      lease.token = token ∧ (a.grant request nowMs slotNowMs token).2 = .issued lease := by
  unfold grant at h ⊢
  split_ifs at h ⊢ with hholder hzero hmax hmode
  · exact .inl (.of_mem h)
  · exact .inl (.of_mem h)
  · exact .inl (.of_mem h)
  · dsimp only at h ⊢
    cases hslot : (a.expireInPlace nowMs).activeMutating slotNowMs with
    | some blocker =>
      rw [hslot] at h
      dsimp only at h
      split_ifs at h with hown
      · split at h
        · rcases mem_renewFirst h with h | ⟨l', hl', rfl⟩
          · exact .inl (.of_flushed h)
          · refine .inr (.inl ⟨l', List.mem_of_find?_eq_some hl', ?_, rfl⟩)
            simp only [extendable, hmode, hslot, hown, and_self, if_true]
            exact hl'
        · exact .inl (.of_flushed h)
      · exact .inl (.of_flushed h)
    | none =>
      rw [hslot] at h
      exact (mem_issue h).imp Recorded.of_flushed .inr
  · dsimp only at h ⊢
    cases hheld : (a.expireInPlace nowMs).leases.find? (request.heldBy nowMs) with
    | some _ =>
      rw [hheld] at h
      rcases mem_renewFirst h with h | ⟨l', hl', rfl⟩
      · exact .inl (.of_flushed h)
      · refine .inr (.inl ⟨l', List.mem_of_find?_eq_some hl', ?_, rfl⟩)
        simp only [extendable, hmode, if_false]
        exact hl'
    | none =>
      rw [hheld] at h
      dsimp only at h ⊢
      split_ifs at h ⊢
      · exact .inl (.of_flushed h)
      · exact (mem_issue h).imp Recorded.of_flushed .inr

end ShardAuthority

/-! ## Unattested leases -/

/-- No lease of this holder and token is attested. -/
def Unattested (k : ShardId) (holder : IncarnationId) (presented : AuthorityToken) (registry : AuthorityRegistry) : Prop :=
  ∀ a, registry.find k = some a → ∀ l ∈ a.leases, l.holder = holder → l.token = presented → l.attested = false

/-- The operation is a grant that extends an unattested lease of this holder and token. -/
def AuthorityRegistry.Revives (registry : AuthorityRegistry) (k : ShardId) (holder : IncarnationId)
    (presented : AuthorityToken) (op : RegistryOp) (nowMs slotNowMs : Nat) : Prop :=
  ∃ request a l, op = .grant request ∧ request.shard = k ∧ registry.find k = some a ∧
    a.extendable request nowMs slotNowMs = some l ∧ l.holder = holder ∧ l.token = presented ∧ l.attested = false

section
variable {k : ShardId} {holder : IncarnationId} {presented token : AuthorityToken} {registry : AuthorityRegistry}
  {op : RegistryOp} {nowMs slotNowMs : Nat}

/-- Leases that agree with those before in holder, token and attestation stay unattested. -/
theorem unattested_of_recorded {a : ShardAuthority} {lease : AuthorityLease}
    (hu : ∀ l ∈ a.leases, l.holder = holder → l.token = presented → l.attested = false)
    (h : ShardAuthority.Recorded a.leases lease) (hholder : lease.holder = holder) (htoken : lease.token = presented) :
    lease.attested = false := by
  obtain ⟨l, hl, hh, ht, ha⟩ := h
  rw [ha]
  exact hu l hl (hh.symm.trans hholder) (ht.symm.trans htoken)

/-- A step other than a grant or the re-attestation of the pair attests nothing of it. -/
theorem ShardStep.unattested {a a' : ShardAuthority} {outcome : RegistryOutcome}
    (h : ShardStep k nowMs slotNowMs token a op outcome a')
    (hu : ∀ l ∈ a.leases, l.holder = holder → l.token = presented → l.attested = false)
    (hop : ∀ request, op ≠ .grant request) (hreattest : op = .reattest k holder presented → outcome ≠ .done) :
    ∀ l ∈ a'.leases, l.holder = holder → l.token = presented → l.attested = false := by
  have hflushed : ∀ l ∈ (a.expireInPlace nowMs).leases, l.holder = holder → l.token = presented → l.attested = false :=
    fun l hl => unattested_of_recorded hu (.of_flushed hl)
  have hreplaced : ∀ {leases pre post : List AuthorityLease} {lease lease' : AuthorityLease},
      (∀ l ∈ leases, l.holder = holder → l.token = presented → l.attested = false) → leases = pre ++ lease :: post →
      (lease'.holder = holder → lease'.token = presented → lease'.attested = false) →
      ∀ l ∈ pre ++ lease' :: post, l.holder = holder → l.token = presented → l.attested = false := by
    intro leases pre post lease lease' hall hleases hnew l hl
    rcases List.mem_append.mp hl with hl | hl
    · exact hall l (by rw [hleases]; exact List.mem_append_left _ hl)
    · rcases List.mem_cons.mp hl with rfl | hl
      · exact hnew
      · exact hall l (by rw [hleases]; exact List.mem_append_right _ (List.mem_cons_of_mem _ hl))
  have hmem : ∀ {leases pre post : List AuthorityLease} {lease : AuthorityLease}, leases = pre ++ lease :: post →
      lease ∈ leases := by
    intro leases pre post lease hleases
    rw [hleases]
    exact List.mem_append_right _ List.mem_cons_self
  cases h with
  | refused | reacknowledged => exact hu
  | flushed | expired => exact hflushed
  | bumped request | extended request | issued request => exact absurd rfl (hop request)
  | renewed _ _ pre post lease hleases =>
    exact hreplaced hflushed hleases fun hh ht => hflushed lease (hmem hleases) hh ht
  | fenced _ _ pre post lease _ _ _ hleases =>
    exact hreplaced hflushed hleases fun hh ht => hflushed lease (hmem hleases) hh ht
  | acknowledged =>
    intro l hl
    obtain ⟨l₀, hl₀, rfl⟩ := List.mem_map.mp hl
    split <;> exact hu l₀ hl₀
  | revoked _ pre post lease hleases => exact hreplaced hu hleases fun hh ht => hu lease (hmem hleases) hh ht
  | reattested h' t' pre post lease hleases hholder htoken =>
    refine hreplaced hflushed hleases fun hh ht => absurd rfl (hreattest ?_)
    rw [← hholder, ← htoken, show lease.holder = holder from hh, show lease.token = presented from ht]
  | advanced =>
    intro l hl
    obtain ⟨l₀, hl₀, rfl⟩ := List.mem_map.mp hl
    split <;> exact hu l₀ hl₀
  | detached =>
    intro l hl _ _
    obtain ⟨l₀, -, rfl⟩ := List.mem_map.mp hl
    rfl

/-- What no operation does to unattested leases, but the grant that extends one and its re-attestation. -/
theorem Unattested.exec (hkeyed : registry.Keyed) (hu : Unattested k holder presented registry)
    (hrevives : ¬ registry.Revives k holder presented op nowMs slotNowMs)
    (hreattest : op = .reattest k holder presented → (op.exec registry nowMs slotNowMs token).2 ≠ .done)
    (hfresh : ∀ lease, (op.exec registry nowMs slotNowMs token).2 = .issued lease → token ≠ presented) :
    Unattested k holder presented (op.exec registry nowMs slotNowMs token).1 := by
  intro a' hfind' l hl hholder htoken
  cases hfind : registry.find k with
  | none =>
    obtain ⟨epoch, -, -, -, rfl⟩ := exec_fresh hkeyed hfind hfind'
    simp at hl
  | some a =>
    obtain ⟨a'', hfind'', hcase⟩ := exec_step op nowMs slotNowMs token hkeyed hfind
    cases hfind''.symm.trans hfind'
    rcases hcase with ⟨rfl, -⟩ | ⟨hconcerns, hstep⟩
    · exact hu _ hfind l hl hholder htoken
    · by_cases hop : ∃ request, op = .grant request
      · obtain ⟨request, rfl⟩ := hop
        have hk : request.shard = k := by simpa [RegistryOp.concerns, RegistryOp.shard] using hconcerns
        subst hk
        simp only [RegistryOp.exec, AuthorityRegistry.grant, hfind, AuthorityRegistry.find_put, if_true,
          Option.some.injEq] at hfind' hfresh
        subst hfind'
        rcases ShardAuthority.grant_leases hl with hrec | ⟨l₀, hmem, hext, rfl⟩ | ⟨htok, hout⟩
        · exact unattested_of_recorded (hu a hfind) hrec hholder htoken
        · have hno := unattested_of_recorded (hu a hfind) (.of_flushed hmem) hholder htoken
          exact absurd ⟨request, a, l₀, rfl, rfl, hfind, hext, hholder, htoken, hno⟩ hrevives
        · exact absurd (htok.symm.trans htoken) (hfresh l (by rw [hout]; rfl))
      · exact hstep.unattested (hu a hfind) (fun request h => hop ⟨request, h⟩) hreattest l hl hholder htoken

/-- A claim that passes matches an attested lease. -/
theorem ShardAuthority.attested_of_validateClaim {a : ShardAuthority} {claim : AuthorityClaim}
    {required : AuthorityMode} {atMs : Nat} (h : a.validateClaim claim required atMs = .ok ()) :
    ∃ l, a.leases.find? (presentedBy claim) = some l ∧ l.attested = true := by
  unfold ShardAuthority.validateClaim at h
  split_ifs at h
  cases hl : a.leases.find? (presentedBy claim) with
  | none => simp [hl] at h
  | some l =>
    simp only [hl] at h
    split_ifs at h with _ hatt
    exact ⟨l, rfl, by simpa using hatt⟩

/-- A claim on an unattested lease is refused. -/
theorem Unattested.not_passes (hu : Unattested k holder presented registry) {claim : AuthorityClaim}
    (hshard : claim.shard = k) (hholder : claim.incarnation = holder) (htoken : claim.token = presented)
    (required : AuthorityMode) (atMs : Nat) : registry.validateClaim claim required atMs ≠ .ok () := by
  intro hok
  unfold AuthorityRegistry.validateClaim at hok
  cases hfind : registry.find claim.shard with
  | none => simp [hfind] at hok
  | some a =>
    rw [hfind] at hok
    obtain ⟨l, hl, hatt⟩ := a.attested_of_validateClaim hok
    have hp := List.find?_some hl
    simp only [presentedBy, Bool.and_eq_true, decide_eq_true_eq] at hp
    have hno := hu a (hshard ▸ hfind) l (List.mem_of_find?_eq_some hl) (hp.1.trans hholder) (hp.2.trans htoken)
    exact absurd (hatt.symm.trans hno) (by simp)

end

/-! ## Runs after a load -/

/-- An operation at two clock readings, or the load of any document. -/
inductive RestoreEvent where
  | call (op : RegistryOp) (nowMs slotNowMs : Nat)
  | load (value : Json)

namespace RegistryState

/-- The clock of `RegistryState` is not read here: the readings are free. -/
def restore (source : Nat → AuthorityToken) (s : RegistryState) : RestoreEvent → RegistryState
  | .call op nowMs slotNowMs => s.after source (.call op nowMs slotNowMs)
  | .load value => { s with registry := (s.registry.load value).1 }

/-- The event re-attests the leases of this holder and token. -/
def Reattests (source : Nat → AuthorityToken) (k : ShardId) (holder : IncarnationId) (presented : AuthorityToken)
    (s : RegistryState) : RestoreEvent → Prop
  | .call op nowMs slotNowMs =>
    op = .reattest k holder presented ∧ s.outcome source op nowMs slotNowMs = .done
  | .load _ => False

/-- The event is a grant that extends an unattested lease of this holder and token. -/
def Revives (k : ShardId) (holder : IncarnationId) (presented : AuthorityToken) (s : RegistryState) :
    RestoreEvent → Prop
  | .call op nowMs slotNowMs => s.registry.Revives k holder presented op nowMs slotNowMs
  | .load _ => False

end RegistryState

def RestoreStep (source : Nat → AuthorityToken) (s : RegistryState) (e : RestoreEvent) (s' : RegistryState) : Prop :=
  s' = s.restore source e

section
variable {source : Nat → AuthorityToken} {k : ShardId} {holder : IncarnationId} {presented : AuthorityToken}
  {s s' : RegistryState} {e : RestoreEvent}

theorem keyed_exec {registry : AuthorityRegistry} {op : RegistryOp} {nowMs slotNowMs : Nat} {token : AuthorityToken}
    (hkeyed : registry.Keyed) : (op.exec registry nowMs slotNowMs token).1.Keyed := by
  intro k a' hfind'
  cases hfind : registry.find k with
  | none =>
    obtain ⟨epoch, -, -, -, rfl⟩ := exec_fresh hkeyed hfind hfind'
    rfl
  | some a =>
    obtain ⟨a'', hfind'', hcase⟩ := exec_step op nowMs slotNowMs token hkeyed hfind
    cases hfind''.symm.trans hfind'
    rcases hcase with ⟨rfl, -⟩ | ⟨-, hstep⟩
    · exact hkeyed k _ hfind
    · rw [hstep.shard_eq, hkeyed k a hfind]

/-- What a load leaves when it succeeds; when it fails nothing changes. -/
theorem load_cases (registry : AuthorityRegistry) (value : Json) :
    (∃ decoded, registryFromJson value = .ok decoded ∧ registry.load value = (decoded, .ok ())) ∨
      ∃ refusal, registry.load value = (registry, .error refusal) := by
  unfold AuthorityRegistry.load
  cases h : registryFromJson value with
  | error refusal => exact .inr ⟨refusal, rfl⟩
  | ok decoded => exact .inl ⟨decoded, rfl, rfl⟩

theorem RestoreStep.unattested (hfresh : ∀ n, source n ≠ presented)
    (h : Guarded (fun s e => ¬ s.Revives k holder presented e ∧ ¬ s.Reattests source k holder presented e)
      (RestoreStep source) s e s')
    (hs : s.registry.Keyed ∧ Unattested k holder presented s.registry) :
    s'.registry.Keyed ∧ Unattested k holder presented s'.registry := by
  obtain ⟨⟨hrevives, hreattests⟩, rfl⟩ := h
  cases e with
  | call op nowMs slotNowMs =>
    refine ⟨keyed_exec hs.1, hs.2.exec hs.1 hrevives (fun hop hdone => hreattests ⟨hop, hdone⟩) ?_⟩
    exact fun _ _ => hfresh _
  | load value =>
    simp only [RegistryState.restore]
    rcases load_cases s.registry value with ⟨decoded, hdecoded, hl⟩ | ⟨refusal, hl⟩
    · rw [hl]
      exact ⟨keyed_of_registryFromJson hdecoded, fun a hfind l hl _ _ => detached_of_registryFromJson hdecoded hfind hl⟩
    · rw [hl]
      exact hs

end

/-- After a load, no claim on a restored lease passes while no step re-attests the lease and none is a grant
that extends it unattested. -/
theorem restored_needs_reattestation {source : Nat → AuthorityToken} {value : Json} {s₀ : RegistryState}
    (hload : registryFromJson value = .ok s₀.registry) :
    ∀ k a lease, s₀.registry.find k = some a → lease ∈ a.leases → (∀ n, source n ≠ lease.token) →
      ∀ es s, Run (Guarded (fun s e => ¬ s.Revives k lease.holder lease.token e ∧
          ¬ s.Reattests source k lease.holder lease.token e) (RestoreStep source)) s₀ es s →
        ∀ claim required nowMs, claim.shard = k → claim.incarnation = lease.holder → claim.token = lease.token →
          s.registry.validateClaim claim required nowMs ≠ .ok () := by
  intro k _ lease _ _ hfresh es s hrun claim required nowMs hshard hholder htoken
  have hstart : s₀.registry.Keyed ∧ Unattested k lease.holder lease.token s₀.registry :=
    ⟨keyed_of_registryFromJson hload, fun a hfind l hl _ _ => detached_of_registryFromJson hload hfind hl⟩
  have hend := hrun.invariant (fun s => s.registry.Keyed ∧ Unattested k lease.holder lease.token s.registry)
    (fun _ _ _ hs hstep => RestoreStep.unattested hfresh hstep hs) hstart
  exact hend.2.not_passes hshard hholder htoken required nowMs

namespace Sample

/-- The snapshot of `state`, and what a restart finds in it. -/
def snapshot : Json := state.registry.toJson

def restored : RegistryState :=
  { registry := state.registry.detach, clockMs := state.clockMs, minted := state.minted }

theorem load_snapshot : registryFromJson snapshot = .ok restored.registry := by
  have hok : (registryFromJson state.registry.toJson).isOk = true := by decide +kernel
  cases h : registryFromJson state.registry.toJson with
  | error refusal =>
    rw [h] at hok
    cases hok
  | ok decoded =>
    rw [show snapshot = state.registry.toJson from rfl, h,
      eq_of_registryFromJson (wellFormed_reachable run_state).keyed h]
    rfl

/-- The grant by which the writer asks for its own lease again. -/
def grantAgain : RestoreEvent := .call (.grant { shard := shard, holder := incarnation 1 }) 7 7

/-- A source that never mints the token of `lease`. -/
def laterTokens (n : Nat) : AuthorityToken := numbered (2 * n + 2)

theorem laterTokens_ne (n : Nat) : laterTokens n ≠ lease.detach.token := by
  intro h
  have hbyte : (2 * n + 2) / 256 ^ 0 % 256 = 1 := congrArg (fun token => (token.bytes.headD 0).val) h
  omega

def restoredAuthority : ShardAuthority := (restored.registry.find shard).get (by decide +kernel)

end Sample

open Sample in
/-- Time passing the restored lease by attests nothing. -/
theorem restored_needs_reattestation_sample :
    (restored.restore laterTokens (.call .expireDue 9 9)).registry.validateClaim lease.claim .mutating 9 ≠ .ok () := by
  refine restored_needs_reattestation load_snapshot shard restoredAuthority lease.detach (Option.some_get _).symm
    (by decide +kernel) laterTokens_ne [.call .expireDue 9 9] _ (.single ⟨⟨?_, ?_⟩, rfl⟩) lease.claim .mutating 9
    (by decide +kernel) (by decide +kernel) (by decide +kernel)
  · rintro ⟨request, a, l, h, -⟩
    cases h
  · rintro ⟨h, -⟩
    cases h

open Sample in
/-- A grant to the holder of a restored lease makes its claim pass, with no re-attestation. -/
theorem restored_lease_revived : ¬ ∀ (source : Nat → AuthorityToken) (value : Json) (s₀ : RegistryState),
    registryFromJson value = .ok s₀.registry →
    ∀ k a lease, s₀.registry.find k = some a → lease ∈ a.leases → (∀ n, source n ≠ lease.token) →
      ∀ es s, Run (Guarded (fun s e => ¬ s.Reattests source k lease.holder lease.token e) (RestoreStep source)) s₀ es s →
        ∀ claim required nowMs, claim.shard = k → claim.incarnation = lease.holder → claim.token = lease.token →
          s.registry.validateClaim claim required nowMs ≠ .ok () := by
  intro hall
  refine hall laterTokens snapshot restored load_snapshot shard restoredAuthority lease.detach (Option.some_get _).symm
    (by decide +kernel) ?_ [grantAgain] (restored.restore laterTokens grantAgain) (.single ⟨?_, rfl⟩) lease.claim .mutating
    8 (by decide +kernel) (by decide +kernel) (by decide +kernel) ?_
  · exact laterTokens_ne
  · rintro ⟨h, -⟩
    cases h
  · have hpass : ((restored.restore laterTokens grantAgain).registry.validateClaim lease.claim .mutating 8).isOk = true := by
      decide +kernel
    cases h : (restored.restore laterTokens grantAgain).registry.validateClaim lease.claim .mutating 8 with
    | ok => rfl
    | error refusal =>
      rw [h] at hpass
      cases hpass

end FabricEvolution
