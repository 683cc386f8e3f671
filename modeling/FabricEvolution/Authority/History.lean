import FabricEvolution.Authority.Stale

/-!
# The mutating leases ever issued

The registry keeps a bounded list of leases; the ledger keeps them all.

* `LedgerEntry`, `record` : one entry a mutating lease issued, its latest expiry, and whether it was
  fence-acknowledged, revoked or superseded by an epoch advance;
* `Follows` : a new mutating lease is issued only after every earlier one of its shard has ended or
  passed its latest expiry;
* `EvictsLive` : a grant drops the oldest lease of a full list while it still occupies the slot;
* `follows_unless_evicted` : without such a grant in the run, `Follows` holds of every step;
* `evicted_writer_overlaps` : with one, two leases permit mutation at once.
-/

namespace FabricEvolution
open Lib AuthorityLease

/-! ## The ledger -/

/-- A mutating lease as its history has it. -/
structure LedgerEntry where
  shard : ShardId
  leaseId : Nat
  expiresAtMs : Nat
  ended : Bool

/-- The expiry an operation gives to the lease `leaseId`, if it extends that lease. -/
def extension (op : RegistryOp) (outcome : RegistryOutcome) (nowMs leaseId : Nat) : Option Nat :=
  match op, outcome with
  | .renew _ renewed ttlMs, .done => if renewed = leaseId then some (wrapAdd nowMs ttlMs) else none
  | _, .renewed lease => if lease.id = leaseId then some lease.expiresAtMs else none
  | _, _ => none

/-- Whether an operation on the shard with authority `a` ends the lease `leaseId`: a fence of it is
acknowledged, it is revoked, or the epoch advances. -/
def ends (a : ShardAuthority) (op : RegistryOp) (outcome : RegistryOutcome) (leaseId : Nat) : Bool :=
  match op, outcome with
  | .revoke _ revoked _, .done => revoked = leaseId
  | .acknowledgeFence _ _ fenceId, .done =>
    ((a.fences.find? (·.id = fenceId)).map fun fence => decide (fence.fencedLease = leaseId)).getD false
  | .advanceEpoch _ _, .done => true
  | _, _ => false

/-- The entry after an operation on its shard. -/
def LedgerEntry.update (entry : LedgerEntry) (a : ShardAuthority) (op : RegistryOp) (outcome : RegistryOutcome)
    (nowMs : Nat) : LedgerEntry :=
  { entry with
    expiresAtMs := (extension op outcome nowMs entry.leaseId).getD entry.expiresAtMs
    ended := entry.ended || ends a op outcome entry.leaseId }

def AuthorityLease.ledgerEntry (lease : AuthorityLease) : LedgerEntry :=
  { shard := lease.shard, leaseId := lease.id, expiresAtMs := lease.expiresAtMs, ended := false }

/-- The ledger after an event in the state `s`. -/
def record (source : Nat → AuthorityToken) (s : RegistryState) (ledger : List LedgerEntry) :
    RegistryEvent → List LedgerEntry
  | .tick _ => ledger
  | .call op nowMs slotNowMs =>
    let outcome := s.outcome source op nowMs slotNowMs
    let updated := ledger.map fun entry =>
      match s.registry.find entry.shard with
      | some a => if op.concerns entry.shard then entry.update a op outcome nowMs else entry
      | none => entry
    match outcome with
    | .issued lease => if lease.mode = .mutating then updated ++ [lease.ledgerEntry] else updated
    | _ => updated

structure LedgerState where
  state : RegistryState
  ledger : List LedgerEntry

def LedgerState.start (clockMs : Nat) : LedgerState := ⟨.start clockMs, []⟩

def LedgerStep (source : Nat → AuthorityToken) (s : LedgerState) (e : RegistryEvent) (s' : LedgerState) : Prop :=
  RegistryStep source s.state e s'.state ∧ s'.ledger = record source s.state s.ledger e

def LedgerState.after (source : Nat → AuthorityToken) (s : LedgerState) (e : RegistryEvent) : LedgerState :=
  ⟨s.state.after source e, record source s.state s.ledger e⟩

theorem ledgerStep_after {source : Nat → AuthorityToken} {s : LedgerState} {e : RegistryEvent}
    (h : s.state.Admits e) : LedgerStep source s e (s.after source e) := ⟨⟨h, rfl⟩, rfl⟩

/-- If the event issues a mutating lease, every earlier one of its shard has ended or expired. -/
def Follows (source : Nat → AuthorityToken) (s : LedgerState) (e : RegistryEvent) : Prop :=
  ∀ lease, Issues source s.state e lease → lease.mode = .mutating →
    ∀ entry ∈ s.ledger, entry.shard = lease.shard →
      entry.ended = true ∨ entry.expiresAtMs ≤ (s.state.after source e).clockMs

/-- The event issues a lease into a full list whose oldest lease still occupies the mutation slot. -/
def EvictsLive (source : Nat → AuthorityToken) (s : RegistryState) : RegistryEvent → Bool
  | .tick _ => false
  | .call op nowMs slotNowMs =>
    match s.outcome source op nowMs slotNowMs with
    | .issued lease =>
      match s.registry.find lease.shard with
      | some a =>
        maxLeaseHistoryPerShard ≤ a.leases.length && a.leases.head?.any (·.blocksMutationSlot slotNowMs)
      | none => false
    | _ => false

/-! ## What a step does to expiry and end -/

section
variable {k : ShardId} {nowMs slotNowMs : Nat} {token : AuthorityToken} {a a' : ShardAuthority} {op : RegistryOp}
  {outcome : RegistryOutcome} {l l' : AuthorityLease}

/-- A lease keeps its expiry unless it is the one extended. -/
theorem LeaseStep.expiry (h : LeaseStep k a op outcome nowMs l l') :
    l'.expiresAtMs = l.expiresAtMs ∨ extension op outcome nowMs l.id = some l'.expiresAtMs := by
  cases h with
  | extended expiresAtMs attestationSeq attested reason hop =>
    rcases hop with ⟨request, rfl, rfl⟩ | ⟨ttlMs, rfl, rfl, rfl⟩
    · exact .inr (by simp [extension])
    · exact .inr (by simp [extension])
  | _ => exact .inl rfl

/-- The extended lease is in the list, active, with the new expiry. -/
theorem ShardStep.extension_mem (h : ShardStep k nowMs slotNowMs token a op outcome a') {leaseId expiresAtMs : Nat}
    (hids : (a.leases.map (·.id)).Nodup) (hext : extension op outcome nowMs leaseId = some expiresAtMs) :
    ∃ l' ∈ a'.leases, l'.id = leaseId ∧ l'.expiresAtMs = expiresAtMs ∧ l'.state = .active := by
  cases h with
  | extended request pre post lease incumbent _ hl hmem hid _ _ hactive =>
    have hids' : ((a.expireInPlace nowMs).leases.map (·.id)).Nodup := by
      rw [ShardAuthority.expireInPlace_ids]
      exact hids
    have hlease := incumbent_eq hids' hl hmem hid
    have hstate : lease.state = .active := (effectiveState_eq_active.mp (hlease ▸ hactive)).1
    simp only [extension] at hext
    split_ifs at hext with hc
    simp only [Option.some.injEq] at hext
    exact ⟨_, List.mem_append_right _ List.mem_cons_self, hc, hext, hstate⟩
  | renewed renewedId ttlMs pre post lease hl hid hactive =>
    simp only [extension] at hext
    split_ifs at hext with hc
    simp only [Option.some.injEq] at hext
    exact ⟨_, List.mem_append_right _ List.mem_cons_self, hid.trans hc, hext, hactive⟩
  | _ => simp [extension] at hext

/-- A lease that stops being live was ended by the operation or had expired. -/
theorem LeaseStep.live_or_ended (h : LeaseStep k a op outcome nowMs l l')
    (hs : l.state = .active ∨ l.state = .fencing) (hlive : nowMs < l.expiresAtMs) :
    (l'.state = .active ∨ l'.state = .fencing) ∨ ends a op outcome l.id = true := by
  cases h with
  | kept => exact .inl hs
  | expired _ hdue => omega
  | extended _ _ _ _ _ hactive => exact .inl (.inl hactive)
  | fenced => exact .inl (.inr rfl)
  | acknowledged holder fence hop hout hfind hfenced =>
    subst hop; subst hout
    exact .inr (by simp [ends, hfind, hfenced])
  | revoked reason hop hout =>
    subst hop; subst hout
    exact .inr (by simp [ends])
  | reattested _ hactive => exact .inl (.inl hactive)
  | advanced epoch hop hout =>
    subst hop; subst hout
    exact .inr rfl
  | detached => exact .inl hs

end

/-! ## The invariant -/

/-- An entry and the lease list of its shard: the lease, while listed, has the entry's expiry; it is
listed and live unless the entry is over. -/
structure Synced (clockMs : Nat) (a : ShardAuthority) (entry : LedgerEntry) : Prop where
  below : entry.leaseId < a.nextLeaseId
  listed : ∀ l ∈ a.leases, l.id = entry.leaseId → l.expiresAtMs = entry.expiresAtMs ∧ l.mode = .mutating
  live : entry.ended = true ∨ entry.expiresAtMs ≤ clockMs ∨
    ∃ l ∈ a.leases, l.id = entry.leaseId ∧ (l.state = .active ∨ l.state = .fencing)

theorem Synced.later {clockMs clockMs' : Nat} {a : ShardAuthority} {entry : LedgerEntry}
    (h : Synced clockMs a entry) (hle : clockMs ≤ clockMs') : Synced clockMs' a entry :=
  ⟨h.below, h.listed, h.live.imp_right (Or.imp_left fun hd => hd.trans hle)⟩

section
variable {k : ShardId} {clockMs nowMs slotNowMs : Nat} {token : AuthorityToken} {a a' : ShardAuthority}
  {op : RegistryOp} {outcome : RegistryOutcome} {entry : LedgerEntry}

/-- One step keeps an entry synced, when it does not drop its lease while live. -/
theorem Synced.step (hids : a.IdsAscend) (hle : clockMs ≤ nowMs) (hle' : nowMs ≤ slotNowMs)
    (hs : Synced clockMs a entry) (h : ShardStep k nowMs slotNowMs token a op outcome a')
    (hkeep : ∀ lease, outcome = .issued lease → maxLeaseHistoryPerShard ≤ a.leases.length →
      ∀ oldest, a.leases.head? = some oldest → oldest.blocksMutationSlot slotNowMs = false) :
    Synced slotNowMs a' (entry.update a op outcome nowMs) := by
  have hids' := h.idsAscend hids
  refine ⟨hs.below.trans_le h.nextLeaseId_le, ?_, ?_⟩
  · intro l' hl' hid
    have hid' : l'.id = entry.leaseId := hid
    rcases h.backward hids.nodup hl' with ⟨l, hl, hls⟩ | hout
    · obtain ⟨hexp, hmode⟩ := hs.listed l hl (hls.id_eq.symm.trans hid')
      refine ⟨?_, hls.mode_eq.trans hmode⟩
      change l'.expiresAtMs = (extension op outcome nowMs entry.leaseId).getD entry.expiresAtMs
      cases hext : extension op outcome nowMs entry.leaseId with
      | some expiresAtMs =>
        obtain ⟨m, hm, hmid, hmexp, -⟩ := h.extension_mem hids.nodup hext
        rw [hids'.eq_of_id hl' hm (hid'.trans hmid.symm)]
        exact hmexp
      | none =>
        rcases hls.expiry with he | he
        · exact he.trans hexp
        · rw [← hls.id_eq, hid', hext] at he
          exact absurd he (by simp)
    · -- A new lease has an id no entry has.
      exfalso
      subst hout
      have hnew : l'.id = a.nextLeaseId := by cases h with | issued => rfl
      have := hs.below
      omega
  · change (entry.ended || ends a op outcome entry.leaseId) = true ∨
      (extension op outcome nowMs entry.leaseId).getD entry.expiresAtMs ≤ slotNowMs ∨ _
    cases hext : extension op outcome nowMs entry.leaseId with
    | some expiresAtMs =>
      obtain ⟨m, hm, hmid, -, hmact⟩ := h.extension_mem hids.nodup hext
      exact .inr (.inr ⟨m, hm, hmid, .inl hmact⟩)
    | none =>
      rcases hs.live with hend | hdue | ⟨l, hl, hlid, hlive⟩
      · exact .inl (by rw [hend]; rfl)
      · exact .inr (.inl (by simp only [Option.getD_none]; omega))
      · obtain ⟨hexp, hmode⟩ := hs.listed l hl hlid
        by_cases hdue : entry.expiresAtMs ≤ slotNowMs
        · exact .inr (.inl hdue)
        · rcases h.forward hids.nodup hl with ⟨l', hl', hls⟩ | ⟨⟨lease, hout⟩, hfull, hhead⟩
          · rcases hls.live_or_ended hlive (by omega) with hlive' | hend
            · exact .inr (.inr ⟨l', hl', hls.id_eq.trans hlid, hlive'⟩)
            · rw [hlid] at hend
              exact .inl (by rw [hend, Bool.or_true])
          · have hno := hkeep lease hout hfull l hhead
            have hb : l.blocksMutationSlot slotNowMs = true :=
              blocksMutationSlot_iff_stored.mpr ⟨hmode, hlive, by omega⟩
            exact absurd (hb.symm.trans hno) (by simp)

end

/-- Every entry of the ledger is synced with its shard. -/
structure LedgerState.Synced (s : LedgerState) : Prop where
  wellFormed : s.state.WellFormed
  entries : ∀ entry ∈ s.ledger, ∃ a, s.state.registry.find entry.shard = some a ∧
    FabricEvolution.Synced s.state.clockMs a entry

section
variable {source : Nat → AuthorityToken} {s s' : LedgerState} {e : RegistryEvent}

theorem mem_record {ledger : List LedgerEntry} {state : RegistryState} {op : RegistryOp} {nowMs slotNowMs : Nat}
    {entry' : LedgerEntry} (h : entry' ∈ record source state ledger (.call op nowMs slotNowMs)) :
    (∃ entry ∈ ledger, entry' = match state.registry.find entry.shard with
        | some a =>
          if op.concerns entry.shard then entry.update a op (state.outcome source op nowMs slotNowMs) nowMs else entry
        | none => entry) ∨
      ∃ lease, state.outcome source op nowMs slotNowMs = .issued lease ∧ lease.mode = .mutating ∧
        entry' = lease.ledgerEntry := by
  unfold record at h
  dsimp only at h
  cases hout : state.outcome source op nowMs slotNowMs with
  | issued lease =>
    simp only [hout] at h
    split_ifs at h with hmode
    · rcases List.mem_append.mp h with h | h
      · obtain ⟨entry, hmem, rfl⟩ := List.mem_map.mp h
        exact .inl ⟨entry, hmem, rfl⟩
      · exact .inr ⟨lease, rfl, hmode, List.mem_singleton.mp h⟩
    · obtain ⟨entry, hmem, rfl⟩ := List.mem_map.mp h
      exact .inl ⟨entry, hmem, rfl⟩
  | _ =>
    simp only [hout] at h
    obtain ⟨entry, hmem, rfl⟩ := List.mem_map.mp h
    exact .inl ⟨entry, hmem, rfl⟩

/-- A lease just issued is listed, live and synced with its entry. -/
theorem synced_issued {k : ShardId} {nowMs slotNowMs : Nat} {token : AuthorityToken} {a a' : ShardAuthority}
    {op : RegistryOp} {lease : AuthorityLease} (hids : a.IdsAscend) (hmode : lease.mode = .mutating)
    (h : ShardStep k nowMs slotNowMs token a op (.issued lease) a') : Synced slotNowMs a' lease.ledgerEntry := by
  have hids' := h.idsAscend hids
  have hmem : lease ∈ a'.leases := by
    cases h with
    | issued => exact mem_pushBounded_self (by decide) _ _
  refine ⟨hids'.below lease hmem, fun l hl hid => ?_, .inr (.inr ⟨lease, hmem, rfl, ?_⟩)⟩
  · rw [hids'.eq_of_id hl hmem hid]
    exact ⟨rfl, hmode⟩
  · cases h with
    | issued => exact .inl rfl

theorem LedgerState.Synced.step (hs : s.Synced) (hkeep : EvictsLive source s.state e = false) (h : LedgerStep source s e s') :
    s'.Synced := by
  obtain ⟨hstep, hledger⟩ := h
  refine ⟨wellFormed_step hs.wellFormed hstep, fun entry' hentry => ?_⟩
  rw [hledger] at hentry
  have hclock := hstep.clock_le
  cases e with
  | tick nowMs =>
    obtain ⟨a, hfind, hsync⟩ := hs.entries entry' hentry
    obtain ⟨hadm, heq⟩ := hstep
    exact ⟨a, by rw [heq]; exact hfind, hsync.later hclock⟩
  | call op nowMs slotNowMs =>
    obtain ⟨hadm, heq⟩ := hstep
    have hadm' : s.state.clockMs ≤ nowMs ∧ nowMs ≤ slotNowMs := hadm
    have hclock' : s'.state.clockMs = slotNowMs := by rw [heq]; rfl
    rcases mem_record hentry with ⟨entry, hmem, rfl⟩ | ⟨lease, hout, hmode, rfl⟩
    · obtain ⟨a, hfind, hsync⟩ := hs.entries entry hmem
      obtain ⟨a', hfind', hcase⟩ := exec_step op nowMs slotNowMs (source s.state.minted)
        hs.wellFormed.keyed hfind
      have hfind'' : s'.state.registry.find entry.shard = some a' := by rw [heq]; exact hfind'
      simp only [hfind]
      rw [hclock']
      rcases hcase with ⟨rfl, hno⟩ | ⟨hyes, hss⟩
      · rw [if_neg (by simp [hno])]
        exact ⟨_, hfind'', hsync.later (by omega)⟩
      · have hkeep' : ∀ lease, s.state.outcome source op nowMs slotNowMs = .issued lease →
            maxLeaseHistoryPerShard ≤ a.leases.length → ∀ oldest, a.leases.head? = some oldest →
            oldest.blocksMutationSlot slotNowMs = false := by
          intro lease hout hfull oldest hhead
          by_contra hb
          have hss' : ShardStep entry.shard nowMs slotNowMs (source s.state.minted) a op (.issued lease) a' :=
            hout ▸ hss
          have hshard : lease.shard = entry.shard := by
            cases hss' with
            | issued request _ hshard => exact hshard
          simp [EvictsLive, hout, hshard, hfind, hfull, hhead, hb] at hkeep
        rw [if_pos hyes]
        exact ⟨a', hfind'', hsync.step (hs.wellFormed.ids _ a hfind) hadm'.1 hadm'.2 hss hkeep'⟩
    · obtain ⟨a, a', op', nowMs', slotNowMs', hfind, hfind', hop, hss⟩ :=
        Issues.shardStep hs.wellFormed ⟨op, nowMs, slotNowMs, rfl, hout⟩ ⟨hadm, heq⟩
      cases hop
      rw [hclock']
      exact ⟨a', hfind', synced_issued (hs.wellFormed.ids _ a hfind) hmode hss⟩

theorem LedgerState.synced_start (clockMs : Nat) : (LedgerState.start clockMs).Synced :=
  ⟨wellFormed_start clockMs, fun entry h => by simp [LedgerState.start] at h⟩

/-- In every run in which no grant drops a mutating lease that still occupies the slot, a new mutating
lease is issued only after every earlier one of its shard has ended or passed its latest expiry. -/
theorem follows_unless_evicted {clockMs : Nat} {es : List RegistryEvent}
    (h : Run (Guarded (fun s e => EvictsLive source s.state e = false) (LedgerStep source)) (.start clockMs) es s)
    (hadm : s.state.Admits e) : Follows source s e := by
  have hs : s.Synced := Run.invariant LedgerState.Synced
    (fun _ _ _ hs hg => hs.step hg.1 hg.2) h (LedgerState.synced_start clockMs)
  intro lease hissue hmode entry hentry hshard
  obtain ⟨a, hfind, hsync⟩ := hs.entries entry hentry
  obtain ⟨b, b', op, nowMs, slotNowMs, hfindb, -, rfl, hss⟩ := hissue.shardStep hs.wellFormed ⟨hadm, rfl⟩
  rw [hshard] at hfind
  cases hfind.symm.trans hfindb
  have hadm' : s.state.clockMs ≤ nowMs ∧ nowMs ≤ slotNowMs := hadm
  change entry.ended = true ∨ entry.expiresAtMs ≤ slotNowMs
  rcases hsync.live with hend | hdue | ⟨l, hl, hid, hlive⟩
  · exact .inl hend
  · exact .inr (by omega)
  · -- The slot was found free, so the listed lease has expired.
    obtain ⟨hexp, hlmode⟩ := hsync.listed l hl hid
    by_contra hc
    obtain ⟨-, hlate⟩ := not_or.mp hc
    cases hss with
    | issued request generation _ hreach _ _ =>
      have hkept : l.expireAt nowMs = l := by
        unfold AuthorityLease.expireAt
        exact if_neg fun hd => by omega
      have hmem : l ∈ (a.expireInPlace nowMs).leases := by
        rw [← hkept]
        exact List.mem_map_of_mem hl
      have hb : l.blocksMutationSlot slotNowMs = true :=
        blocksMutationSlot_iff_stored.mpr ⟨hlmode, hlive, by omega⟩
      exact List.find?_eq_none.mp (ShardAuthority.slot_free_of_reachesIssue hreach hmode) l hmem hb

end

/-- A second writer after the first one's lease was revoked. -/
theorem follows_unless_evicted_sample :
    Follows Sample.tokens (((LedgerState.start 0).after Sample.tokens (.call (.establish Sample.shard 1) 0 0)).after
        Sample.tokens (.call (.grant { shard := Sample.shard, holder := Sample.incarnation 1 }) 5 6)
        |>.after Sample.tokens (.call (.revoke Sample.shard 1 "") 7 7))
      (.call (.grant { shard := Sample.shard, holder := Sample.incarnation 2 }) 8 8) := by
  refine @follows_unless_evicted _ _ _ 0 _ (.cons ⟨?_, ledgerStep_after ?_⟩
    (.cons ⟨?_, ledgerStep_after ?_⟩ (.cons ⟨?_, ledgerStep_after ?_⟩ (.nil _)))) ?_ <;> decide

/-! ## The oldest lease of a full list -/

namespace Sample

/-- A reader that takes a lease for one millisecond. -/
def readRequest : GrantRequest :=
  { shard := shard, holder := incarnation 2, mode := .readOnlyShared, ttlMs := 1 }

/-- A writer that takes the longest lease there is. -/
def writeRequest (boot : Nat) : GrantRequest :=
  { shard := shard, holder := incarnation boot, ttlMs := maxLeaseTtlMs }

def writerEntry : LedgerEntry := { shard := shard, leaseId := 1, expiresAtMs := maxLeaseTtlMs, ended := false }

/-- The writer's lease is the oldest of `n + 1`; the others are readers' leases, all over by `t + 1`. -/
structure Churned (n t : Nat) (a : ShardAuthority) : Prop where
  writer : ∃ w rest, a.leases = w :: rest ∧ rest.length = n ∧ w.mode = .mutating ∧ w.state = .active ∧
    w.expiresAtMs = maxLeaseTtlMs ∧ ∀ l ∈ rest, l.mode = .readOnlyShared ∧ l.expiresAtMs ≤ t + 1
  next : a.nextLeaseId = n + 2

/-- The reader's next lease is a new one, pushed behind the others. -/
theorem grant_readRequest {a : ShardAuthority} {t : Nat} (token : AuthorityToken)
    (hover : ∀ l ∈ a.leases, l.mode = .mutating ∨ l.expiresAtMs ≤ t + 1) (hnext : a.nextLeaseId < maxU64) :
    a.grant readRequest (t + 1) (t + 1) token =
      ({ a.expireInPlace (t + 1) with
          nextLeaseId := a.nextLeaseId + 1
          leases := pushBounded maxLeaseHistoryPerShard (a.expireInPlace (t + 1)).leases
            ((a.expireInPlace (t + 1)).mint readRequest (t + 1) token) },
        .issued ((a.expireInPlace (t + 1)).mint readRequest (t + 1) token)) := by
  have hno : ∀ l ∈ (a.expireInPlace (t + 1)).leases, l.mode = .readOnlyShared → l.effectiveState (t + 1) ≠ .active := by
    intro l hl hmode hact
    obtain ⟨l₀, hl₀, rfl⟩ := List.mem_map.mp hl
    obtain ⟨hs, hlive⟩ := effectiveState_eq_active.mp hact
    obtain ⟨he, -, hlive'⟩ := expireAt_eq_of_live hs
    rcases hover l₀ hl₀ with hm | hdue
    · rw [he, hm] at hmode
      exact absurd hmode (by decide)
    · omega
  have hheld : (a.expireInPlace (t + 1)).leases.find? (readRequest.heldBy (t + 1)) = none := by
    refine List.find?_eq_none.mpr fun l hl hc => ?_
    simp only [GrantRequest.heldBy, Bool.and_eq_true, decide_eq_true_eq] at hc
    exact hno l hl hc.1.2 hc.2
  have hcount : (a.expireInPlace (t + 1)).activeReadOnly (t + 1) = 0 := by
    refine List.countP_eq_zero.mpr fun l hl hc => ?_
    simp only [Bool.and_eq_true, decide_eq_true_eq] at hc
    exact hno l hl hc.1 hc.2
  have hid : nextId (a.expireInPlace (t + 1)).nextLeaseId = some (a.nextLeaseId + 1) :=
    if_neg (Nat.ne_of_lt hnext)
  have hcond : ¬ (readRequest.mode = .readOnlyShared ∧
      (a.expireInPlace (t + 1)).activeReadOnly (t + 1) ≥ maxReadOnlyLeasesPerShard) := by
    rw [hcount]
    decide
  unfold ShardAuthority.grant
  rw [if_neg (by decide), if_neg (by decide), if_neg (by decide)]
  dsimp only
  rw [if_neg (by decide), hheld]
  dsimp only
  rw [if_neg hcond]
  unfold ShardAuthority.issue ShardAuthority.nextGeneration
  rw [if_pos (by decide)]
  dsimp only
  rw [hid]

theorem Churned.over {n t : Nat} {a : ShardAuthority} (h : Churned n t a) :
    ∀ l ∈ a.leases, l.mode = .mutating ∨ l.expiresAtMs ≤ t + 1 := by
  obtain ⟨w, rest, hl, -, hw, -, -, hrest⟩ := h.writer
  intro l hmem
  rw [hl] at hmem
  rcases List.mem_cons.mp hmem with rfl | hmem
  · exact .inl hw
  · exact .inr (hrest l hmem).2

/-- The leases behind the writer's after the flush and the new one. -/
theorem readers_after {t : Nat} {rest : List AuthorityLease} {b : ShardAuthority} {token : AuthorityToken}
    (hrest : ∀ l ∈ rest, l.mode = .readOnlyShared ∧ l.expiresAtMs ≤ t + 1) :
    ∀ l ∈ rest.map (·.expireAt (t + 1)) ++ [b.mint readRequest (t + 1) token],
      l.mode = .readOnlyShared ∧ l.expiresAtMs ≤ t + 1 + 1 := by
  intro l hl
  rcases List.mem_append.mp hl with hl | hl
  · obtain ⟨l₀, hl₀, rfl⟩ := List.mem_map.mp hl
    obtain ⟨hm, hd⟩ := hrest l₀ hl₀
    unfold AuthorityLease.expireAt
    split_ifs
    · exact ⟨hm, by dsimp only; omega⟩
    · exact ⟨hm, by omega⟩
  · rw [List.mem_singleton.mp hl]
    refine ⟨rfl, ?_⟩
    change (t + 1 + 1) % 2 ^ 64 ≤ t + 1 + 1
    exact Nat.mod_le _ _

/-- One more reader. -/
theorem Churned.grant {n t : Nat} {a : ShardAuthority} {token : AuthorityToken} (h : Churned n t a)
    (hn : n < 255) (hlive : t + 1 < maxLeaseTtlMs) :
    Churned (n + 1) (t + 1) (a.grant readRequest (t + 1) (t + 1) token).1 := by
  have hnext := h.next
  rw [grant_readRequest _ h.over (by rw [hnext]; unfold maxU64; omega)]
  obtain ⟨w, rest, hl, hlen, hw, hact, hexp, hrest⟩ := h.writer
  have hw' : w.expireAt (t + 1) = w := if_neg fun hd => by omega
  have hflush : (a.expireInPlace (t + 1)).leases = w :: rest.map (·.expireAt (t + 1)) := by
    change a.leases.map _ = _
    rw [hl, List.map_cons, hw']
  refine ⟨⟨w, rest.map (·.expireAt (t + 1)) ++ [(a.expireInPlace (t + 1)).mint readRequest (t + 1) token],
    ?_, ?_, hw, hact, hexp, readers_after hrest⟩, by dsimp only; omega⟩
  · dsimp only
    rw [hflush, pushBounded, if_neg]
    · rfl
    · simp only [List.length_append, List.length_cons, List.length_map, List.length_nil, hlen,
        maxLeaseHistoryPerShard]
      omega
  · simp only [List.length_append, List.length_map, List.length_cons, List.length_nil, hlen]

/-- The reader that pushes the writer out. -/
theorem Churned.evict {t : Nat} {a : ShardAuthority} (token : AuthorityToken) (h : Churned 255 t a)
    (hlive : t + 1 < maxLeaseTtlMs) :
    (∀ l ∈ (a.grant readRequest (t + 1) (t + 1) token).1.leases, l.mode = .readOnlyShared) ∧
      (a.grant readRequest (t + 1) (t + 1) token).1.nextLeaseId = 258 ∧
      (a.grant readRequest (t + 1) (t + 1) token).1.generation = a.generation := by
  have hnext := h.next
  rw [grant_readRequest _ h.over (by rw [hnext]; decide)]
  obtain ⟨w, rest, hl, hlen, hw, hact, hexp, hrest⟩ := h.writer
  have hw' : w.expireAt (t + 1) = w := if_neg fun hd => by omega
  have hflush : (a.expireInPlace (t + 1)).leases = w :: rest.map (·.expireAt (t + 1)) := by
    change a.leases.map _ = _
    rw [hl, List.map_cons, hw']
  refine ⟨fun l hmem => ?_, by dsimp only; omega, rfl⟩
  dsimp only at hmem
  rw [hflush, pushBounded, if_pos] at hmem
  · exact (readers_after hrest l hmem).1
  · simp only [List.length_append, List.length_cons, List.length_map, List.length_nil, hlen,
      maxLeaseHistoryPerShard]
    omega

/-- With nothing but readers' leases listed, a writer gets a new lease. -/
theorem grant_writeRequest {a : ShardAuthority} (boot t : Nat) (token : AuthorityToken)
    (hvalid : (incarnation boot).isValid = true) (hread : ∀ l ∈ a.leases, l.mode = .readOnlyShared)
    (hgen : a.generation < maxU64) (hnext : a.nextLeaseId < maxU64) :
    ∃ lease, (a.grant (writeRequest boot) t t token).2 = .issued lease ∧ lease.mode = .mutating ∧
      lease.shard = shard := by
  have hfree : (a.expireInPlace t).activeMutating t = none := by
    refine List.find?_eq_none.mpr fun l hl hb => ?_
    obtain ⟨l₀, hl₀, rfl⟩ := List.mem_map.mp hl
    have hm : (l₀.expireAt t).mode = l₀.mode := by
      unfold AuthorityLease.expireAt
      split_ifs <;> rfl
    have := (blocksMutationSlot_iff.mp hb).1
    rw [hm, hread l₀ hl₀] at this
    exact absurd this (by decide)
  have hg : nextId (a.expireInPlace t).generation = some (a.generation + 1) := if_neg (Nat.ne_of_lt hgen)
  have hi : nextId (a.expireInPlace t).nextLeaseId = some (a.nextLeaseId + 1) := if_neg (Nat.ne_of_lt hnext)
  unfold ShardAuthority.grant
  have hpos : ¬ (writeRequest boot).ttlMs = 0 := (by decide : ¬ maxLeaseTtlMs = 0)
  have hmax : ¬ (writeRequest boot).ttlMs > maxLeaseTtlMs := Nat.lt_irrefl maxLeaseTtlMs
  rw [if_neg (by simpa [writeRequest] using hvalid), if_neg hpos, if_neg hmax]
  dsimp only
  rw [if_pos (show (writeRequest boot).mode = .mutating from rfl), hfree]
  dsimp only
  unfold ShardAuthority.issue ShardAuthority.nextGeneration
  rw [if_neg (by simp [writeRequest]), hg]
  dsimp only
  rw [hi]
  exact ⟨_, rfl, rfl, rfl⟩

/-- The writer takes its lease at time 0, then the reader comes `n` times. -/
def churn (n : Nat) : List RegistryEvent :=
  [.call (.establish shard 1) 0 0, .call (.grant (writeRequest 1)) 0 0] ++
    (List.range n).map fun i => .call (.grant readRequest) (i + 1) (i + 1)

theorem churn_succ (n : Nat) : churn (n + 1) = churn n ++ [.call (.grant readRequest) (n + 1) (n + 1)] := by
  simp [churn, List.range_succ]

/-- What a reader's grant does to the state and the ledger of a shard full of readers. -/
theorem after_read {s : LedgerState} {a : ShardAuthority} {n : Nat} (hfind : s.state.registry.find shard = some a)
    (hover : ∀ l ∈ a.leases, l.mode = .mutating ∨ l.expiresAtMs ≤ n + 1) (hnext : a.nextLeaseId < maxU64)
    (hledger : s.ledger = [writerEntry]) (hclock : s.state.clockMs = n) :
    ∃ s', LedgerStep tokens s (.call (.grant readRequest) (n + 1) (n + 1)) s' ∧ s'.state.clockMs = n + 1 ∧
      s'.ledger = [writerEntry] ∧
      s'.state.registry.find shard = some (a.grant readRequest (n + 1) (n + 1) (tokens s.state.minted)).1 := by
  have hgrant := grant_readRequest (tokens s.state.minted) hover hnext
  have hreg : s.state.registry.grant readRequest (n + 1) (n + 1) (tokens s.state.minted) =
      (s.state.registry.put shard (a.grant readRequest (n + 1) (n + 1) (tokens s.state.minted)).1,
        (a.grant readRequest (n + 1) (n + 1) (tokens s.state.minted)).2) := by
    unfold AuthorityRegistry.grant
    rw [show s.state.registry.find readRequest.shard = some a from hfind]
    rfl
  refine ⟨⟨s.state.after tokens (.call (.grant readRequest) (n + 1) (n + 1)), [writerEntry]⟩,
    ⟨⟨⟨by omega, Nat.le_refl _⟩, rfl⟩, ?_⟩, rfl, rfl, ?_⟩
  · simp only [record, RegistryState.outcome, RegistryOp.exec, hreg, hgrant, RegistryOutcome.ofGrant, hledger]
    have hf : s.state.registry.find writerEntry.shard = some a := hfind
    simp [ShardAuthority.mint, readRequest, hf, LedgerEntry.update, extension, ends]
  · change (s.state.registry.grant readRequest (n + 1) (n + 1) (tokens s.state.minted)).1.find shard = _
    rw [hreg, AuthorityRegistry.find_put, if_pos rfl]

/-- The run that fills the list behind the writer. -/
theorem churn_run (n : Nat) (hn : n ≤ 255) : ∃ s : LedgerState, Run (LedgerStep tokens) (.start 0) (churn n) s ∧
    s.state.clockMs = n ∧ s.ledger = [writerEntry] ∧
    ∃ a, s.state.registry.find shard = some a ∧ Churned n n a ∧ a.generation = 2 := by
  induction n with
  | zero =>
    have h₁ : LedgerStep tokens (.start 0) (.call (.establish shard 1) 0 0) _ := ledgerStep_after (by decide)
    have h₂ : LedgerStep tokens ((LedgerState.start 0).after tokens (.call (.establish shard 1) 0 0))
        (.call (.grant (writeRequest 1)) 0 0) _ := ledgerStep_after (by decide)
    refine ⟨_, .cons h₁ (.single h₂), rfl, rfl, ?_⟩
    exact ⟨_, rfl, ⟨⟨_, [], rfl, rfl, rfl, rfl, by decide, by simp⟩, rfl⟩, rfl⟩
  | succ n ih =>
    obtain ⟨s, hrun, hclock, hledger, a, hfind, hch, hgen⟩ := ih (by omega)
    have hnext := hch.next
    obtain ⟨s', hstep, hclock', hledger', hfind'⟩ :=
      after_read hfind hch.over (by rw [hnext]; unfold maxU64; omega) hledger hclock
    refine ⟨s', by rw [churn_succ]; exact hrun.snoc hstep, hclock', hledger', _, hfind', ?_, ?_⟩
    · exact hch.grant (by omega) (by unfold maxLeaseTtlMs; omega)
    · rw [grant_readRequest _ hch.over (by rw [hnext]; unfold maxU64; omega)]
      exact hgen

end Sample

open Sample in
/-- A writer whose lease runs for a day is pushed out of the list by 256 readers, and a second writer is
let in beside it. -/
theorem evicted_writer_overlaps : ¬ ∀ (source : Nat → AuthorityToken) (clockMs : Nat) (es : List RegistryEvent)
    (s s' : LedgerState) (e : RegistryEvent), Run (LedgerStep source) (.start clockMs) es s →
      LedgerStep source s e s' → Follows source s e := by
  intro hall
  obtain ⟨s, hrun, hclock, hledger, a, hfind, hch, hgen⟩ := churn_run 255 (by decide)
  have hnext := hch.next
  obtain ⟨s', hstep, hclock', hledger', hfind'⟩ :=
    after_read hfind hch.over (by rw [hnext]; decide) hledger hclock
  obtain ⟨hread, hnext', hgen'⟩ := hch.evict (tokens s.state.minted) (by decide)
  obtain ⟨lease, hissued, hmode, hshard⟩ := grant_writeRequest 3 257 (tokens s'.state.minted)
    (by decide) hread (by rw [hgen', hgen]; decide) (by rw [hnext']; decide)
  have hout : s'.state.outcome tokens (.grant (writeRequest 3)) 257 257 = .issued lease := by
    simp only [RegistryState.outcome, RegistryOp.exec, AuthorityRegistry.grant]
    rw [show s'.state.registry.find (writeRequest 3).shard = _ from hfind']
    dsimp only
    rw [hissued]
    rfl
  have hadm : s'.state.Admits (.call (.grant (writeRequest 3)) 257 257) := ⟨by omega, Nat.le_refl _⟩
  have hfollows := hall tokens 0 _ s' _ _ (hrun.snoc hstep) (ledgerStep_after hadm)
  rcases hfollows lease ⟨_, _, _, rfl, hout⟩ hmode writerEntry (by rw [hledger']; exact List.mem_singleton_self _)
    hshard.symm with hend | hdue
  · exact absurd hend (by decide)
  · exact absurd hdue (show ¬ maxLeaseTtlMs ≤ 257 by decide)

end FabricEvolution
