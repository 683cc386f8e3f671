import FabricEvolution.Authority.Incumbent
import FabricEvolution.Authority.Restored
import FabricEvolution.System.Deeds

/-!
# The latest lease of an incarnation

* `latestOf` : the last mutating lease that was granted to an incarnation on a shard;
* `AuthorityRegistry.Latest` : an active lease is the latest of its holder;
* `AuthorityRegistry.Latest.exec` : every operation on the registry keeps that, its grant recorded;
* `Leased` : so does every effect of the controller.
-/

namespace FabricEvolution
open Lib Control

/-! ## Registries between operations -/

namespace AuthorityRegistry
variable {registry : AuthorityRegistry} {op : RegistryOp} {nowMs slotNowMs : Nat} {token : AuthorityToken}
  {k : ShardId} {a a' : ShardAuthority}

/-- Shards are filed under their ids, lease ids ascend. -/
def WellFormed (registry : AuthorityRegistry) : Prop :=
  RegistryState.WellFormed { registry, clockMs := 0, minted := 0 }

theorem wellFormed_empty : empty.WellFormed := ⟨fun _ _ h => by simp at h, fun _ _ h => by simp at h⟩

/-- What an operation leaves on a shard. -/
theorem WellFormed.exec_cases (h : registry.WellFormed)
    (hfind : (op.exec registry nowMs slotNowMs token).1.find k = some a') :
    (∃ epoch, a' = { shard := k, epoch := epoch, generation := 1 }) ∨ ∃ a, registry.find k = some a ∧
      (a' = a ∧ op.concerns k = false ∨ op.concerns k = true ∧
        ShardStep k nowMs slotNowMs token a op (op.exec registry nowMs slotNowMs token).2 a') := by
  cases hk : registry.find k with
  | none =>
    obtain ⟨epoch, -, -, -, rfl⟩ := exec_fresh h.keyed hk hfind
    exact .inl ⟨epoch, rfl⟩
  | some a =>
    obtain ⟨a'', hfind', hstep⟩ := exec_step op nowMs slotNowMs token h.keyed hk
    cases hfind'.symm.trans hfind
    exact .inr ⟨a, rfl, hstep⟩

theorem WellFormed.exec (h : registry.WellFormed) : (op.exec registry nowMs slotNowMs token).1.WellFormed := by
  refine ⟨keyed_exec h.keyed, fun k a' hfind => ?_⟩
  rcases h.exec_cases hfind with ⟨epoch, rfl⟩ | ⟨a, ha, ⟨rfl, -⟩ | ⟨-, hstep⟩⟩
  · exact ⟨List.Pairwise.nil, by simp⟩
  · exact h.ids k _ ha
  · exact hstep.idsAscend (h.ids k a ha)

theorem WellFormed.detach (h : registry.WellFormed) : registry.detach.WellFormed := by
  refine ⟨fun k a hfind => ?_, fun k a hfind => ?_⟩
  · obtain ⟨a₀, ha, rfl⟩ := Option.map_eq_some_iff.mp (find_detach.symm.trans hfind)
    exact h.keyed k a₀ ha
  · obtain ⟨a₀, ha, rfl⟩ := Option.map_eq_some_iff.mp (find_detach.symm.trans hfind)
    have hstep : ShardStep k 0 0 default a₀ .reload .done a₀.detach := .detached
    exact hstep.idsAscend (h.ids k a₀ ha)

/-- A registry that comes back from a file has lost its attestations only. -/
theorem WellFormed.eq_detach (h : registry.WellFormed) {old restored : AuthorityRegistry}
    (hload : old.load registry.toJson = (restored, .ok ())) : restored = registry.detach := by
  rcases load_cases old registry.toJson with ⟨decoded, hdecoded, heq⟩ | ⟨refusal, heq⟩
  · cases heq.symm.trans hload
    exact eq_of_registryFromJson h.keyed hdecoded
  · cases heq.symm.trans hload

end AuthorityRegistry

/-! ## What a view says -/

namespace ShardAuthority
variable {t : Nat} {lease : AuthorityLease} {leases : List AuthorityLease}

theorem mutating_of_foldl (out : AuthorityView) (h : (leases.foldl (viewLease t) out).mutating = some lease) :
    out.mutating = some lease ∨
      ∃ l ∈ leases, l.mode = .mutating ∧ l.effectiveState t = .active ∧ lease = effectiveLease l t := by
  induction leases generalizing out with
  | nil => exact .inl h
  | cons l leases ih =>
    rcases ih (viewLease t out l) h with hout | ⟨l', hl', hrest⟩
    · unfold viewLease at hout
      dsimp only at hout
      split_ifs at hout with hactive
      · cases hout
        exact .inr ⟨l, List.mem_cons_self, hactive.1, hactive.2, rfl⟩
      all_goals exact .inl hout
    · exact .inr ⟨l', List.mem_cons_of_mem _ hl', hrest⟩

end ShardAuthority

/-- The mutating lease of a view is active in the registry. -/
theorem AuthorityRegistry.active_of_view {registry : AuthorityRegistry} {k : ShardId} {t : Nat} {view : AuthorityView}
    {lease : AuthorityLease} (hview : registry.view k t = .ok view) (hlease : view.mutating = some lease) :
    ∃ a, registry.find k = some a ∧ ∃ l ∈ a.leases, l.mode = .mutating ∧ l.effectiveState t = .active ∧
      lease.holder = l.holder ∧ lease.claim = l.claim := by
  cases hfind : registry.find k with
  | none => simp [AuthorityRegistry.view, hfind] at hview
  | some a =>
    refine ⟨a, rfl, ?_⟩
    obtain rfl : a.view k t = view := by simpa [AuthorityRegistry.view, hfind] using hview
    rcases ShardAuthority.mutating_of_foldl _ hlease with hnone | ⟨l, hl, hmode, hactive, rfl⟩
    · cases hnone
    · exact ⟨l, hl, hmode, hactive, rfl, rfl⟩

/-! ## The latest grant -/

/-- The last mutating lease that was granted to the incarnation on the shard. -/
def latestOf (shard : ShardId) (holder : IncarnationId) : Deeds → Option AuthorityLease :=
  lastGranted fun lease => lease.shard = shard && lease.holder = holder

section
variable {shard : ShardId} {holder : IncarnationId} {deeds : Deeds} {lease last : AuthorityLease}

theorem lastGranted_append (p : AuthorityLease → Bool) (deeds : Deeds) (deed : Option Deed)
    (h : ∀ lease, deed = some (.granted lease) → p lease = false) :
    lastGranted p (deeds ++ deed.toList) = lastGranted p deeds := by
  unfold lastGranted
  cases deed with
  | none => simp
  | some deed =>
    cases deed with
    | granted lease => simp [Deed.lease?, h lease rfl]
    | _ => simp [List.filterMap_cons, Deed.lease?]

theorem lastGranted_granted (p : AuthorityLease → Bool) (deeds : Deeds) (h : p lease = true) :
    lastGranted p (deeds ++ [.granted lease]) = some lease := by
  simp [lastGranted, Deed.lease?, h]

theorem latestOf_terms (h : latestOf shard holder deeds = some last) : last.shard = shard ∧ last.holder = holder := by
  have hmem := List.mem_of_getLast? h
  simpa using (List.mem_filter.mp hmem).2

end

namespace AuthorityRegistry
variable {registry : AuthorityRegistry} {op : RegistryOp} {nowMs slotNowMs t t' : Nat} {token : AuthorityToken}
  {deeds : Deeds} {lease : AuthorityLease}

/-- An active lease is the latest of its holder. -/
def Latest (registry : AuthorityRegistry) (deeds : Deeds) (t : Nat) : Prop :=
  ∀ k a, registry.find k = some a → ∀ l ∈ a.leases, l.mode = .mutating → l.effectiveState t = .active →
    ∃ last, latestOf k l.holder deeds = some last ∧ last.claim = l.claim

theorem latest_empty (deeds : Deeds) (t : Nat) : empty.Latest deeds t := fun _ _ h => by simp at h

theorem Latest.later (h : registry.Latest deeds t) (hle : t ≤ t') : registry.Latest deeds t' :=
  fun k a hfind l hl hmode hactive => h k a hfind l hl hmode (AuthorityLease.effectiveState_active_anti hle hactive)

theorem Latest.detach (h : registry.Latest deeds t) : registry.detach.Latest deeds t := by
  intro k a hfind l hl hmode hactive
  obtain ⟨a₀, ha, rfl⟩ := Option.map_eq_some_iff.mp (find_detach.symm.trans hfind)
  obtain ⟨l₀, hl₀, rfl⟩ := List.mem_map.mp hl
  exact h k a₀ ha l₀ hl₀ hmode hactive

/-- A lease that a grant returns is a new one, or the active lease its holder had. -/
theorem granted_cases (hwf : registry.WellFormed)
    (hok : (op.exec registry nowMs slotNowMs token).2.lease = .ok lease) (hmode : lease.mode = .mutating) :
    ∃ request a, op = .grant request ∧ registry.find request.shard = some a ∧
      ((op.exec registry nowMs slotNowMs token).2 = .issued lease ∧ a.reachesIssue request nowMs slotNowMs = true ∧
          lease.shard = request.shard ∧ lease.holder = request.holder ∧ request.mode = .mutating ∨
        (op.exec registry nowMs slotNowMs token).2 = .renewed lease ∧ ∃ l ∈ a.leases, l.mode = .mutating ∧
          l.effectiveState nowMs = .active ∧ l.holder = request.holder ∧ lease.claim = l.claim) := by
  cases op with
  | grant request =>
    cases hfind : registry.find request.shard with
    | none => simp [RegistryOp.exec, AuthorityRegistry.grant, hfind, RegistryOutcome.ofGrant, RegistryOutcome.lease] at hok
    | some a =>
      refine ⟨request, a, rfl, hfind, ?_⟩
      obtain ⟨a', -, ⟨-, hconcerns⟩ | ⟨-, hstep⟩⟩ := exec_step (.grant request) nowMs slotNowMs token hwf.keyed hfind
      · simp [RegistryOp.concerns, RegistryOp.shard] at hconcerns
      generalize hout : (RegistryOp.exec (.grant request) registry nowMs slotNowMs token).2 = outcome at hstep hok
      cases hstep with
      | refused | flushed | bumped => cases hok
      | extended _ pre post l incumbent _ hl hmem hid hholder hm hactive =>
        cases hok
        have hids : ((a.expireInPlace nowMs).leases.map (·.id)).Nodup := by
          rw [ShardAuthority.expireInPlace_ids]
          exact (hwf.ids _ a hfind).nodup
        have hsame := ShardStep.incumbent_eq hids hl hmem hid
        rw [← hsame] at hholder hactive
        have hlive := ShardAuthority.mem_of_flushed_active hl (AuthorityLease.effectiveState_eq_active.mp hactive).1
        exact .inr ⟨rfl, l, hlive.1, hmode, hactive, hholder, rfl⟩
      | issued _ generation _ hreach =>
        cases hok
        exact .inl ⟨rfl, hreach, rfl, rfl, hmode⟩
  | establish | renew | requestFence | acknowledgeFence | revoke | expireDue | reattest | advanceEpoch | reload =>
    simp only [RegistryOp.exec, RegistryOutcome.ofResult] at hok
    split at hok <;> cases hok

/-- A lease that is issued comes from a grant that found the slot free. -/
theorem issued_cases (hwf : registry.WellFormed)
    (hout : (op.exec registry nowMs slotNowMs token).2 = .issued lease) (hmode : lease.mode = .mutating) :
    ∃ request a, op = .grant request ∧ registry.find request.shard = some a ∧
      a.reachesIssue request nowMs slotNowMs = true ∧ lease.shard = request.shard ∧ lease.holder = request.holder ∧
      request.mode = .mutating := by
  obtain ⟨request, a, hop, ha, ⟨-, hissued⟩ | ⟨hrenewed, -⟩⟩ :=
    granted_cases hwf (by rw [hout, RegistryOutcome.lease]) hmode
  · exact ⟨request, a, hop, ha, hissued⟩
  · cases hout.symm.trans hrenewed

end AuthorityRegistry

section
variable {c : Controller} {op : RegistryOp} {readings : Readings} {deeds : Deeds}

theorem deedOf_authority (op : RegistryOp) (c : Controller) (readings : Readings) :
    deedOf (.authority op) c readings = none ∨ ∃ lease, deedOf (.authority op) c readings = some (.granted lease) ∧
      (op.exec c.authority readings.nowMs readings.slotNowMs readings.token).2.lease = .ok lease ∧
      lease.mode = .mutating := by
  simp only [deedOf]
  split
  · rename_i lease hok
    split_ifs with hmode
    · exact .inr ⟨lease, rfl, hok, hmode⟩
    · exact .inl rfl
  · exact .inl rfl

theorem deedOf_issued {lease : AuthorityLease} (hmode : lease.mode = .mutating)
    (hout : (op.exec c.authority readings.nowMs readings.slotNowMs readings.token).2 = .issued lease) :
    deedOf (.authority op) c readings = some (.granted lease) := by
  simp [deedOf, hout, RegistryOutcome.lease, hmode]

/-- A mutating lease that is active after an operation was so before, or has just been issued. -/
theorem active_before (readings : Readings) (hwf : c.authority.WellFormed) (hle : readings.nowMs ≤ readings.slotNowMs) {k : ShardId}
    {a a' : ShardAuthority} (ha : c.authority.find k = some a)
    (hcase : a' = a ∧ op.concerns k = false ∨ op.concerns k = true ∧
      ShardStep k readings.nowMs readings.slotNowMs readings.token a op
        (op.exec c.authority readings.nowMs readings.slotNowMs readings.token).2 a')
    {l' : AuthorityLease} (hl' : l' ∈ a'.leases) (hmode : l'.mode = .mutating)
    (hactive : l'.effectiveState readings.slotNowMs = .active) :
    (∃ l ∈ a.leases, l.mode = .mutating ∧ l.effectiveState readings.nowMs = .active ∧ l.holder = l'.holder ∧
      l.claim = l'.claim) ∨
      l'.shard = k ∧ (op.exec c.authority readings.nowMs readings.slotNowMs readings.token).2 = .issued l' := by
  have hbefore := AuthorityLease.effectiveState_active_anti hle hactive
  rcases hcase with ⟨rfl, -⟩ | ⟨hconcerns, hstep⟩
  · exact .inl ⟨l', hl', hmode, hbefore, rfl, rfl⟩
  · rcases hstep.backward (hwf.ids k a ha).nodup hl' with ⟨l, hl, hs⟩ | hout
    · obtain ⟨hstate, hlive⟩ := AuthorityLease.effectiveState_eq_active.mp hbefore
      refine .inl ⟨l, hl, hs.mode_eq ▸ hmode, ?_, hs.holder_eq.symm, hs.claim_eq.symm⟩
      exact AuthorityLease.effectiveState_eq_active.mpr (hs.active_of_active hstate hlive)
    · obtain ⟨request, -, rfl, -, -, hshard, -⟩ := AuthorityRegistry.issued_cases hwf hout hmode
      refine .inr ⟨?_, hout⟩
      rw [hshard]
      simpa [RegistryOp.concerns, RegistryOp.shard] using hconcerns

/-- The latest lease of an incarnation keeps its terms through an operation that issues no new one to it. -/
theorem latestOf_exec (readings : Readings) (hwf : c.authority.WellFormed) (h : c.authority.Latest deeds readings.nowMs) {k : ShardId}
    {holder : IncarnationId} {last : AuthorityLease} (hlast : latestOf k holder deeds = some last)
    (hno : ∀ g : AuthorityLease, g.mode = .mutating → g.shard = k → g.holder = holder →
      (op.exec c.authority readings.nowMs readings.slotNowMs readings.token).2 ≠ .issued g) :
    ∃ last', latestOf k holder (deeds ++ (deedOf (.authority op) c readings).toList) = some last' ∧
      last'.claim = last.claim := by
  rcases deedOf_authority op c readings with hnone | ⟨g, hdeed, hok, hg⟩
  · exact ⟨last, by simpa [hnone] using hlast, rfl⟩
  rw [hdeed]
  by_cases hsame : g.shard = k ∧ g.holder = holder
  · refine ⟨g, lastGranted_granted _ _ (by simp [hsame]), ?_⟩
    obtain ⟨request, a, -, ha, ⟨hout, -⟩ | ⟨-, l, hl, hm, hs, -, hclaim⟩⟩ := AuthorityRegistry.granted_cases hwf hok hg
    · exact absurd hout (hno g hg hsame.1 hsame.2)
    · -- The lease that was extended was the latest of its holder.
      obtain ⟨last₀, hlast₀, heq⟩ := h request.shard a ha l hl hm hs
      have hterms := latestOf_terms hlast₀
      have hshard : request.shard = k := by
        rw [← hsame.1, ← hterms.1]
        exact congrArg AuthorityClaim.shard (heq.trans hclaim.symm)
      have hholder : l.holder = holder := (congrArg AuthorityClaim.incarnation hclaim).symm.trans hsame.2
      rw [hshard, hholder, hlast] at hlast₀
      cases hlast₀
      exact hclaim.trans heq.symm
  · refine ⟨last, ?_, rfl⟩
    refine (lastGranted_append _ deeds (some (.granted g)) ?_).trans hlast
    rintro _ ⟨⟩
    simpa using hsame

/-- Every operation keeps that active leases are the latest, once its grant is recorded. -/
theorem latest_exec (hwf : c.authority.WellFormed) (h : c.authority.Latest deeds readings.nowMs)
    (hle : readings.nowMs ≤ readings.slotNowMs) :
    (op.exec c.authority readings.nowMs readings.slotNowMs readings.token).1.Latest
      (deeds ++ (deedOf (.authority op) c readings).toList) readings.slotNowMs := by
  intro k a' hfind l' hl' hmode hactive
  rcases hwf.exec_cases hfind with ⟨epoch, rfl⟩ | ⟨a, ha, hcase⟩
  · cases hl'
  -- A lease that is issued on the shard is the only active one there.
  have hissued : ∀ g : AuthorityLease, g.mode = .mutating → g.shard = k →
      (op.exec c.authority readings.nowMs readings.slotNowMs readings.token).2 = .issued g →
      ∃ last, latestOf k l'.holder (deeds ++ (deedOf (.authority op) c readings).toList) = some last ∧
        last.claim = l'.claim := by
    intro g hg hshard hout
    obtain ⟨request, b, rfl, hb, hreach, hterms, -, hmutating⟩ := AuthorityRegistry.issued_cases hwf hout hg
    obtain rfl : request.shard = k := hterms.symm.trans hshard
    cases ha.symm.trans hb
    have hstep := (hcase.resolve_left fun hc => by simp [RegistryOp.concerns, RegistryOp.shard] at hc).2
    rcases hstep.leases (hwf.ids _ a ha).nodup with ⟨-, -, hno⟩ | ⟨_, issued, -, hsome, -, -, -, hleases⟩
    · exact absurd hout (hno g)
    · cases hout.symm.trans hsome
      rw [hleases] at hl'
      rcases mem_of_mem_pushBounded hl' with hmem | rfl
      · have hfree := List.find?_eq_none.mp (ShardAuthority.slot_free_of_reachesIssue hreach hmutating) l' hmem
        exact absurd (AuthorityLease.blocksMutationSlot_iff.mpr ⟨hmode, .inl hactive⟩) hfree
      · exact ⟨l', by rw [deedOf_issued hmode hout]; exact lastGranted_granted _ _ (by simp [hshard]), rfl⟩
  rcases active_before readings hwf hle ha hcase hl' hmode hactive with ⟨l, hl, hm, hs, hholder, hclaim⟩ | ⟨hshard, hout⟩
  · obtain ⟨last, hlast, heq⟩ := h k a ha l hl hm hs
    by_cases hnew : ∃ g : AuthorityLease, g.mode = .mutating ∧ g.shard = k ∧
        (op.exec c.authority readings.nowMs readings.slotNowMs readings.token).2 = .issued g
    · obtain ⟨g, hg, hshard, hout⟩ := hnew
      exact hissued g hg hshard hout
    · obtain ⟨last', hlast', hsame⟩ := latestOf_exec readings hwf h hlast fun g hg hshard _ hout => hnew ⟨g, hg, hshard, hout⟩
      exact ⟨last', hholder ▸ hlast', hsame.trans (heq.trans hclaim)⟩
  · exact hissued l' hmode hshard hout

end

/-! ## In the system -/

section
variable {S : SystemSetup} {o : ControllerOp} {c : Controller} {choice : Choice}

theorem perform_now {w w' : World} {x : Nat} (h : perform S .now c choice w = some (x, w')) : x = w.clock ∧ w' = w := by
  cases choice <;> cases h
  exact ⟨rfl, rfl⟩

theorem perform_clock {w w' : World} {x : o.Answer} (h : perform S o c choice w = some (x, w')) : w.clock ≤ w'.clock := by
  cases o with
  | authority op =>
    obtain ⟨slotNowMs, token, -, hle, -, rfl⟩ := perform_authority h
    exact hle
  | call role request =>
    cases choice with
    | unreachable failure =>
      cases h
      exact Nat.le_refl _
    | lost io laterMs failure =>
      simp only [perform] at h
      split_ifs at h with hle
      cases h
      exact hle
    | answered io laterMs =>
      simp only [perform] at h
      split_ifs at h with hle
      split at h
      · rename_i hserve
        cases h
        rw [show w' = _ from (congrArg Prod.fst hserve).symm]
        exact hle
      · cases h
    | _ => cases h
  | now | append | save | enter =>
    cases choice <;> cases h <;> exact Nat.le_refl _

theorem after_clock {e : WorldEvent} {w w' : World} (h : World.after S e w = some w') : w.clock ≤ w'.clock := by
  cases e with
  | tick nowMs =>
    simp only [World.after] at h
    split_ifs at h with hle
    cases h
    exact hle
  | client role request io laterMs =>
    simp only [World.after] at h
    split_ifs at h with hle
    cases h
    exact hle.2
  | restart role uuid =>
    simp only [World.after] at h
    split_ifs at h
    cases h
    cases role <;> exact Nat.le_refl _

/-- Only an operation on the registry grants. -/
theorem deedOf_ne_granted (ho : ∀ op, o ≠ .authority op) (x : o.Answer) (lease : AuthorityLease) :
    deedOf o c x ≠ some (.granted lease) := by
  unfold deedOf
  split
  · exact absurd rfl (ho _)
  · simp
  · split <;> simp
  · simp

theorem latestOf_append (shard : ShardId) (holder : IncarnationId) (deeds : Deeds) (ho : ∀ op, o ≠ .authority op)
    (x : o.Answer) : latestOf shard holder (deeds ++ (deedOf o c x).toList) = latestOf shard holder deeds :=
  lastGranted_append _ _ _ fun lease h => absurd h (deedOf_ne_granted ho x lease)

/-- The registry in memory is well formed, its active leases are the latest of their holders. -/
def Leased : Assertion (World × Deeds) := fun core w =>
  core.authority.WellFormed ∧ core.authority.Latest w.2 w.1.clock

theorem leased_world {core : ControllerCore} {e : WorldEvent} {w w' : World × Deeds}
    (hafter : (deedMachine S).world e w = some w') (h : Leased core w) : Leased core w' := by
  obtain ⟨hafter, hsame⟩ := Machine.record_world.mp hafter
  refine ⟨h.1, ?_⟩
  rw [hsame]
  exact h.2.later (after_clock hafter)

theorem leased_exec {w w' : World × Deeds} {x : o.Answer} (hexec : (deedMachine S).exec o c choice w = some (x, w'))
    (h : Leased c.core w) : Leased (o.coreAfter x c.core) w' := by
  obtain ⟨hexec, hnote⟩ := Machine.record_exec.mp hexec
  unfold Leased
  rw [hnote, noteDeeds]
  by_cases ho : ∃ op, o = .authority op
  · obtain ⟨op, rfl⟩ := ho
    obtain ⟨slotNowMs, token, -, hle, rfl, hw⟩ := perform_authority hexec
    rw [hw]
    exact ⟨h.1.exec, latest_exec h.1 h.2 hle⟩
  · have hne : ∀ op, o ≠ .authority op := fun op hop => ho ⟨op, hop⟩
    have hcore : o.coreAfter x c.core = c.core := by
      cases o with
      | authority op => exact absurd rfl (hne op)
      | _ => rfl
    rw [hcore]
    refine ⟨h.1, fun k a hfind l hl hmode hactive => ?_⟩
    rw [latestOf_append _ _ _ hne]
    exact h.2.later (perform_clock hexec) k a hfind l hl hmode hactive

end

end FabricEvolution
