import FabricEvolution.Controller.StateFile
import FabricEvolution.Manifest.Negotiation
import FabricEvolution.System.Nodes

/-!
# States that can be stored

* `Durable.Storable`, `Controller.Storable` : what the decoders of the state file ask, and what keeps it so;
* `Storing` : of the memory, the nodes and the state file; `storingPolicy` : no generator returns the nil identifier;
* `effect_storing`, `authorityOp_storing` : effects and operations on the registry keep it;
* `Finds` : what a computation returns besides; `reportOf_finds`, `view_finds`, `theHandoff_finds`, `theManifest_finds`;
* `*_storing` : so do the computations that the operations are made of.
-/

namespace FabricEvolution
open Lib Control

/-! ## What can be stored -/

/-- The identifiers of a manifest are valid. -/
structure EvolutionManifest.Named (manifest : EvolutionManifest) : Prop where
  id : manifest.id.isValid = true
  campaign : manifest.campaign.isValid = true
  shard : manifest.shard.isValid = true
  migrations : ∀ step ∈ manifest.migrations, step.id.isValid = true

/-- No lease has the nil token. -/
def AuthorityRegistry.Tokened (registry : AuthorityRegistry) : Prop :=
  ∀ k a, registry.find k = some a → ∀ lease ∈ a.leases, lease.token.isValid = true

/-- A manifest that was read from a document and admitted, under some evidence and policy. -/
def ManifestDocument.Planned (digestOf : Json → Digest) (document : ManifestDocument) : Prop :=
  ∃ value read registry policy, Json.WellFormed value ∧ manifestFromJson digestOf value = .ok read ∧
    admitManifest digestOf registry policy read = .ok document

/-- Admission leaves a manifest that was read as it is. -/
theorem ManifestDocument.Planned.read {digestOf : Json → Digest} {document : ManifestDocument} (h : document.Planned digestOf) :
    ∃ value, Json.WellFormed value ∧ manifestFromJson digestOf value = .ok document := by
  obtain ⟨value, read, registry, policy, hvalue, hread, hadmit⟩ := h
  obtain ⟨sealed, hsealed, hadmit⟩ := Result.bind_eq_ok.mp hadmit
  obtain ⟨_, -, hadmit⟩ := Result.bind_eq_ok.mp hadmit
  obtain ⟨_, -, hadmit⟩ := Result.bind_eq_ok.mp hadmit
  cases hadmit
  have hbound := (ManifestDocument.readable_of_fromJson hread).2
  have hsame : document = read := by
    unfold ManifestDocument.sealOrValidate at hsealed
    split_ifs at hsealed
    · obtain ⟨_, -, hsealed⟩ := Result.bind_eq_ok.mp hsealed
      cases hsealed
      rw [← hbound.digest]
    · obtain ⟨_, -, hsealed⟩ := Result.bind_eq_ok.mp hsealed
      cases hsealed
      rfl
  exact ⟨value, hvalue, hsame ▸ hread⟩

/-- The controller's view of such a manifest. -/
def EvolutionManifest.Documented (digestOf : Json → Digest) (manifest : EvolutionManifest) : Prop :=
  ∃ document : ManifestDocument, document.Planned digestOf ∧ document.admitted = manifest

theorem EvolutionManifest.Documented.named {digestOf : Json → Digest} {manifest : EvolutionManifest}
    (h : manifest.Documented digestOf) : manifest.Named := by
  obtain ⟨document, hplanned, rfl⟩ := h
  obtain ⟨value, -, hread⟩ := hplanned.read
  have hreadable := (ManifestDocument.readable_of_fromJson hread).1
  exact ⟨hreadable.id, hreadable.campaign, hreadable.shard, fun step hstep => (hreadable.migrations step hstep).id⟩

/-- What the decoders ask of a state; the next handoff counts while there is none. -/
structure Durable.Storable (digestOf : Json → Digest) (durable : Durable) : Prop where
  authority : durable.authority.Established
  tokens : durable.authority.Tokened
  manifest : ∀ manifest, durable.manifest = some manifest → manifest.Documented digestOf
  campaign : ∀ campaign, durable.campaign = some campaign → campaign.Storable
  handoff : ∀ handoff, durable.handoff = some handoff → handoff.Storable
  claim : ∀ claim, durable.fencedPredecessorClaim = some claim → claim.isValid = true
  nextHandoffId : durable.handoff = none → durable.nextHandoffId ≠ 0

/-- The reports of a controller become its records. -/
structure Controller.Storable (digestOf : Json → Digest) (c : Controller) : Prop where
  durable : c.toDurable.Storable digestOf
  source : ∀ report, c.lastSourceReport = some report → report.incarnation.isValid = true
  target : ∀ report, c.lastTargetReport = some report → report.incarnation.isValid = true

theorem ShardStep.tokened {k : ShardId} {nowMs slotNowMs : Nat} {token : AuthorityToken} {a a' : ShardAuthority} {op : RegistryOp}
    {outcome : RegistryOutcome} (hids : a.IdsAscend) (h : ∀ lease ∈ a.leases, lease.token.isValid = true)
    (htoken : token.isValid = true) (hstep : ShardStep k nowMs slotNowMs token a op outcome a') :
    ∀ lease ∈ a'.leases, lease.token.isValid = true := by
  intro lease hlease
  rcases hstep.backward hids.nodup hlease with ⟨l, hl, hls⟩ | rfl
  · rw [hls.token_eq]
    exact h l hl
  · cases hstep with
    | issued => exact htoken

theorem AuthorityRegistry.Tokened.exec {registry : AuthorityRegistry} (h : registry.Tokened) (hestablished : registry.Established)
    (op : RegistryOp) (nowMs slotNowMs : Nat) {token : AuthorityToken} (htoken : token.isValid = true) :
    (op.exec registry nowMs slotNowMs token).1.Tokened := by
  intro k a' hfind'
  cases hfind : registry.find k with
  | none =>
    obtain ⟨epoch, -, -, -, rfl⟩ := exec_fresh hestablished.keyed hfind hfind'
    simp
  | some a =>
    obtain ⟨a'', hfind'', hcase⟩ := exec_step op nowMs slotNowMs token hestablished.keyed hfind
    obtain rfl : a'' = a' := Option.some.inj (hfind''.symm.trans hfind')
    rcases hcase with ⟨rfl, -⟩ | ⟨-, hstep⟩
    · exact h k _ hfind
    · exact hstep.tokened (hestablished k a hfind).2 (h k a hfind) htoken

theorem AuthorityRegistry.Tokened.detach {registry : AuthorityRegistry} (h : registry.Tokened) : registry.detach.Tokened := by
  intro k a hfind lease hlease
  obtain ⟨a₀, hfind₀, rfl⟩ := Option.map_eq_some_iff.mp (find_detach.symm.trans hfind)
  obtain ⟨lease₀, hlease₀, rfl⟩ := List.mem_map.mp hlease
  exact h k a₀ hfind₀ lease₀ hlease₀

/-- The claim of a lease in view is valid. -/
theorem isValid_of_view {registry : AuthorityRegistry} (hestablished : registry.Established) (htokens : registry.Tokened)
    {k : ShardId} {t : Nat} {view : AuthorityView} {lease : AuthorityLease} (hview : registry.view k t = .ok view)
    (hlease : view.mutating = some lease) : lease.claim.isValid = true := by
  obtain ⟨a, hfind, l, hl, -, -, -, hclaim⟩ := AuthorityRegistry.active_of_view hview hlease
  have hissuable := (hestablished k a hfind).1
  have hl' := hissuable.leases l hl
  have hvalid : l.shard.isValid = true := by
    rw [hl'.shard]
    exact hissuable.valid
  rw [hclaim]
  simp [AuthorityClaim.isValid, AuthorityLease.claim, hvalid, hl'.holder, hl'.epoch, hl'.generation, htokens k a hfind l hl]

namespace HandoffRecord.Storable
variable {handoff : HandoffRecord} (h : handoff.Storable)
include h

theorem moved (target : HandoffPhase) (atMs : Nat) (note : String) : (handoff.moved target atMs note).Storable := by
  refine { h with history := fun transition hmem => ?_ }
  rcases mem_of_mem_pushBounded hmem with hmem | rfl
  · exact h.history transition hmem
  · exact h.attempt

/-- A handoff that may still be restarted. -/
theorem rewound {predecessor successor : IncarnationId} (hpredecessor : predecessor.isValid = true)
    (hsuccessor : successor.isValid = true) (hattempt : handoff.attempt < maxHandoffRestarts) (target : HandoffPhase)
    (atMs : Nat) (note : String) : (handoff.rewound predecessor successor target atMs note).Storable := by
  have hhistory : ∀ transition ∈ pushBounded maxHandoffHistoryEntries handoff.history
      ⟨handoff.phase, target, atMs, handoff.attempt + 1, note⟩, transition.attempt ≤ maxHandoffRestarts := by
    intro transition hmem
    rcases mem_of_mem_pushBounded hmem with hmem | rfl
    · exact h.history transition hmem
    · exact hattempt
  have hprevious : (if handoff.predecessor ≠ predecessor then handoff.predecessor else handoff.previousPredecessor).isValid =
      true ∨ (if handoff.predecessor ≠ predecessor then handoff.predecessor else handoff.previousPredecessor) = default := by
    split_ifs
    · exact .inl h.predecessor
    · exact h.previousPredecessor
  unfold HandoffRecord.rewound
  dsimp only
  generalize (if handoff.predecessor ≠ predecessor then handoff.predecessor else handoff.previousPredecessor) = previous at *
  split_ifs
  · exact ⟨h.id, h.campaign, h.shard, h.manifest, hpredecessor, hprevious, hsuccessor, hattempt, hhistory⟩
  · exact ⟨h.id, h.campaign, h.shard, h.manifest, hpredecessor, hprevious, hsuccessor, hattempt, hhistory⟩

end HandoffRecord.Storable

/-- The boundaries a campaign records are steps of its manifest. -/
theorem CampaignRecord.Storable.crossBoundaries {campaign : CampaignRecord} (h : campaign.Storable)
    {migrations : List MigrationStepSpec} (hmigrations : ∀ step ∈ migrations, step.id.isValid = true) :
    (Control.crossBoundaries migrations campaign).Storable := by
  refine { h with crossedBoundaries := ?_ }
  have hfold : ∀ (steps : List MigrationStepSpec) (crossed : List MigrationStepId),
      (∀ step ∈ steps, step.id.isValid = true) → (∀ boundary ∈ crossed, boundary.isValid = true) →
      ∀ boundary ∈ steps.foldl (fun crossed step => if step.id ∈ crossed then crossed else crossed ++ [step.id]) crossed,
        boundary.isValid = true := by
    intro steps
    induction steps with
    | nil => exact fun crossed _ hcrossed => hcrossed
    | cons step steps ih =>
      intro crossed hsteps hcrossed
      refine ih _ (fun s hs => hsteps s (List.mem_cons_of_mem _ hs)) fun boundary hmem => ?_
      dsimp only at hmem
      split_ifs at hmem
      · exact hcrossed boundary hmem
      · rcases List.mem_append.mp hmem with hmem | hmem
        · exact hcrossed boundary hmem
        · rw [List.mem_singleton.mp hmem]
          exact hsteps step List.mem_cons_self
  exact hfold _ _ (fun step hstep => hmigrations step (List.mem_of_mem_filter hstep)) h.crossedBoundaries

namespace Controller.Storable
variable {digestOf : Json → Digest} {c : Controller} (h : c.Storable digestOf)
include h

theorem exec (op : RegistryOp) (nowMs slotNowMs : Nat) {token : AuthorityToken} (htoken : token.isValid = true) :
    { c with authority := (op.exec c.authority nowMs slotNowMs token).1 }.Storable digestOf :=
  { h with durable :=
      { h.durable with
        authority := established_exec h.durable.authority op nowMs slotNowMs token
        tokens := h.durable.tokens.exec h.durable.authority op nowMs slotNowMs htoken } }

theorem mapHandoff {f : HandoffRecord → HandoffRecord} (hf : ∀ handoff, c.handoff = some handoff → handoff.Storable →
    (f handoff).Storable) : { c with handoff := c.handoff.map f }.Storable digestOf := by
  refine { h with durable := { h.durable with handoff := fun handoff' hsome => ?_, nextHandoffId := fun hnone => ?_ } }
  · obtain ⟨handoff, hhandoff, rfl⟩ := Option.map_eq_some_iff.mp hsome
    exact hf handoff hhandoff (h.durable.handoff handoff hhandoff)
  · exact h.durable.nextHandoffId (Option.map_eq_none_iff.mp hnone)

theorem mapCampaign {f : CampaignRecord → CampaignRecord} (hf : ∀ campaign, campaign.Storable → (f campaign).Storable) :
    { c with campaign := c.campaign.map f }.Storable digestOf := by
  refine { h with durable := { h.durable with campaign := fun campaign' hsome => ?_ } }
  obtain ⟨campaign, hcampaign, rfl⟩ := Option.map_eq_some_iff.mp hsome
  exact hf campaign (h.durable.campaign campaign hcampaign)

theorem syncTerms : (Control.syncTerms c).Storable digestOf := by
  have hhandoff : { c with handoff := c.handoff.map fun handoff : HandoffRecord => { handoff with
      epoch := (currentEpoch c handoff.shard).getD handoff.epoch
      generation := (currentGeneration c handoff.shard).getD handoff.generation } }.Storable digestOf := by
    refine h.mapHandoff fun _ _ hs => ?_
    exact { hs with }
  refine hhandoff.mapCampaign fun _ hs => ?_
  exact { hs with }

end Controller.Storable

/-! ## Effects -/

/-- The nodes report valid incarnations, the state file can be read. -/
structure World.Storable (S : SystemSetup) (w : World) : Prop where
  component : ∀ role, (S.options role).component.isValid = true
  node : ∀ role, (w.node role).incarnation.isValid = true
  disk : ∀ durable, w.disk = some durable → durable.Storable S.digestOf

/-- The state of the controller can be stored, and the world keeps it so. -/
def Storing (S : SystemSetup) (c : Controller) (w : World) : Prop := c.Storable S.digestOf ∧ w.Storable S

/-- No token and no incarnation that is drawn is nil. -/
def storingPolicy : SystemPolicy World where
  exec _ _ choice _ :=
    match choice with
    | .readings _ token => token.isValid = true
    | _ => True
  world e _ :=
    match e with
    | .restart _ uuid => uuid.isValid = true
    | _ => True

abbrev storingEffects (S : SystemSetup) : SystemEffects World := (machine S).effects storingPolicy fun _ => Storing S

section
variable {S : SystemSetup} {c : Controller} {w w' : World}

theorem storable_after {e : WorldEvent} (hpolicy : storingPolicy.world e w) (hafter : World.after S e w = some w')
    (h : w.Storable S) : w'.Storable S := by
  refine { h with node := fun role => ?_, disk := ?_ }
  · rcases after_incarnation hafter role with hsame | ⟨uuid, rfl, hnew⟩
    · rw [hsame]
      exact h.node role
    · have huuid : uuid.isValid = true := hpolicy
      rw [hnew, IncarnationId.isValid]
      simp [h.component role, huuid]
  · rw [after_disk hafter]
    exact h.disk

theorem storing_env (henv : (storingEffects S).env w w') (h : Storing S c w) : Storing S c w' :=
  Machine.env_keeps (I := Storing S c) (fun _ _ _ hpolicy hafter h => ⟨h.1, storable_after hpolicy hafter h.2⟩) henv h

theorem storing_exec {o : ControllerOp} {choice : Choice} {x : o.Answer} (hexec : perform S o c choice w = some (x, w'))
    (h : Storing S c w) : Storing S c w' := by
  refine ⟨h.1, { h.2 with node := fun role => ?_, disk := fun durable hdurable => ?_ }⟩
  · rw [perform_incarnation hexec role]
    exact h.2.node role
  · rcases perform_disk hexec with hdisk | ⟨-, hdisk⟩
    · exact h.2.disk durable (hdisk ▸ hdurable)
    · cases hdisk.symm.trans hdurable
      exact h.1.durable

end

namespace Control
variable {S : SystemSetup} {α β : Type}

/-- No effect changes the memory. -/
theorem effect_framed (F : Controller → Prop) (o : ControllerOp) :
    Keeps (storingEffects S) (fun c w => F c ∧ Storing S c w) (Eff.perform o : Control o.Answer) := by
  refine Triple.perform fun c w hp w₀ henv => ?_
  have hp₀ : Storing S c w₀ := storing_env henv hp.2
  refine ⟨hp₀, fun x w₁ hx => ?_⟩
  obtain ⟨choice, -, hexec⟩ := hx
  exact ⟨hp.1, storing_exec hexec hp₀⟩

theorem effect_storing (o : ControllerOp) : Keeps (storingEffects S) (Storing S) (Eff.perform o : Control o.Answer) :=
  (effect_framed (fun _ => True) o).conseq (fun _ _ hp => ⟨trivial, hp⟩) fun _ _ _ hp => hp.2

theorem now_storing : Keeps (storingEffects S) (Storing S) now := effect_storing _

theorem append_storing (event : EpochEvent) : Keeps (storingEffects S) (Storing S) (append event) :=
  Keeps.bind (effect_storing _) fun _ => Keeps.lift _

theorem save_storing : Keeps (storingEffects S) (Storing S) save := Keeps.bind (effect_storing _) fun _ => Keeps.lift _

theorem saveQuietly_storing : Keeps (storingEffects S) (Storing S) saveQuietly :=
  Keeps.bind (Keeps.attempt save_storing) fun _ => Keeps.pure _

theorem call_storing (role : NodeRole) (request : NodeRequest) :
    Keeps (storingEffects S) (Storing S) (call role request) := by
  unfold call
  refine Keeps.bind (effect_storing _) fun response => get_keeps fun c => ?_
  split <;> exact Keeps.pure _

theorem callOk_storing (role : NodeRole) (request : NodeRequest) :
    Keeps (storingEffects S) (Storing S) (callOk role request) :=
  Keeps.bind (call_storing _ _) fun _ => Keeps.lift _

/-- The registry draws a token that is not nil. -/
theorem authorityOp_storing (op : RegistryOp) : Keeps (storingEffects S) (Storing S) (authorityOp op) := by
  intro c w hp w₀ henv
  have hp₀ : Storing S c w₀ := storing_env henv hp
  refine ⟨hp₀, fun x w₁ hx => ?_⟩
  obtain ⟨choice, hpolicy, hexec⟩ := hx
  have hp₁ : Storing S c w₁ := storing_exec hexec hp₀
  obtain ⟨slotNowMs, token, rfl, -, rfl, -⟩ := perform_authority hexec
  exact ⟨hp₁.1.exec op _ _ hpolicy, hp₁.2⟩

theorem modify_storing {f : Controller → Controller} (hf : ∀ c, c.Storable S.digestOf → (f c).Storable S.digestOf) :
    Keeps (storingEffects S) (Storing S) (Eff.modify f : Control Unit) :=
  Keeps.modify fun c _ hp => ⟨hf c hp.1, hp.2⟩

theorem modifyHandoff_storing {f : HandoffRecord → HandoffRecord}
    (hf : ∀ handoff, handoff.Storable → (f handoff).Storable) : Keeps (storingEffects S) (Storing S) (modifyHandoff f) :=
  modify_storing fun _ hs => hs.mapHandoff fun handoff _ => hf handoff

theorem modifyCampaign_storing {f : CampaignRecord → CampaignRecord}
    (hf : ∀ campaign, campaign.Storable → (f campaign).Storable) :
    Keeps (storingEffects S) (Storing S) (modifyCampaign f) :=
  modify_storing fun _ hs => hs.mapCampaign hf

/-! ## What is found -/

/-- The computation keeps the state storable and returns what satisfies `F`. -/
abbrev Finds (S : SystemSetup) (F : α → Prop) (m : Control α) : Prop :=
  Triple (storingEffects S) (Storing S) m (Triple.ends (fun a c w => F a ∧ Storing S c w) (Storing S))

namespace Finds
variable {F : α → Prop} {G : β → Prop} {m : Control α} {f : α → Control β}

theorem keeps (h : Finds S F m) : Keeps (storingEffects S) (Storing S) m :=
  h.post fun r c w hp => by
    cases r with
    | error refusal => exact hp
    | ok a => exact hp.2

theorem bind (hm : Finds S F m) (hf : ∀ a, F a → Keeps (storingEffects S) (Storing S) (f a)) :
    Keeps (storingEffects S) (Storing S) (m >>= f) := by
  refine Triple.seq (S := fun a c w => F a ∧ Storing S c w) (hm.post fun r c w hp => ?_) fun a c w hp => hf a hp.1 c w hp.2
  cases r <;> exact hp

theorem find (hm : Finds S F m) (hf : ∀ a, F a → Finds S G (f a)) : Finds S G (m >>= f) :=
  Triple.bind hm fun a c w hp => hf a hp.1 c w hp.2

theorem lift {r : Result α} (h : ∀ a, r = .ok a → F a) : Finds S F (Eff.lift r) :=
  Triple.lift fun c w hp => by
    cases r with
    | error refusal => exact hp
    | ok a => exact ⟨h a rfl, hp⟩

theorem attempt (hm : Finds S F m) : Finds S (fun r => ∀ a, r = .ok a → F a) (Eff.attempt m) :=
  Triple.attempt (hm.post fun r c w hp => by
    cases r with
    | error refusal => exact ⟨nofun, hp⟩
    | ok a => exact ⟨fun _ heq => Except.ok.inj heq ▸ hp.1, hp.2⟩)

end Finds

/-- Reading the memory finds it storable. -/
theorem get_storing {f : Controller → Control α}
    (h : ∀ c, c.Storable S.digestOf → Keeps (storingEffects S) (Storing S) (f c)) :
    Keeps (storingEffects S) (Storing S) (Eff.get >>= f) :=
  Triple.get fun c₀ c w hp => h c₀ (hp.1 ▸ hp.2.1) c w hp.2

theorem get_finds {F : α → Prop} {f : Controller → Control α} (h : ∀ c, c.Storable S.digestOf → Finds S F (f c)) :
    Finds S F (Eff.get >>= f) :=
  Triple.get fun c₀ c w hp => h c₀ (hp.1 ▸ hp.2.1) c w hp.2

theorem orThrow_finds {F : α → Prop} {value : Option α} {refusal : Status} (h : ∀ a, value = some a → F a) :
    Finds S F (orThrow value refusal) :=
  Finds.lift fun a ha => h a (orRefuse_eq_ok.mp ha)

theorem theHandoff_finds : Finds S HandoffRecord.Storable theHandoff :=
  get_finds fun _ hs => orThrow_finds hs.durable.handoff

theorem theManifest_finds : Finds S (EvolutionManifest.Documented S.digestOf) theManifest :=
  get_finds fun _ hs => orThrow_finds hs.durable.manifest

/-- A report is of a valid incarnation. -/
theorem reportOf_finds (role : NodeRole) : Finds S (·.incarnation.isValid = true) (reportOf role) := by
  refine reportOf_triple fun c w hp w₀ henv => ?_
  have hp₀ : Storing S c w₀ := storing_env henv hp
  refine ⟨hp₀, fun x w₁ hx => ?_⟩
  obtain ⟨choice, -, hexec⟩ := hx
  have hp₁ : Storing S c w₁ := storing_exec hexec hp₀
  cases hreport : (response c role x).bind (·.report?) with
  | error refusal => exact hp₁
  | ok report =>
    refine ⟨?_, hp₁⟩
    show report.incarnation.isValid = true
    rw [(perform_status hexec hreport).1]
    exact hp₀.2.node role

theorem reportFor_finds (role : NodeRole) (component : String) :
    Finds S (·.incarnation.isValid = true) (reportFor role component) := by
  unfold reportFor
  refine Finds.find (reportOf_finds role).attempt fun result hresult => Finds.lift fun report hreport => ?_
  cases result with
  | error refusal => cases hreport
  | ok report' =>
    cases hreport
    exact hresult _ rfl

/-- The mutating lease of a view has a valid claim. -/
theorem view_finds (shard : ShardId) :
    Finds S (fun view => ∀ lease, view.mutating = some lease → lease.claim.isValid = true) (view shard) := by
  unfold view
  refine Finds.find (F := fun _ => True) (now_storing.post fun r c w hp => ?_) fun nowMs _ => get_finds fun c hs => ?_
  · cases r with
    | error refusal => exact hp
    | ok nowMs => exact ⟨trivial, hp⟩
  · exact Finds.lift fun view hview lease => isValid_of_view hs.durable.authority hs.durable.tokens hview

theorem view_storing (shard : ShardId) : Keeps (storingEffects S) (Storing S) (view shard) := (view_finds shard).keeps

/-! ## Actions and reports -/

theorem acceptAction_storing (action : CampaignAction) (source target : CampaignState) (rule reason : String) :
    Keeps (storingEffects S) (Storing S) (acceptAction action source target rule reason) := by
  unfold acceptAction
  refine Keeps.bind (modifyCampaign_storing fun _ hs => { hs with }) fun _ => Keeps.bind now_storing fun updatedAtMs => ?_
  refine Keeps.bind (modifyCampaign_storing fun _ hs => { hs with }) fun _ => Keeps.bind now_storing fun atMs => ?_
  refine Keeps.bind (modifyCampaign_storing fun _ hs => { hs with }) fun _ => Keeps.bind now_storing fun eventAtMs => ?_
  exact Keeps.bind theCampaign_keeps fun campaign => Keeps.bind (append_storing _) fun _ => save_storing

theorem deferAction_storing (rule reason : String) : Keeps (storingEffects S) (Storing S) (deferAction rule reason) := by
  unfold deferAction
  refine Keeps.bind (modify_storing fun _ hs => { hs with durable := { hs.durable with } }) fun _ => ?_
  refine Keeps.bind now_storing fun deferralMs => ?_
  refine Keeps.bind (modify_storing fun _ hs => { hs with durable := { hs.durable with } }) fun _ => ?_
  exact Keeps.bind saveQuietly_storing fun _ => Keeps.throw _

theorem applyAction_storing (action : CampaignAction) : Keeps (storingEffects S) (Storing S) (applyAction action) := by
  unfold applyAction
  refine get_keeps fun c => ?_
  split
  · split
    · exact Keeps.throw _
    · exact deferAction_storing _ _
    · exact acceptAction_storing _ _ _ _ _
  · exact Keeps.throw _

theorem setReports_storing {source target : NodeReport} (hsource : source.incarnation.isValid = true)
    (htarget : target.incarnation.isValid = true) : Keeps (storingEffects S) (Storing S) (setReports source target) :=
  modify_storing fun _ hs => ⟨hs.durable, fun _ h => Option.some.inj h ▸ hsource, fun _ h => Option.some.inj h ▸ htarget⟩

theorem bindNodes_storing : Keeps (storingEffects S) (Storing S) bindNodes := by
  unfold bindNodes
  refine get_keeps fun c => ?_
  split
  · exact Keeps.throw _
  · refine Finds.bind (reportFor_finds _ _) fun source hsource => Finds.bind (reportFor_finds _ _) fun target htarget => ?_
    exact setReports_storing hsource htarget

/-! ## The authority of a holder -/

theorem grant_storing (request : GrantRequest) : Keeps (storingEffects S) (Storing S) (grant request) :=
  Keeps.bind (authorityOp_storing _) fun _ => Keeps.pure _

theorem deliver_storing (setup : ControllerSetup) (role : NodeRole) (lease : AuthorityLease) :
    Keeps (storingEffects S) (Storing S) (deliver setup role lease) :=
  get_keeps fun _ => call_storing _ _

theorem checked_storing (op : RegistryOp) {f : Unit → Control α} (hf : Keeps (storingEffects S) (Storing S) (f ())) :
    Keeps (storingEffects S) (Storing S) (authorityOp op >>= fun outcome => Eff.lift outcome.check >>= f) :=
  Keeps.bind (authorityOp_storing _) fun _ => Keeps.bind (Keeps.lift _) fun _ => hf

theorem ensureHolderAuthority_storing (setup : ControllerSetup) (role : NodeRole) (report : NodeReport) :
    Keeps (storingEffects S) (Storing S) (ensureHolderAuthority setup role report) := by
  have hissue : ∀ manifest, Keeps (storingEffects S) (Storing S) (issueAuthority setup role report manifest) := by
    intro manifest
    unfold issueAuthority
    refine Keeps.bind (grant_storing _) fun granted => Keeps.bind (Keeps.lift _) fun lease => ?_
    refine Keeps.bind (deliver_storing _ _ _) fun delivered => ?_
    split
    · exact Keeps.bind (authorityOp_storing _) fun _ => Keeps.throw _
    · exact Keeps.bind now_storing fun _ => Keeps.bind (Keeps.attempt (append_storing _)) fun _ => save_storing
  have hrenew : ∀ current manifest, Keeps (storingEffects S) (Storing S) (renewAuthority setup role current manifest) := by
    intro current manifest
    unfold renewAuthority
    refine Keeps.bind (grant_storing _) fun granted => Keeps.bind (Keeps.lift _) fun lease => ?_
    exact Keeps.bind (deliver_storing _ _ _) fun delivered => Keeps.bind (Keeps.lift _) fun _ => save_storing
  have hreattest : ∀ current manifest, Keeps (storingEffects S) (Storing S) (reattestAuthority role current manifest) := by
    intro current manifest
    unfold reattestAuthority
    refine Keeps.bind (call_storing _ _) fun reattested => ?_
    split
    · exact Keeps.pure _
    · exact checked_storing _ (Keeps.bind save_storing fun _ => Keeps.pure _)
  unfold ensureHolderAuthority
  refine Keeps.bind theManifest_keeps fun manifest => Keeps.bind (view_storing _) fun view => ?_
  split
  · exact Keeps.pure _
  · split
    · exact hissue _
    · split
      · split
        · refine Keeps.bind now_storing fun nowMs => ?_
          split
          · exact Keeps.pure _
          · exact hrenew _ _
        · refine Keeps.bind (hreattest _ _) fun reattested => ?_
          split
          · exact Keeps.pure _
          · exact hissue _
      · exact hissue _

theorem ensurePredecessorAuthority_storing (setup : ControllerSetup) :
    Keeps (storingEffects S) (Storing S) (ensurePredecessorAuthority setup) := by
  unfold ensurePredecessorAuthority
  refine get_keeps fun c => ?_
  split
  · exact ensureHolderAuthority_storing _ _ _
  · exact Keeps.throw _

theorem ensureSuccessorAuthority_storing (setup : ControllerSetup) :
    Keeps (storingEffects S) (Storing S) (ensureSuccessorAuthority setup) := by
  unfold ensureSuccessorAuthority
  refine get_keeps fun c => ?_
  split
  · exact ensureHolderAuthority_storing _ _ _
  · exact Keeps.throw _

/-! ## Phases and restarts -/

theorem recordPhase_storing (target : HandoffPhase) (note : String) :
    Keeps (storingEffects S) (Storing S) (recordPhase target note) := by
  unfold recordPhase
  refine get_keeps fun c => ?_
  split
  · split
    · exact Keeps.throw _
    · split
      · exact Keeps.pure _
      · refine Keeps.bind now_storing fun atMs => ?_
        refine Keeps.bind (modifyHandoff_storing fun _ hs => hs.moved _ _ _) fun _ => Keeps.bind now_storing fun updatedAtMs => ?_
        refine Keeps.bind (modifyHandoff_storing fun _ hs => { hs with }) fun _ => ?_
        refine Keeps.bind (modify_storing fun _ hs => hs.syncTerms) fun _ => Keeps.bind now_storing fun eventAtMs => ?_
        exact Keeps.bind theHandoff_keeps fun moved => Keeps.bind (append_storing _) fun _ => save_storing
  · exact Keeps.throw _

theorem restartHandoff_storing {predecessor successor : IncarnationId} (hpredecessor : predecessor.isValid = true)
    (hsuccessor : successor.isValid = true) (target : HandoffPhase) (note : String) :
    Keeps (storingEffects S) (Storing S) (restartHandoff predecessor successor target note) := by
  unfold restartHandoff
  refine theHandoff_seq (fun handoff => ?_) fun _ _ _ hp => hp
  split
  · exact Triple.throw fun _ _ hp => hp.2
  · split
    · exact Triple.throw fun _ _ hp => hp.2
    · rename_i hattempt
      -- The attempts that were compared are those of the record that is rewound.
      refine Keeps.seq (effect_framed (fun c => c.handoff = some handoff) .now) (fun _ _ _ hp => hp.2) fun atMs => ?_
      refine Keeps.seq (Keeps.modify fun c w hp => ⟨hp.1, { hp.2.1 with durable := { hp.2.1.durable with } }, hp.2.2⟩)
        (fun _ _ _ hp => hp.2) fun _ => ?_
      refine Triple.seq (S := fun _ => Storing S) (Triple.modify fun c w hp => ⟨?_, hp.2.2⟩) fun _ => ?_
      · refine hp.2.1.mapHandoff fun handoff' hsome hs => ?_
        cases hp.1.symm.trans hsome
        exact hs.rewound hpredecessor hsuccessor (Nat.lt_of_not_le hattempt) _ _ _
      · refine Keeps.bind now_storing fun updatedAtMs => Keeps.bind (modifyHandoff_storing fun _ hs => { hs with }) fun _ => ?_
        refine Keeps.bind now_storing fun eventAtMs => Keeps.bind theHandoff_keeps fun handoff => ?_
        exact Keeps.bind (append_storing _) fun _ => save_storing

/-! ## Replaced incarnations -/

theorem currentSourceClaim_storing : Keeps (storingEffects S) (Storing S) currentSourceClaim := by
  unfold currentSourceClaim
  refine get_keeps fun c => ?_
  split
  · exact Keeps.pure _
  · split
    · exact Keeps.pure _
    · refine Keeps.bind (Keeps.attempt (view_storing _)) fun view => ?_
      split <;> exact Keeps.pure _

theorem sourceClaim_storing (missing : String) : Keeps (storingEffects S) (Storing S) (sourceClaim missing) :=
  Keeps.bind currentSourceClaim_storing fun _ => orThrow_keeps _ _

theorem acknowledgeFences_storing {after : FenceRecord → Control Unit}
    (hafter : ∀ fence, Keeps (storingEffects S) (Storing S) (after fence)) (shard : ShardId) (target : IncarnationId)
    (fences : List FenceRecord) : Keeps (storingEffects S) (Storing S) (acknowledgeFences shard target after fences) := by
  induction fences with
  | nil => exact Keeps.pure _
  | cons fence fences ih =>
    unfold acknowledgeFences
    split
    · exact checked_storing _ (Keeps.bind (hafter fence) fun _ => ih)
    · exact ih

theorem revokeReplaced_storing (manifest : EvolutionManifest) (view : AuthorityView) :
    Keeps (storingEffects S) (Storing S) (revokeReplaced manifest view) := by
  unfold revokeReplaced
  refine get_keeps fun c => ?_
  split
  · exact Keeps.pure _
  · split
    · exact Keeps.pure _
    · refine Keeps.bind (acknowledgeFences_storing (fun _ => Keeps.pure _) _ _ _) fun _ => ?_
      exact checked_storing _ (Keeps.bind now_storing fun atMs => append_storing _)

theorem isValid_of_replacing {stored : Option NodeReport} {recorded : IncarnationId} {report : NodeReport}
    (hstored : ∀ report, stored = some report → report.incarnation.isValid = true)
    (h : replacing stored recorded = some report) : report.incarnation.isValid = true :=
  hstored report (Option.filter_eq_some_iff.mp h).1

theorem rebindSuccessor_storing : Keeps (storingEffects S) (Storing S) rebindSuccessor := by
  unfold rebindSuccessor
  refine get_storing fun c hc => Finds.bind theHandoff_finds fun handoff hhandoff => ?_
  split
  · exact Keeps.pure _
  · rename_i report hreport
    have hvalid := isValid_of_replacing hc.target hreport
    split
    · exact restartHandoff_storing hhandoff.predecessor hvalid _ _
    · exact Keeps.bind (modifyHandoff_storing fun _ hs => { hs with successor := hvalid }) fun _ => save_storing

theorem reconcileIncarnations_storing : Keeps (storingEffects S) (Storing S) reconcileIncarnations := by
  unfold reconcileIncarnations
  refine get_keeps fun c => ?_
  split
  · refine Keeps.bind (Keeps.attempt (view_storing _)) fun view => ?_
    split
    · exact Keeps.pure _
    · refine Keeps.bind (revokeReplaced_storing _ _) fun _ => get_storing fun c hc => ?_
      refine Finds.bind theHandoff_finds fun handoff hhandoff => ?_
      split
      · exact rebindSuccessor_storing
      · rename_i report hreport
        have hvalid := isValid_of_replacing hc.source hreport
        split
        · exact restartHandoff_storing hvalid hhandoff.successor _ _
        · exact rebindSuccessor_storing
  · exact Keeps.pure _

end Control

end FabricEvolution
