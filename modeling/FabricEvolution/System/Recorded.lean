import FabricEvolution.System.Course

/-!
# What is durable before the next step

* `Durable.IsBehind` : the campaign or the handoff on file is behind the one in memory;
* `recordingPolicy` : writes do not fail while the file is behind, and no operation begins with a handoff whose
  creation was cut short;
* `recordPhase_exact`, `applyAction_exact`, `restartHandoff_exact` : the records move in memory and on file, or
  not at all;
* `durable_before_next` : no call of a step is issued before the phase it belongs to is on file.
-/

namespace FabricEvolution
open Lib

/-! ## Memory and file -/

/-- How far the handoff has come: record, attempt, phase. -/
def ControllerCore.progress (core : ControllerCore) : Option (Nat × Nat × HandoffPhase) :=
  core.handoff.map fun h => (h.id, h.attempt, h.phase)

/-- How far the campaign has come. -/
def campaignProgress (campaign : Option CampaignRecord) : Option (CampaignState × Nat) :=
  campaign.map fun campaign => (campaign.state, campaign.revision)

/-- The campaign or the handoff on file is behind the one in memory; a handoff whose creation is not complete does not
count. -/
def Durable.IsBehind (d : Durable) (c : Controller) : Prop :=
  campaignProgress d.campaign ≠ campaignProgress c.campaign ∨ d.handoff ≠ none ∧ d.core.progress ≠ c.core.progress

/-- The state file has the campaign and the handoff of the memory. -/
def Controller.OnFile (c : Controller) (w : World) : Prop :=
  ∃ d, w.disk = some d ∧ d.campaign = c.campaign ∧ d.handoff = c.handoff

/-- The state file has the handoff as far as the memory. -/
def ControllerCore.Recorded (core : ControllerCore) (w : World) : Prop :=
  ∃ d, w.disk = some d ∧ d.core.progress = core.progress

/-- Appends and saves do not fail while the file is behind, and no operation begins with a handoff that is not on file. -/
def recordingPolicy : SystemPolicy World where
  command _ c w := c.handoff ≠ none → ∀ d, w.disk = some d → d.handoff ≠ none
  exec _ c choice w := ∀ refusal, choice = .failed refusal → ∀ d, w.disk = some d → ¬ d.IsBehind c

theorem Controller.onFile_of_toDurable {c : Controller} {w : World} (h : w.disk = some c.toDurable) : c.OnFile w :=
  ⟨_, h, rfl, rfl⟩

/-! ## Effects with memory and file named -/

namespace Control
variable {S : SystemSetup} {mid : ControllerOp → Controller → World → Prop} {α β : Type}

/-- The memory is `c₀`, the file `d₀`. -/
def Exactly (c₀ : Controller) (d₀ : Durable) : Controller → World → Prop := fun c w => c = c₀ ∧ w.disk = some d₀

/-- The marks of clock, journal and state file ask for nothing. -/
def LocalMid (mid : ControllerOp → Controller → World → Prop) : Prop := ∀ o c w, ControllerOp.isLocal o = true → mid o c w

variable {c₀ c₁ : Controller} {d₀ : Durable} {R : Except Status β → Controller → World → Prop}

theorem now_exact (hmid : LocalMid mid) :
    Triple ((machine S).effects recordingPolicy mid) (Exactly c₀ d₀) now (Triple.between (fun _ => Exactly c₀ d₀) R) := by
  refine Triple.perform fun c w hp w₀ henv => ⟨hmid _ _ _ rfl, fun x w₁ hx => ⟨hp.1, ?_⟩⟩
  obtain ⟨choice, -, hperform⟩ := hx
  rcases perform_disk hperform with hdisk | ⟨h, -⟩
  · rw [hdisk, env_disk henv]
    exact hp.2
  · cases h

/-- While the file is behind, an append does not fail. -/
theorem append_exact (hmid : LocalMid mid) (hbehind : d₀.IsBehind c₀) (event : EpochEvent) :
    Triple ((machine S).effects recordingPolicy mid) (Exactly c₀ d₀) (append event)
      (Triple.between (fun _ => Exactly c₀ d₀) R) := by
  refine Triple.seq (S := fun x c w => x = .ok () ∧ Exactly c₀ d₀ c w) (Triple.perform fun c w hp w₀ henv =>
    ⟨hmid _ _ _ rfl, fun x w₁ hx => ?_⟩) fun x => Triple.lift fun c w hp => ?_
  · obtain ⟨choice, hpolicy, hperform⟩ := hx
    have hdisk₀ : w₀.disk = some d₀ := (env_disk henv).trans hp.2
    cases choice with
    | stored =>
      cases hperform
      exact ⟨rfl, hp.1, hdisk₀⟩
    | failed refusal => exact absurd (hp.1 ▸ hbehind) (hpolicy refusal rfl d₀ hdisk₀)
    | _ => cases hperform
  · obtain ⟨rfl, hp⟩ := hp
    exact hp

/-- Nor does a save. -/
theorem save_exact (hmid : LocalMid mid) (hbehind : d₀.IsBehind c₀) :
    Triple ((machine S).effects recordingPolicy mid) (Exactly c₀ d₀) save
      (fun r c w => r = .ok () ∧ c = c₀ ∧ w.disk = some c.toDurable) := by
  refine Triple.seq (S := fun x c w => x = .ok () ∧ c = c₀ ∧ w.disk = some c.toDurable) (Triple.perform fun c w hp w₀ henv =>
    ⟨hmid _ _ _ rfl, fun x w₁ hx => ?_⟩) fun x => Triple.lift fun c w hp => hp
  obtain ⟨choice, hpolicy, hperform⟩ := hx
  cases choice with
  | stored =>
    cases hperform
    exact ⟨rfl, hp.1, rfl⟩
  | failed refusal => exact absurd (hp.1 ▸ hbehind) (hpolicy refusal rfl d₀ ((env_disk henv).trans hp.2))
  | _ => cases hperform

/-- A save whose failure is not looked at. -/
theorem saveQuietly_either (hmid : LocalMid mid) :
    Triple ((machine S).effects recordingPolicy mid) (Exactly c₀ d₀) saveQuietly
      (Triple.between (fun _ c w => c = c₀ ∧ (w.disk = some d₀ ∨ w.disk = some c.toDurable)) R) := by
  refine Triple.seq (S := fun _ c w => c = c₀ ∧ (w.disk = some d₀ ∨ w.disk = some c.toDurable)) (Triple.attempt ?_)
    fun _ => Triple.pure fun _ _ hp => hp
  refine Triple.seq (S := fun _ c w => c = c₀ ∧ (w.disk = some d₀ ∨ w.disk = some c.toDurable)) (Triple.perform
    fun c w hp w₀ henv => ⟨hmid _ _ _ rfl, fun x w₁ hx => ⟨hp.1, ?_⟩⟩) fun _ => Triple.lift fun _ _ hp => hp
  obtain ⟨choice, -, hperform⟩ := hx
  rcases perform_disk hperform with hdisk | ⟨-, hdisk⟩
  · exact .inl (hdisk.trans ((env_disk henv).trans hp.2))
  · exact .inr hdisk

theorem modify_exact {g : Controller → Controller} :
    Triple ((machine S).effects recordingPolicy mid) (Exactly c₀ d₀) (Eff.modify g)
      (Triple.between (fun _ => Exactly (g c₀) d₀) R) := by
  refine Triple.modify fun c w hp => ?_
  obtain ⟨rfl, hdisk⟩ := hp
  exact ⟨rfl, hdisk⟩

/-- Nothing has moved, or all of it is on file. -/
def Settled (c₀ : Controller) (d₀ : Durable) (c : Controller) (w : World) : Prop :=
  (c.campaign = c₀.campaign ∧ c.handoff = c₀.handoff) ∧ w.disk = some d₀ ∨ w.disk = some c.toDurable

section
variable {E : SystemEffects World}

theorem get_exact {f : Controller → Control β} (h : Triple E (Exactly c₀ d₀) (f c₀) R) : Triple E (Exactly c₀ d₀) (Eff.get >>= f) R := by
  refine Triple.get fun c => ?_
  rintro _ w ⟨rfl, rfl, hdisk⟩
  exact h _ w ⟨rfl, hdisk⟩

theorem theHandoff_exact {f : HandoffRecord → Control β} (hsome : c₀.handoff ≠ none)
    (h : ∀ handoff, Triple E (Exactly c₀ d₀) (f handoff) R) : Triple E (Exactly c₀ d₀) (theHandoff >>= f) R := by
  obtain ⟨handoff, hhandoff⟩ := Option.ne_none_iff_exists'.mp hsome
  refine Triple.seq (S := fun _ => Exactly c₀ d₀) (get_exact ?_) h
  rw [hhandoff]
  exact Triple.lift fun _ _ hp => hp

theorem theCampaign_exact {f : CampaignRecord → Control β} (hsome : c₀.campaign ≠ none)
    (h : ∀ campaign, Triple E (Exactly c₀ d₀) (f campaign) R) : Triple E (Exactly c₀ d₀) (theCampaign >>= f) R := by
  obtain ⟨campaign, hcampaign⟩ := Option.ne_none_iff_exists'.mp hsome
  refine Triple.seq (S := fun _ => Exactly c₀ d₀) (get_exact ?_) h
  rw [hcampaign]
  exact Triple.lift fun _ _ hp => hp

end

theorem settled_of_exactly {c : Controller} {w : World} (h : Exactly c₀ d₀ c w) : Settled c₀ d₀ c w := by
  obtain ⟨rfl, hdisk⟩ := h
  exact .inl ⟨⟨rfl, rfl⟩, hdisk⟩

/-- The end of a move: journal and file, with the file behind. -/
theorem file_exact (hmid : LocalMid mid) (hbehind : d₀.IsBehind c₁) (event : EpochEvent) :
    Triple ((machine S).effects recordingPolicy mid) (Exactly c₁ d₀) (append event >>= fun _ => save)
      fun _ => Settled c₀ d₀ :=
  Triple.seq (append_exact hmid hbehind event) fun _ => (save_exact hmid hbehind).post fun _ _ _ hp => .inr hp.2.2

theorem not_valid_of_halted {phase target : HandoffPhase} (hhalted : phase.isForward = false) (hne : phase ≠ target) :
    validateHandoffTransition phase target ≠ .ok () := by
  have hstart : phase ≠ .notStarted := by
    rintro rfl
    cases hhalted
  simp [validateHandoffTransition, hne, hhalted, hstart]

/-- A phase is entered in memory and on file, or not at all. -/
theorem recordPhase_exact (hmid : LocalMid mid) {target : HandoffPhase} {note : String}
    (hprogress : d₀.core.progress = c₀.core.progress ∨ c₀.handoff.any (!·.phase.isForward) = true) :
    Triple ((machine S).effects recordingPolicy mid) (Exactly c₀ d₀) (recordPhase target note) fun _ => Settled c₀ d₀ := by
  refine get_exact ?_
  split
  · rename_i handoff campaign manifest hhandoff hcampaign hmanifest
    split
    · exact Triple.throw fun _ _ => settled_of_exactly
    · rename_i hvalid
      split_ifs with heq
      · exact Triple.pure fun _ _ => settled_of_exactly
      · refine Triple.seq (now_exact hmid) fun atMs => Triple.seq modify_exact fun _ => ?_
        refine Triple.seq (now_exact hmid) fun updatedAtMs => Triple.seq modify_exact fun _ => Triple.seq modify_exact fun _ => ?_
        refine Triple.seq (now_exact hmid) fun eventAtMs => ?_
        refine theHandoff_exact (by simp [syncTerms, hhandoff]) fun moved => file_exact hmid (.inr ?_) _
        have hstrict : d₀.core.progress = some (handoff.id, handoff.attempt, handoff.phase) := by
          rcases hprogress with hprogress | hhalted
          · rw [hprogress]
            simp [ControllerCore.progress, Controller.core, hhandoff, HandoffRecord.core]
          · exact absurd hvalid (not_valid_of_halted (by simpa [hhandoff] using hhalted) heq)
        refine ⟨fun hnone => ?_, ?_⟩
        · simp [ControllerCore.progress, Durable.core, hnone] at hstrict
        · rw [hstrict, core_syncTerms]
          simp [ControllerCore.progress, Controller.core, hhandoff, HandoffRecord.core, HandoffRecord.moved, heq]
  · exact Triple.throw fun _ _ => settled_of_exactly

theorem wrapAdd_one_ne (n : Nat) : wrapAdd n 1 ≠ n := by
  unfold wrapAdd
  omega

/-- So is the state of a campaign. -/
theorem applyAction_exact (hmid : LocalMid mid) (action : CampaignAction)
    (hprogress : campaignProgress d₀.campaign = campaignProgress c₀.campaign) :
    Triple ((machine S).effects recordingPolicy mid) (Exactly c₀ d₀) (applyAction action) fun _ => Settled c₀ d₀ := by
  refine get_exact ?_
  split
  · rename_i campaign manifest hcampaign hmanifest
    split
    · exact Triple.throw fun _ _ => settled_of_exactly
    · refine Triple.seq modify_exact fun _ => Triple.seq (now_exact hmid) fun deferralMs => Triple.seq modify_exact fun _ => ?_
      refine Triple.seq (saveQuietly_either hmid) fun _ => Triple.throw fun c w hp => ?_
      obtain ⟨rfl, hdisk⟩ := hp
      exact hdisk.imp (fun hdisk => ⟨⟨rfl, rfl⟩, hdisk⟩) id
    · refine Triple.seq modify_exact fun _ => Triple.seq (now_exact hmid) fun updatedAtMs => Triple.seq modify_exact fun _ => ?_
      refine Triple.seq (now_exact hmid) fun atMs => Triple.seq modify_exact fun _ => Triple.seq (now_exact hmid) fun eventAtMs => ?_
      refine theCampaign_exact (by simp [hcampaign]) fun moved => file_exact hmid (.inl ?_) _
      rw [hprogress]
      simp [campaignProgress, hcampaign, (wrapAdd_one_ne campaign.revision).symm]
  · exact Triple.throw fun _ _ => settled_of_exactly

/-- So is a rewind. -/
theorem restartHandoff_exact (hmid : LocalMid mid) {predecessor successor : IncarnationId} {target : HandoffPhase}
    {note : String} (hprogress : d₀.core.progress = c₀.core.progress) :
    Triple ((machine S).effects recordingPolicy mid) (Exactly c₀ d₀) (restartHandoff predecessor successor target note)
      fun _ => Settled c₀ d₀ := by
  cases hhandoff : c₀.handoff with
  | none =>
    refine Triple.seq (S := fun _ _ _ => False) (get_exact ?_) fun _ _ _ hno => hno.elim
    rw [hhandoff]
    exact Triple.throw fun _ _ => settled_of_exactly
  | some handoff =>
    refine theHandoff_exact (by simp [hhandoff]) fun found => ?_
    split
    · exact Triple.throw fun _ _ => settled_of_exactly
    · split
      · exact Triple.throw fun _ _ => settled_of_exactly
      · refine Triple.seq (now_exact hmid) fun atMs => Triple.seq modify_exact fun _ => Triple.seq modify_exact fun _ => ?_
        refine Triple.seq (now_exact hmid) fun updatedAtMs => Triple.seq modify_exact fun _ => ?_
        refine Triple.seq (now_exact hmid) fun eventAtMs => theHandoff_exact (by simp [hhandoff]) fun moved => ?_
        refine file_exact hmid (.inr ⟨fun hnone => ?_, ?_⟩) _
        · simp [ControllerCore.progress, Durable.core, Controller.core, hnone, hhandoff] at hprogress
        · rw [hprogress]
          unfold HandoffRecord.rewound
          split_ifs <;> simp [ControllerCore.progress, Controller.core, hhandoff, HandoffRecord.core]

end Control

/-! ## The file behind the memory, at most by a handoff that begins -/

/-- The calls made in a phase; before the first, grants and re-attestations still belong to the creation of the handoff. -/
def NodeRequest.isStepIn (request : NodeRequest) (phase : HandoffPhase) : Bool :=
  match request with
  | .grantAuthority _ | .reattest _ => phase.isForward && phase ≠ .notStarted
  | _ => phase.isForward

/-- A call of a step is only due with the handoff on file. -/
def recordingMid (o : ControllerOp) (c : Controller) (w : World) : Prop :=
  ∀ role request h, o = .call role request → c.core.handoff = some h → request.isStepIn h.phase = true → c.core.Recorded w

/-- A property of the handoff in memory and of the state file. -/
def OnDisk (F : Option HandoffCore → Durable → Prop) : Assertion World := fun core w => ∃ d, w.disk = some d ∧ F core.handoff d

/-- The file has the handoff as far as the memory, unless the handoff has halted. -/
def Durably : Assertion World := OnDisk fun handoff d =>
  d.core.progress = handoff.map (fun h => (h.id, h.attempt, h.phase)) ∨ handoff.any (!·.phase.isForward) = true

/-- A handoff begins that may not be on file. -/
def Fresh : Assertion World := OnDisk fun handoff d =>
  (d.core.handoff = none ∨ d.core.progress = handoff.map fun h => (h.id, h.attempt, h.phase)) ∧
    ∀ h, handoff = some h → h.phase = .notStarted

section
variable {S : SystemSetup}

abbrev recordingEffects (S : SystemSetup) : SystemEffects World := (machine S).effects recordingPolicy recordingMid

theorem localMid_recording : Control.LocalMid recordingMid := by
  rintro o c w ho role request h rfl
  cases ho

theorem onDisk_admits {F : Option HandoffCore → Durable → Prop} {o : ControllerOp}
    (hstored : ∀ handoff d d', F handoff d → d'.core.handoff = handoff → F handoff d')
    (hmid : ∀ c w, OnDisk F c.core w → recordingMid o c w) : Admits (recordingEffects S) (OnDisk F) o := by
  intro c w hp w₀ henv
  have hp₀ : OnDisk F c.core w₀ := by
    unfold OnDisk
    rw [env_disk henv]
    exact hp
  refine ⟨hmid c w₀ hp₀, fun x w₁ hx => ?_⟩
  obtain ⟨choice, -, hperform⟩ := hx
  obtain ⟨d, hd, hF⟩ := hp₀
  have hcore : (o.coreAfter x c.core).handoff = c.core.handoff := by cases o <;> rfl
  unfold OnDisk
  rw [hcore]
  rcases perform_disk hperform with hdisk | ⟨-, hdisk⟩
  · exact ⟨d, hdisk.trans hd, hF⟩
  · exact ⟨c.toDurable, hdisk, hstored _ _ _ hF rfl⟩

theorem durably_admits (o : ControllerOp) : Admits (recordingEffects S) Durably o := by
  refine onDisk_admits (fun handoff d d' _ hd => .inl (by rw [← hd]; rfl)) ?_
  rintro c w ⟨d, hd, hdurable⟩ role request h rfl hh hstep
  refine ⟨d, hd, ?_⟩
  rcases hdurable with hprogress | hhalted
  · exact hprogress
  · have hforward : h.phase.isForward = true := by
      unfold NodeRequest.isStepIn at hstep
      split at hstep
      · exact (Bool.and_eq_true _ _ ▸ hstep).1
      · exact (Bool.and_eq_true _ _ ▸ hstep).1
      · exact hstep
    rw [hh] at hhalted
    simp [hforward] at hhalted

theorem durably_calm : Calm (recordingEffects S) Durably := fun o _ => durably_admits o

theorem fresh_admits {o : ControllerOp} (ho : ∀ role request, o = .call role request → request.isStepIn .notStarted = false) :
    Admits (recordingEffects S) Fresh o := by
  refine onDisk_admits (fun handoff d d' hF hd => ⟨.inr (by rw [← hd]; rfl), hF.2⟩) ?_
  rintro c w ⟨d, hd, -, hphase⟩ role request h rfl hh hstep
  rw [hphase h hh, ho role request rfl] at hstep
  cases hstep

theorem fresh_still : Still (recordingEffects S) Fresh := fun o ho => fresh_admits fun role request heq => by
  subst heq
  cases ho

theorem fresh_holder (role : NodeRole) (holder : IncarnationId) : Control.HolderRules (recordingEffects S) Fresh role holder where
  grant _ _ _ := fun c w hp => fresh_admits (by rintro role request ⟨⟩) c w hp.1
  deliver _ := fresh_admits (by rintro _ _ ⟨⟩; rfl)
  reattest _ := fresh_admits (by rintro _ _ ⟨⟩; rfl)
  revoke _ _ _ := fresh_admits (by rintro _ _ ⟨⟩)
  reattested _ _ := fresh_admits (by rintro _ _ ⟨⟩)

theorem durably_of_strict {core : ControllerCore} {w : World} {d : Durable} (hd : w.disk = some d)
    (h : d.core.progress = core.progress) : Durably core w := ⟨d, hd, .inl h⟩

end

namespace Control
variable {S : SystemSetup}

/-! ## Operations -/

theorem progress_core (c : Controller) :
    c.core.progress = c.core.handoff.map fun h => (h.id, h.attempt, h.phase) := rfl

/-- With the file as far as the memory, or the handoff halted, a settled move ends that way. -/
theorem durably_of_settled {c₀ c : Controller} {d₀ : Durable} {w w₀ : World} (h : Settled c₀ d₀ c w)
    (hd : w₀.disk = some d₀) (hdurably : Durably c₀.core w₀) : Durably c.core w := by
  obtain ⟨d, hd', hF⟩ := hdurably
  obtain rfl : d = d₀ := Option.some.inj (hd'.symm.trans hd)
  rcases h with ⟨⟨-, hhandoff⟩, hdisk⟩ | hdisk
  · refine ⟨d, hdisk, ?_⟩
    rwa [show c.core.handoff = c₀.core.handoff by simp [Controller.core, hhandoff]]
  · exact durably_of_strict hdisk rfl

/-- A move that is settled from every memory and file keeps the assertion. -/
theorem durably_of_exactly {m : Control Unit} {Γ : Controller → World → Prop}
    (h : ∀ c₀ d₀ w₀, Γ c₀ w₀ → w₀.disk = some d₀ →
      (d₀.core.progress = c₀.core.progress ∨ c₀.core.handoff.any (!·.phase.isForward) = true) →
      Triple (recordingEffects S) (Exactly c₀ d₀) m fun _ => Settled c₀ d₀) :
    Triple (recordingEffects S) (fun c w => Γ c w ∧ Durably.at c w) m fun _ => Durably.at := by
  rintro c w ⟨hΓ, d, hd, hF⟩
  refine Prog.wp_mono (fun r w' hr => ?_) (h c d w hΓ hd hF c w ⟨rfl, hd⟩)
  exact durably_of_settled hr hd ⟨d, hd, hF⟩

theorem any_halted (c : Controller) :
    c.core.handoff.any (!·.phase.isForward) = c.handoff.any (!·.phase.isForward) := by
  cases h : c.handoff <;> simp [Controller.core, h, HandoffRecord.core]

theorem durably_phase (target : HandoffPhase) : Records (recordingEffects S) Durably target := by
  intro note
  refine (durably_of_exactly (Γ := fun _ _ => True) fun c₀ d₀ w₀ _ _ hprogress => ?_).pre fun c w hp => ⟨trivial, hp⟩
  rw [any_halted] at hprogress
  exact recordPhase_exact localMid_recording hprogress

theorem durably_restart {handoff : HandoffRecord} {predecessor successor : IncarnationId} {target : HandoffPhase}
    {note : String} {A : Controller → World → Prop} (hphase : handoff.phase.isForward = true) :
    Triple (recordingEffects S) (fun c w => (c.handoff = some handoff ∧ A c w) ∧ Durably.at c w)
      (restartHandoff predecessor successor target note) fun _ => Durably.at := by
  refine durably_of_exactly fun c₀ d₀ w₀ hΓ _ hprogress => restartHandoff_exact localMid_recording ?_
  rcases hprogress with hprogress | hhalted
  · exact hprogress
  · rw [any_halted, hΓ.1] at hhalted
    simp [hphase] at hhalted

theorem HandoffPhase.isForward_of_value_lt {phase : HandoffPhase}
    (h : phase.value < HandoffPhase.authorityTransferred.value) : phase.isForward = true := by
  revert h
  cases phase <;> decide

theorem durably_restarts : RestartRules (recordingEffects S) Durably where
  predecessor handoff report note hphase :=
    durably_restart (HandoffPhase.isForward_of_value_lt (hphase.trans (by decide)))
  successor handoff report note hphase := durably_restart (HandoffPhase.isForward_of_value_lt hphase)
  rebound core w handoff report hp hhandoff _ _ := by
    obtain ⟨d, hd, hF⟩ := hp
    refine ⟨d, hd, ?_⟩
    simpa [ControllerCore.rebound, hhandoff] using hF

theorem durably_action (action : CampaignAction) : Keeps (recordingEffects S) Durably.at (applyAction action) :=
  applyAction_triple durably_calm durably_calm (fun _ _ hp => hp) fun _ _ _ _ _ _ _ hp _ _ _ => hp

theorem durably_steps : StepRules S.controller (recordingEffects S) Durably where
  effect o _ := durably_admits o
  reports _ _ _ _ hp := hp
  phase target _ := durably_phase target
  action := durably_action
  failed _ _ hp := hp
  incarnations := durably_restarts.reconcileIncarnations durably_calm (fun _ _ _ => durably_admits _) fun _ _ _ => durably_admits _
  replaced := reconcilePredecessor_restarts (fun _ _ hp => hp) fun handoff report note _ _ hphase =>
    durably_restart (HandoffPhase.isForward_of_value_lt (hphase.trans (by decide)))
  rollBack manifest := by
    refine rollBack_keeps (R := Durably) durably_calm durably_calm (fun _ _ hp => hp) (fun _ => durably_admits _)
      (fun _ => durably_admits _) (fun _ => durably_admits _) ?_ (fun _ _ hp _ => hp) (durably_action _) manifest
    rintro core w ⟨d, hd, hF⟩
    refine ⟨d, hd, ?_⟩
    cases hhandoff : core.handoff with
    | none => simpa [ControllerCore.inPhase, hhandoff] using hF
    | some h => exact .inr (by simp [ControllerCore.inPhase, hhandoff]; rfl)

/-- What is left if a handoff does not get to its beginning. -/
def Begun : Assertion World := fun core w => Durably core w ∨ Fresh core w

theorem fresh_of_durably {core : ControllerCore} {w : World} (h : Durably core w) (hnone : core.handoff = none) :
    Fresh core w := by
  obtain ⟨d, hd, hF⟩ := h
  refine ⟨d, hd, .inl ?_, by simp [hnone]⟩
  rw [hnone] at hF
  simpa [ControllerCore.progress] using hF

theorem save_fresh : Triple (recordingEffects S) Fresh.at save
    (Triple.between (fun _ => Durably.at) fun (_ : Except Status Unit) => Fresh.at) := by
  refine Triple.seq (S := fun x c w => Fresh.at c w ∧ (x = .ok () → w.disk = some c.toDurable)) (Triple.perform
    fun c w hp w₀ henv => ?_) fun x => Triple.lift fun c w hp => ?_
  · obtain ⟨hmid, hexec⟩ := fresh_still (S := S) .save rfl c w hp w₀ henv
    refine ⟨hmid, fun x w₁ hx => ⟨hexec x w₁ hx, ?_⟩⟩
    obtain ⟨choice, -, hperform⟩ := hx
    rintro rfl
    cases choice <;> cases hperform
    rfl
  · cases x with
    | error refusal => exact hp.1
    | ok u => exact durably_of_strict (hp.2 rfl) rfl

/-- Until the record of the handoff is created. -/
def Early : Assertion World := fun core w => Durably core w ∧ core.handoff = none

theorem early_calm : Calm (recordingEffects S) Early := durably_calm.andCore _

theorem early_action (action : CampaignAction) : Keeps (recordingEffects S) Early.at (applyAction action) :=
  applyAction_triple early_calm early_calm (fun _ _ hp => hp) fun c w _ _ _ _ _ hp _ _ _ =>
    ⟨hp.1, by simpa [ControllerCore.inState] using hp.2⟩

theorem durably_begin : Passes (recordingEffects S) Durably Begun (beginHandoff S.controller) := by
  have hearly : ∀ (refusal : Status) (c : Controller) w, Early.at c w →
      Triple.between (fun (_ : Unit) => Durably.at) (fun (_ : Except Status Unit) => Begun.at) (.error refusal) c w :=
    fun _ _ _ hp => .inl hp.1
  have hfresh : ∀ (refusal : Status) (c : Controller) w, Fresh.at c w →
      Triple.between (fun (_ : Unit) => Durably.at) (fun (_ : Except Status Unit) => Begun.at) (.error refusal) c w :=
    fun _ _ _ hp => .inr hp
  unfold beginHandoff
  refine Triple.get fun c₀ => ?_
  split
  · exact Triple.pure fun c w hp => hp.2
  · rename_i manifest _ _ _ hhandoff
    refine Triple.pre (P := Early.at) ?_ fun c w hp => ⟨hp.2, by simp [hp.1, Controller.core, hhandoff]⟩
    refine Keeps.seq (early_action .start) hearly fun _ => ?_
    refine Keeps.seq (bindNodes_keeps early_calm fun _ _ _ _ hp => hp) hearly fun _ => ?_
    -- From here on the handoff may be in memory alone.
    refine Triple.seq (S := fun _ => Fresh.at) ((createHandoff_triple (Q := Fresh) early_calm.still manifest
      (fun _ _ hp => fresh_of_durably hp.1 hp.2) fun core w source target hp _ _ => ?_).post fun r c w hp => ?_) fun _ => ?_
    · obtain ⟨d, hd, hnone, -⟩ := fresh_of_durably hp.1 hp.2
      refine ⟨d, hd, .inl ?_, fun h hh => by cases hh; rfl⟩
      rcases hnone with hnone | hprogress
      · exact hnone
      · simpa [hp.2, ControllerCore.progress] using hprogress
    · cases r with
      | error refusal => exact hfresh refusal c w hp
      | ok u => exact hp
    refine Keeps.seq (ensurePredecessorAuthority_keeps fresh_still (fresh_holder _)) hfresh fun _ => ?_
    refine Triple.seq (S := fun _ => Fresh.at) ((recordPredecessorClaim_triple fresh_still manifest (T := fun _ _ => True)
      (fun _ _ _ _ _ _ _ _ => trivial) fun _ _ _ _ _ _ hp _ _ _ _ _ _ => hp).post fun r c w hp => ?_) fun _ => ?_
    · cases r with
      | error refusal => exact hfresh refusal c w hp
      | ok u => exact hp.1
    refine Keeps.seq (openWindow_keeps fresh_still manifest fun _ _ _ hp => hp) hfresh fun _ => ?_
    refine save_fresh.post fun r c w hp => ?_
    cases r with
    | error refusal => exact hfresh refusal c w hp
    | ok u => exact hp
  · exact Triple.throw fun c w hp => .inl hp.2

theorem durably_migrate (manifest : EvolutionManifest) : Keeps (recordingEffects S) Durably.at (migrateSuccessor manifest) := by
  unfold migrateSuccessor
  refine Keeps.bind theHandoff_keeps fun handoff => Keeps.bind (callOk_keeps (durably_admits _)) fun migrated => ?_
  split
  · refine Keeps.bind (Keeps.modify fun c w hp => hp) fun _ => ?_
    exact Keeps.bind (now_calm durably_calm) fun atMs => append_calm durably_calm _
  · exact Keeps.pure _

theorem durably_plan (manifest : EvolutionManifest) : Keeps (recordingEffects S) Durably.at (plan S.controller manifest) :=
  plan_triple (A := fun _ => Durably) (B := fun _ => Durably) (fun _ => durably_calm) (fun _ => durably_calm .now rfl) durably_calm
    (fun _ _ hp => hp) (fun _ _ _ hp => hp) (fun _ _ _ hp _ _ => hp) (fun _ _ _ => durably_admits _) (fun _ _ _ hp => hp)
    fun _ _ _ hp => hp

/-- An operation admitted by the policy begins with the handoff on file. -/
theorem durably_of_begun {op : AdminOp} {c : Controller} {w : World} (h : Begun.at c w)
    (hpolicy : recordingPolicy.command op c w) : Durably.at c w := by
  rcases h with hp | ⟨d, hd, hfile, hphase⟩
  · exact hp
  · refine ⟨d, hd, .inl ?_⟩
    rcases hfile with hnone | hprogress
    · cases hhandoff : c.handoff with
      | none => simp [ControllerCore.progress, hnone, Controller.core, hhandoff]
      | some handoff =>
        refine absurd ?_ (hpolicy (by simp [hhandoff]) d hd)
        simpa [Durable.core] using hnone
    · exact hprogress

theorem begun_sound : (machine S).Sound recordingPolicy recordingMid Begun.at fun _ => True where
  command op := durably_steps.keeps (fun _ _ hp => .inl hp) durably_begin durably_migrate
    (durably_steps.verify (durably_phase _)) (fun _ _ hp => durably_of_begun hp.1 hp.2) fun manifest _ =>
      (durably_plan manifest).pre fun _ _ hp => durably_of_begun hp.1 hp.2
  world e w w' _ hafter := by
    refine ⟨fun c hp => ?_, id⟩
    have hdisk := after_disk hafter
    simpa [Assertion.at, Begun, Durably, Fresh, OnDisk, hdisk] using hp
  crash _ _ _ := ⟨fun _ => trivial, fun _ _ => trivial⟩
  boot b w c w' _ hboot := by
    obtain ⟨rfl, -⟩ := openController_cases hboot
    exact .inl (durably_of_strict rfl rfl)

/-! ## The two records that move -/

theorem onFile_of_settled {c₀ c : Controller} {d₀ : Durable} {w w₀ : World} (h : Settled c₀ d₀ c w) (hd : w₀.disk = some d₀)
    (hfile : c₀.OnFile w₀) : c.OnFile w := by
  obtain ⟨d, hd', hcampaign, hhandoff⟩ := hfile
  obtain rfl : d = d₀ := Option.some.inj (hd'.symm.trans hd)
  rcases h with ⟨⟨hcampaign', hhandoff'⟩, hdisk⟩ | hdisk
  · exact ⟨d, hdisk, hcampaign.trans hcampaign'.symm, hhandoff.trans hhandoff'.symm⟩
  · exact Controller.onFile_of_toDurable hdisk

/-- The computations that move a record: a phase entered, an action applied. -/
inductive MovesRecord : Control Unit → Prop
  | phase (target : HandoffPhase) (note : String) : MovesRecord (recordPhase target note)
  | action (action : CampaignAction) : MovesRecord (applyAction action)

theorem onFile_keeps {m : Control Unit} (hm : MovesRecord m) :
    Keeps ((machine S).effects recordingPolicy fun _ _ _ => True) Controller.OnFile m := by
  rintro c w hfile
  obtain ⟨d, hd, hcampaign, hhandoff⟩ := hfile
  have hlocal : LocalMid fun _ _ _ => True := fun _ _ _ _ => trivial
  have hsettled : Triple ((machine S).effects recordingPolicy fun _ _ _ => True) (Exactly c d) m fun _ => Settled c d := by
    cases hm with
    | phase target note =>
      exact recordPhase_exact hlocal (.inl (by simp [ControllerCore.progress, Durable.core, Controller.core, hhandoff]))
    | action action => exact applyAction_exact hlocal action (by rw [hcampaign])
  refine Prog.wp_mono (fun r w' hr => ?_) (hsettled c w ⟨rfl, hd⟩)
  exact onFile_of_settled hr hd ⟨d, hd, hcampaign, hhandoff⟩

end Control

open Control in
/-- While writes do not fail with the file behind, and no operation begins with a handoff that never reached the file: every
call of a step is issued with the phase before it on file, and a phase or an action whose recording began with the
records on file ends so, refused or not. -/
theorem durable_before_next {S : SystemSetup} :
    (∀ clock source target sourceUuid targetUuid es role request c k w h,
      Run ((machine S).step recordingPolicy) (S.start clock source target sourceUuid targetUuid) es
        (.running (.op (.call role request) c k) w) →
      c.core.handoff = some h → request.isStepIn h.phase = true → c.core.Recorded w) ∧
    ∀ m c w es r c' w', MovesRecord m → c.OnFile w →
      Run ((machine S).step recordingPolicy) (.running (m c) w) es (.running (.ret (r, c')) w') →
      (∀ e ∈ es, Machine.isInner e = true) → c'.OnFile w' := by
  constructor
  · intro clock source target sourceUuid targetUuid es role request c k w h hrun hhandoff hstep
    have hholds := begun_sound.run_holds hrun trivial
    exact hholds.due role request h rfl hhandoff hstep
  · intro m c w es r c' w' hm hfile hrun hes
    have hstable : ∀ (r : Except Status Unit × Controller) w w', r.2.OnFile w →
        ((machine S).effects recordingPolicy fun _ _ _ => True).env w w' → r.2.OnFile w' := by
      rintro r w w' ⟨d, hd, hsame⟩ henv
      exact ⟨d, (env_disk henv).trans hd, hsame⟩
    obtain ⟨p, w₁, ht, hp⟩ := Machine.wp_of_run hstable hrun hes (onFile_keeps hm c w hfile)
    cases ht
    exact hp

/-! ## Writes that fail -/

instance (d : Durable) (c : Controller) : Decidable (d.IsBehind c) :=
  inferInstanceAs (Decidable (_ ∨ d.handoff ≠ none ∧ _))

namespace Sample

/-- Writes that do not fail with the file behind, of an event. -/
def recordingBy (s : SystemConfig) (e : SystemEvent) : Bool :=
  match s, e with
  | .idle c w, .begin _ => c.handoff.isNone || w.disk.all (·.handoff.isSome)
  | .running (.op _ c _) w, .exec (.failed _) => w.disk.all fun d => !decide (d.IsBehind c)
  | _, _ => true

theorem allows_of_recordingBy (s : SystemConfig) (e : SystemEvent) (h : recordingBy s e = true) :
    Machine.allows recordingPolicy s e := by
  cases e with
  | begin op =>
    cases s with
    | idle c w =>
      intro hhandoff d hd hnone
      simp [recordingBy, hd, hnone, hhandoff] at h
    | running p w | down w => trivial
  | exec choice =>
    match s with
    | .running (.op o c k) w =>
      rintro refusal rfl d hd
      simpa [recordingBy, hd] using h
    | .running (.ret _) _ | .idle _ _ | .down _ => trivial
  | crash => exact fun _ _ => trivial
  | finish | boot _ | world _ => trivial

/-- The first phase is about to be recorded. -/
def recordingFirst : List SystemEvent :=
  prepared (manifest firstCampaign 1) ++
    .begin .start :: beginning ++ stepping ++ [answered, answered, reading, reading, answered, answered, reading, reading, reading]

/-- A call of the step that follows is due; `p` looks at the phases in memory and on file. -/
def callsIn (p : HandoffPhase → HandoffPhase → Bool) : SystemConfig → Bool
  | .running (.op (.call .target (.prepare _)) c _) w =>
    c.handoff.any fun h => w.disk.any fun d => d.handoff.any fun h' => p h.phase h'.phase
  | _ => false

theorem callsIn_cases {p : HandoffPhase → HandoffPhase → Bool} {s : SystemConfig} (h : callsIn p s = true) :
    ∃ body c k w handoff d handoff', s = .running (.op (.call .target (.prepare body)) c k) w ∧ c.handoff = some handoff ∧
      w.disk = some d ∧ d.handoff = some handoff' ∧ p handoff.phase handoff'.phase = true := by
  unfold callsIn at h
  split at h
  · rename_i body c k w
    obtain ⟨handoff, hhandoff, h⟩ := (Option.any_eq_true _ _).mp h
    obtain ⟨d, hd, h⟩ := (Option.any_eq_true _ _).mp h
    obtain ⟨handoff', hhandoff', h⟩ := (Option.any_eq_true _ _).mp h
    exact ⟨body, c, k, w, handoff, d, handoff', rfl, hhandoff, hd, hhandoff', h⟩
  · cases h

/-- A controller in the midst of a transfer, its records on file. -/
def midway : Controller where
  manifest := some (manifest firstCampaign 1)
  campaign := some { Control.plannedCampaign {} (manifest firstCampaign 1) 1 1 with state := .running }
  handoff := some { (default : HandoffRecord) with phase := .predecessorFenced }

def filed : World := { system.world with disk := some midway.toDurable }

/-- The result of a command, `p` looks at the phases in memory and on file. -/
def endsIn (p : Bool → HandoffPhase → HandoffPhase → Bool) : SystemConfig → Bool
  | .running (.ret (r, c)) w =>
    c.handoff.any fun h => w.disk.any fun d => d.handoff.any fun h' => p r.toBool h.phase h'.phase
  | _ => false

theorem endsIn_cases {p : Bool → HandoffPhase → HandoffPhase → Bool} {s : SystemConfig} (h : endsIn p s = true) :
    ∃ r c w handoff d handoff', s = .running (.ret (r, c)) w ∧ c.handoff = some handoff ∧
      w.disk = some d ∧ d.handoff = some handoff' ∧ p r.toBool handoff.phase handoff'.phase = true := by
  unfold endsIn at h
  split at h
  · rename_i r c w
    obtain ⟨handoff, hhandoff, h⟩ := (Option.any_eq_true _ _).mp h
    obtain ⟨d, hd, h⟩ := (Option.any_eq_true _ _).mp h
    obtain ⟨handoff', hhandoff', h⟩ := (Option.any_eq_true _ _).mp h
    exact ⟨r, c, w, handoff, d, handoff', rfl, hhandoff, hd, hhandoff', h⟩
  · cases h

end Sample

open Sample Control in
theorem durable_before_next_sample :
    (∃ es role request c k w h, Run ((machine setup).step recordingPolicy) system es (.running (.op (.call role request) c k) w) ∧
      c.core.handoff = some h ∧ request.isStepIn h.phase = true ∧ c.core.Recorded w) ∧
    ∃ m c w es refusal c' w', MovesRecord m ∧ c.OnFile w ∧
      Run ((machine setup).step recordingPolicy) (.running (m c) w) es (.running (.ret (.error refusal, c')) w') ∧
      (∀ e ∈ es, Machine.isInner e = true) ∧ c'.OnFile w' := by
  constructor
  · obtain ⟨s, hrun, hcalls⟩ := (machine setup).exists_run allows_of_recordingBy system (recordingFirst ++ [stored, stored] ++ stepping)
      (callsIn fun phase phase' => phase.isForward && phase = phase') (by decide +kernel)
    obtain ⟨body, c, k, w, handoff, d, handoff', rfl, hhandoff, -, -, hphase⟩ := callsIn_cases hcalls
    have hcore : c.core.handoff = some handoff.core := by simp [Controller.core, hhandoff]
    have hstep : NodeRequest.isStepIn (.prepare body) handoff.core.phase = true := (Bool.and_eq_true_iff.mp hphase).1
    exact ⟨_, _, _, c, k, w, _, hrun, hcore, hstep, durable_before_next.1 _ _ _ _ _ _ _ _ _ _ _ _ hrun hcore hstep⟩
  · obtain ⟨s, hrun, hends⟩ := (machine setup).exists_run allows_of_recordingBy (.running (applyAction .pause midway) filed)
      [reading, .exec (.failed failure)] (endsIn fun ok _ _ => !ok) (by decide +kernel)
    obtain ⟨r, c', w', handoff, d, handoff', rfl, -, -, -, hrefused⟩ := endsIn_cases hends
    cases r with
    | ok u => cases hrefused
    | error refusal =>
      have hfile : midway.OnFile filed := Controller.onFile_of_toDurable rfl
      have hinner : ∀ e ∈ [reading, .exec (.failed failure)], Machine.isInner e = true := by decide
      exact ⟨_, _, _, _, refusal, c', w', .action .pause, hfile, hrun, hinner,
        durable_before_next.2 _ _ _ _ _ _ _ (.action .pause) hfile hrun hinner⟩

open Sample Control in
/-- The journal refuses the entry of a phase: the phase is in memory alone, the caller sees an error, and the next operation
issues the call of the phase after it. -/
theorem calls_before_durable :
    (∃ es role request c k w h, Run ((machine setup).step {}) system es (.running (.op (.call role request) c k) w) ∧
      c.core.handoff = some h ∧ request.isStepIn h.phase = true ∧ ¬ c.core.Recorded w) ∧
    ∃ m c w es refusal c' w', MovesRecord m ∧ c.OnFile w ∧
      Run ((machine setup).step {}) (.running (m c) w) es (.running (.ret (.error refusal, c')) w') ∧
      (∀ e ∈ es, Machine.isInner e = true) ∧ ¬ c'.OnFile w' := by
  constructor
  · obtain ⟨s, hrun, hcalls⟩ := (machine setup).exists_free_run system
      (recordingFirst ++ [.exec (.failed failure), .finish, .begin .advance] ++ stepping)
      (callsIn fun phase phase' => phase.isForward && phase ≠ phase') (by decide +kernel)
    obtain ⟨body, c, k, w, handoff, d, handoff', rfl, hhandoff, hd, hhandoff', hphase⟩ := callsIn_cases hcalls
    obtain ⟨hforward, hne⟩ := Bool.and_eq_true_iff.mp hphase
    refine ⟨_, _, _, c, k, w, handoff.core, hrun, by simp [Controller.core, hhandoff], hforward, ?_⟩
    rintro ⟨d', hd', hprogress⟩
    obtain rfl : d = d' := Option.some.inj (hd.symm.trans hd')
    simp only [ControllerCore.progress, Durable.core, Controller.core, hhandoff, hhandoff', Option.map_some, Option.some.injEq,
      Prod.mk.injEq] at hprogress
    exact absurd hprogress.2.2.symm (by simpa [HandoffRecord.core] using hne)
  · obtain ⟨s, hrun, hends⟩ := (machine setup).exists_free_run (.running (recordPhase .authorityTransferred "" midway) filed)
      [reading, reading, reading, .exec (.failed failure)] (endsIn fun ok phase phase' => !ok && phase ≠ phase') (by decide +kernel)
    obtain ⟨r, c', w', handoff, d, handoff', rfl, hhandoff, hd, hhandoff', hp⟩ := endsIn_cases hends
    obtain ⟨hrefused, hne⟩ := Bool.and_eq_true_iff.mp hp
    cases r with
    | ok u => cases hrefused
    | error refusal =>
      refine ⟨_, _, _, _, refusal, c', w', .phase .authorityTransferred "", Controller.onFile_of_toDurable rfl, hrun, by decide, ?_⟩
      rintro ⟨d', hd', -, hsame⟩
      obtain rfl : d = d' := Option.some.inj (hd.symm.trans hd')
      rw [hhandoff', hhandoff] at hsame
      obtain rfl : handoff' = handoff := Option.some.inj hsame
      simp at hne

end FabricEvolution
