import FabricEvolution.Manifest.Manifest

/-!
# The migration steps of an admitted manifest

* `Contiguous` : each step starts where the one before it ends;
* `Ascending` : the steps are listed in ascending order, do not overlap and stay between two schemas;
  `contiguous_iff_ascending` : where a path leads from the one to the other, that is all it takes;
* `migrationPath_of_contiguous` : of a contiguous list the whole is followed;
* `ManifestDocument.Executable` : the list as the node takes it; `executable_iff`.
-/

namespace FabricEvolution
open Lib

/-- Each step starts where the one before it ends, the first at `start`, and the last ends at `finish`. -/
def Contiguous : List MigrationStepSpec → Nat → Nat → Prop
  | [], start, finish => start = finish
  | step :: rest, start, finish => step.source = start ∧ Contiguous rest step.target finish

/-- Every step moves the schema up. -/
def Advancing (steps : List MigrationStepSpec) : Prop := ∀ step ∈ steps, step.source < step.target

/-- No step starts below the end of one listed before it, none starts below `low` and none ends above `high`. -/
structure Ascending (steps : List MigrationStepSpec) (low high : Nat) : Prop where
  order : steps.Pairwise fun step step' => step.target ≤ step'.source
  low : ∀ step ∈ steps, low ≤ step.source
  high : ∀ step ∈ steps, step.target ≤ high

section Steps
variable {steps path : List MigrationStepSpec} {start finish : Nat}

theorem Advancing.tail {step : MigrationStepSpec} (h : Advancing (step :: steps)) : Advancing steps :=
  fun s hs => h s (List.mem_cons_of_mem _ hs)

theorem Contiguous.le_source (h : Contiguous steps start finish) (hadvance : Advancing steps) :
    ∀ step ∈ steps, start ≤ step.source := by
  induction steps generalizing start with
  | nil => exact fun _ hs => absurd hs List.not_mem_nil
  | cons step rest ih =>
    obtain ⟨rfl, hrest⟩ := h
    have hstep := hadvance step List.mem_cons_self
    intro s hs
    rcases List.mem_cons.mp hs with rfl | hs
    · exact le_rfl
    · have := ih hrest hadvance.tail s hs
      omega

theorem Contiguous.le_finish (h : Contiguous steps start finish) (hadvance : Advancing steps) : start ≤ finish := by
  induction steps generalizing start with
  | nil => exact h.le
  | cons step rest ih =>
    obtain ⟨rfl, hrest⟩ := h
    have hstep := hadvance step List.mem_cons_self
    have := ih hrest hadvance.tail
    omega

theorem Contiguous.target_le (h : Contiguous steps start finish) (hadvance : Advancing steps) :
    ∀ step ∈ steps, step.target ≤ finish := by
  induction steps generalizing start with
  | nil => exact fun _ hs => absurd hs List.not_mem_nil
  | cons step rest ih =>
    obtain ⟨-, hrest⟩ := h
    intro s hs
    rcases List.mem_cons.mp hs with rfl | hs
    · exact hrest.le_finish hadvance.tail
    · exact ih hrest hadvance.tail s hs

theorem Contiguous.ascending (h : Contiguous steps start finish) (hadvance : Advancing steps) :
    Ascending steps start finish := by
  refine ⟨?_, h.le_source hadvance, h.target_le hadvance⟩
  induction steps generalizing start with
  | nil => exact List.Pairwise.nil
  | cons step rest ih =>
    obtain ⟨-, hrest⟩ := h
    exact List.pairwise_cons.mpr ⟨hrest.le_source hadvance.tail, ih hrest hadvance.tail⟩

/-- A list in ascending order that holds the steps of a path has no other steps, and in the order of the path. -/
theorem Ascending.contiguous (h : Ascending steps start finish) (hadvance : Advancing steps)
    (hpath : Contiguous path start finish) (hmem : ∀ step ∈ path, step ∈ steps) : Contiguous steps start finish := by
  induction steps generalizing start path with
  | nil =>
    cases path with
    | nil => exact hpath
    | cons step rest => exact absurd (hmem step List.mem_cons_self) List.not_mem_nil
  | cons step rest ih =>
    have hstep := hadvance step List.mem_cons_self
    have hlow := h.low step List.mem_cons_self
    have hhigh := h.high step List.mem_cons_self
    obtain ⟨horder, hrest⟩ := List.pairwise_cons.mp h.order
    cases path with
    | nil =>
      have : start = finish := hpath
      omega
    | cons first path =>
      obtain ⟨hfirst, hpath⟩ := hpath
      rcases List.mem_cons.mp (hmem first List.mem_cons_self) with rfl | hlater
      · have hadvancing : Advancing path := fun s hs => hadvance s (hmem s (List.mem_cons_of_mem _ hs))
        refine ⟨hfirst, ih ⟨hrest, horder, fun s hs => h.high s (List.mem_cons_of_mem _ hs)⟩ hadvance.tail hpath ?_⟩
        intro s hs
        refine (List.mem_cons.mp (hmem s (List.mem_cons_of_mem _ hs))).resolve_left ?_
        rintro rfl
        have := hpath.le_source hadvancing s hs
        omega
      · have := horder first hlater
        omega

/-! ## The path that is followed -/

theorem stepFrom_eq_some {schema : Nat} {step : MigrationStepSpec} (h : stepFrom steps schema = some step) :
    step ∈ steps ∧ step.source = schema := by
  have hsource := List.find?_some h
  exact ⟨List.mem_of_find?_eq_some h, of_decide_eq_true hsource⟩

theorem followPath_cases {guard : Nat} (h : followPath steps finish guard start = some path) :
    Contiguous path start finish ∧ ∀ step ∈ path, step ∈ steps := by
  induction guard generalizing start path with
  | zero =>
    rw [followPath] at h
    split_ifs at h with hend
    cases h
    exact ⟨hend, fun _ hs => absurd hs List.not_mem_nil⟩
  | succ guard ih =>
    rw [followPath] at h
    split_ifs at h with hend
    · cases h
      exact ⟨hend, fun _ hs => absurd hs List.not_mem_nil⟩
    · cases hstep : stepFrom steps start with
      | none => simp [hstep] at h
      | some step =>
        simp only [hstep] at h
        split_ifs at h
        obtain ⟨rest, hrest, rfl⟩ := Option.map_eq_some_iff.mp h
        obtain ⟨hmem, hsource⟩ := stepFrom_eq_some hstep
        obtain ⟨hcontiguous, hsteps⟩ := ih hrest
        refine ⟨⟨hsource, hcontiguous⟩, fun s hs => ?_⟩
        rcases List.mem_cons.mp hs with rfl | hs
        · exact hmem
        · exact hsteps s hs

/-- A path that was found leads from the one schema to the other over steps of the list. -/
theorem migrationPath_cases (h : ManifestDocument.migrationPath steps start finish ≠ []) :
    Contiguous (ManifestDocument.migrationPath steps start finish) start finish ∧ ∀ step ∈ ManifestDocument.migrationPath steps start finish, step ∈ steps := by
  unfold ManifestDocument.migrationPath at h ⊢
  split_ifs at h ⊢
  · exact absurd rfl h
  · exact absurd rfl h
  · cases hfollow : followPath steps finish (steps.length + 1) start with
    | none => simp [hfollow] at h
    | some path => exact followPath_cases hfollow

/-- Where a path leads from the one schema to the other, a list is contiguous exactly when it is in ascending order. -/
theorem contiguous_iff_ascending (hadvance : Advancing steps) (hpath : ManifestDocument.migrationPath steps start finish ≠ []) :
    Contiguous steps start finish ↔ Ascending steps start finish := by
  obtain ⟨hcontiguous, hmem⟩ := migrationPath_cases hpath
  exact ⟨fun h => h.ascending hadvance, fun h => h.contiguous hadvance hcontiguous hmem⟩

/-- From where a contiguous rest begins, the rest is followed. -/
theorem followPath_of_contiguous {before : List MigrationStepSpec} {guard : Nat}
    (hbefore : ∀ step ∈ before, step.source < start) (h : Contiguous steps start finish) (hadvance : Advancing steps)
    (hguard : steps.length ≤ guard) : followPath (before ++ steps) finish guard start = some steps := by
  induction steps generalizing before start guard with
  | nil =>
    have hend : start = finish := h
    unfold followPath
    rw [if_pos hend]
  | cons step rest ih =>
    obtain ⟨rfl, hrest⟩ := h
    have hstep := hadvance step List.mem_cons_self
    have hfinish := hrest.le_finish hadvance.tail
    have hfind : stepFrom (before ++ step :: rest) step.source = some step := by
      rw [stepFrom, List.find?_append, List.find?_eq_none.mpr fun s hs => by have := hbefore s hs; simp; omega]
      simp
    cases guard with
    | zero => simp at hguard
    | succ guard =>
      have hfollow : followPath ((before ++ [step]) ++ rest) finish guard step.target = some rest := by
        refine ih ?_ hrest hadvance.tail (by simpa using hguard)
        intro s hs
        rcases List.mem_append.mp hs with hs | hs
        · have := hbefore s hs
          omega
        · rw [List.mem_singleton.mp hs]
          exact hstep
      rw [List.append_assoc, List.singleton_append] at hfollow
      unfold followPath
      simp only [hfind, if_neg (show ¬ step.source = finish by omega), if_neg (show ¬ step.target ≤ step.source by omega), hfollow,
        Option.map_some]

/-- Of a contiguous list the whole is followed. -/
theorem migrationPath_of_contiguous (h : Contiguous steps start finish) (hadvance : Advancing steps) (hne : start ≠ finish) :
    ManifestDocument.migrationPath steps start finish = steps := by
  have hle := h.le_finish hadvance
  unfold ManifestDocument.migrationPath
  rw [if_neg hne, if_neg (by omega)]
  have hfollow : followPath ([] ++ steps) finish (steps.length + 1) start = some steps :=
    followPath_of_contiguous (fun _ hs => absurd hs List.not_mem_nil) h hadvance (Nat.le_succ steps.length)
  rw [List.nil_append] at hfollow
  rw [hfollow, Option.getD_some]

end Steps

/-! ## Admitted manifests -/

namespace ManifestDocument
variable {digestOf : Json → Digest} {manifest : ManifestDocument}

theorem validateStep_advances {seen : List MigrationStepId} {step : MigrationStepSpec}
    (h : manifest.validateStep seen step = .ok ()) : step.source < step.target := by
  unfold validateStep at h
  simp only [Result.bind_eq_ok, refuseUnless_eq_ok, Bool.and_eq_true, decide_eq_true_eq] at h
  obtain ⟨_, _, _, _, _, _, _, ⟨-, hadvance⟩, -⟩ := h
  exact hadvance

theorem validateSteps_advance {seen : List MigrationStepId} {steps : List MigrationStepSpec}
    (h : manifest.validateSteps seen steps = .ok ()) : Advancing steps := by
  induction steps generalizing seen with
  | nil => exact fun _ hs => absurd hs List.not_mem_nil
  | cons step rest ih =>
    obtain ⟨_, hstep, hrest⟩ := Result.bind_eq_ok.mp h
    intro s hs
    rcases List.mem_cons.mp hs with rfl | hs
    · exact validateStep_advances hstep
    · exact ih hrest s hs

/-- What validation says of the migrations between different schemas. -/
theorem validate_migrations (h : manifest.validate digestOf = .ok ())
    (hschemas : manifest.source.schema ≠ manifest.target.schema) : Advancing manifest.migrations ∧
      ManifestDocument.migrationPath manifest.migrations manifest.source.schema manifest.target.schema ≠ [] := by
  obtain ⟨_, -, h⟩ := Result.bind_eq_ok.mp h
  obtain ⟨_, -, h⟩ := Result.bind_eq_ok.mp h
  obtain ⟨_, hsteps, h⟩ := Result.bind_eq_ok.mp h
  obtain ⟨_, hpath, -⟩ := Result.bind_eq_ok.mp h
  refine ⟨validateSteps_advance hsteps, ?_⟩
  rw [validatePath, if_pos hschemas] at hpath
  exact of_decide_eq_true (refuseUnless_eq_ok.mp hpath)

/-- The migrations in list order, as the controller sends them: a chain from schema to schema that the node takes whole, with
an irreversible step exactly when the manifest is known to cross a boundary. -/
structure Executable (manifest : ManifestDocument) : Prop where
  contiguous : Contiguous manifest.admitted.migrations manifest.source.schema manifest.target.schema
  length : manifest.admitted.migrations.length ≤ NodeState.maxMigrateSteps
  boundary : (∃ step ∈ manifest.admitted.migrations, step.irreversibleBoundary = true) ↔ manifest.crosses = true

end ManifestDocument

/-- A validated manifest between different schemas is executable exactly when its steps are listed in ascending order, do
not overlap and stay between the two schemas, and are no more than the node takes. -/
theorem executable_iff {digestOf : Json → Digest} {manifest : ManifestDocument} (h : manifest.validate digestOf = .ok ())
    (hschemas : manifest.source.schema ≠ manifest.target.schema) : manifest.Executable ↔
      Ascending manifest.migrations manifest.source.schema manifest.target.schema ∧ manifest.migrations.length ≤ 64 := by
  obtain ⟨hadvance, hpath⟩ := ManifestDocument.validate_migrations h hschemas
  constructor
  · intro hexecutable
    exact ⟨(contiguous_iff_ascending hadvance hpath).mp hexecutable.contiguous, hexecutable.length⟩
  · rintro ⟨hascending, hlength⟩
    have hcontiguous := (contiguous_iff_ascending hadvance hpath).mpr hascending
    refine ⟨hcontiguous, hlength, ?_⟩
    rw [ManifestDocument.crosses, crossesIrreversibleBoundary, migrationPath_of_contiguous hcontiguous hadvance hschemas,
      List.any_eq_true]
    rfl

namespace Sample

/-- One name for all that is named. -/
def evolution : TaggedName := ⟨"evolution", .inr (by decide)⟩

def specOf (id : ComponentId) (schema port : Nat) : ComponentDocument :=
  { id, software := ⟨1, 0, 0, ""⟩, protocol := ⟨1, 0⟩, schema, port }

/-- A decision for the pair of the sample manifest, sealed under a digest of no interest. -/
def decisionOf (schema : Nat) : CompatibilityDecision :=
  { decisionId := "decision", registry := "registry", subject := evolution, source := ⟨1, 0, 0, ""⟩, target := ⟨1, 0, 0, ""⟩
    sourceProtocol := ⟨1, 0⟩, targetProtocol := ⟨1, 0⟩, sourceSchema := 1, targetSchema := schema, verdict := .supported }

def stepBetween (id : MigrationStepId) (source target : Nat) : MigrationStepSpec :=
  { id, source, target, function := "identity" }

def stepA : MigrationStepId := ⟨"step-a", .inr (by decide)⟩
def stepB : MigrationStepId := ⟨"step-b", .inr (by decide)⟩

/-- A manifest from schema 1 to `schema` with the given migrations. -/
def manifestOf (schema : Nat) (migrations : List MigrationStepSpec) : ManifestDocument :=
  { id := evolution, campaign := evolution, shard := evolution, source := specOf evolution 1 1, target := specOf evolution schema 2
    window := { maxDurationMs := 1000, maxOperations := 1000 }, compatibility := decisionOf schema, migrations
    protocol := { accepted := [⟨1, 0⟩] }, rollback := { recoveryPlan := "plan" } }

theorem eq_ok_of_isOk {result : Result Unit} (h : result.isOk = true) : result = .ok () := by
  cases result with
  | ok u => rfl
  | error refusal => cases h

end Sample

open Sample in
/-- Two steps in order. -/
theorem executable_sample : (manifestOf 3 [stepBetween stepA 1 2, stepBetween stepB 2 3]).Executable := by
  have hvalid : (manifestOf 3 [stepBetween stepA 1 2, stepBetween stepB 2 3]).validate (fun _ => .zero) = .ok () :=
    eq_ok_of_isOk (by decide +kernel)
  refine (executable_iff hvalid (by decide)).mpr ⟨⟨?_, ?_, ?_⟩, by decide⟩ <;> decide

open Sample in
/-- The same steps listed the other way round are admitted and are no chain in list order. -/
theorem admitted_out_of_order : ¬ ∀ (digestOf : Json → Digest) (manifest : ManifestDocument),
    manifest.validate digestOf = .ok () → manifest.source.schema ≠ manifest.target.schema → manifest.Executable := by
  intro hall
  have hvalid : (manifestOf 3 [stepBetween stepB 2 3, stepBetween stepA 1 2]).validate (fun _ => .zero) = .ok () :=
    eq_ok_of_isOk (by decide +kernel)
  have hfirst : (2 : Nat) = 1 := (hall _ _ hvalid (by decide)).contiguous.1
  cases hfirst

end FabricEvolution
