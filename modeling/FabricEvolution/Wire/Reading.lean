import FabricEvolution.Wire.Identity

/-!
# Reading what was written

* `orRefuse_some`, `refuseUnless_true`, `Result.ok_bind` : a decoder whose checks pass;
* `mapM_read`, `forall_of_mapM` : the elements of a list;
* `incarnationFromJson_toJson` : a valid incarnation is read back.
-/

namespace FabricEvolution
open Lib

/-! ## Results -/

section Reading
variable {α β : Type}

@[simp] theorem orRefuse_some (a : α) (refusal : Status) : orRefuse (some a) refusal = .ok a := rfl

@[simp] theorem refuseUnless_true (refusal : Status) : refuseUnless true refusal = .ok () := rfl

@[simp] theorem Result.ok_bind (a : α) (f : α → Result β) : (Except.ok a >>= f) = f a := rfl

theorem mapM_read {read : β → Result α} {write : α → β} {values : List α} (h : ∀ value ∈ values, read (write value) = .ok value) :
    (values.map write).mapM read = .ok values := by
  induction values with
  | nil => rfl
  | cons value values ih =>
    rw [List.map_cons, List.mapM_cons, h value List.mem_cons_self, ih fun v hv => h v (List.mem_cons_of_mem _ hv)]
    rfl

theorem forall_of_mapM {read : β → Result α} {P : α → Prop} {values : List β} {read' : List α}
    (h : values.mapM read = .ok read') (hread : ∀ value ∈ values, ∀ a, read value = .ok a → P a) : ∀ a ∈ read', P a := by
  induction values generalizing read' with
  | nil =>
    cases h
    exact fun _ ha => absurd ha List.not_mem_nil
  | cons value values ih =>
    rw [List.mapM_cons] at h
    obtain ⟨first, hfirst, h⟩ := Result.bind_eq_ok.mp h
    obtain ⟨rest, hrest, h⟩ := Result.bind_eq_ok.mp h
    cases h
    intro a ha
    rcases List.mem_cons.mp ha with rfl | ha
    · exact hread value List.mem_cons_self a hfirst
    · exact ih hrest (fun v hv => hread v (List.mem_cons_of_mem _ hv)) a ha

end Reading

/-! ## Identities -/

theorem TaggedName.isValid_of_parse {text : String} {name : TaggedName} (h : parse text = some name) : name.isValid = true := by
  unfold parse at h
  split_ifs at h with htext
  cases h
  rw [isValid, decide_eq_true_eq]
  rintro rfl
  cases htext

theorem jsonPositive_eq {object : Json} {key : String} {n : Nat} (h : jsonU64 object key = some n) (hn : n ≠ 0) :
    jsonPositive object key = some n := by
  rw [jsonPositive, h, Option.filter_some, if_pos (by simpa using hn)]

theorem parseUuid_toCompactString {uuid : Uuid128} (h : uuid.isValid = true) : parseUuid uuid.toCompactString = some uuid := by
  rw [parseUuid, Uuid128.parse_toCompactString, Option.filter_some, if_pos h]

/-- A valid incarnation is read back. -/
theorem incarnationFromJson_toJson {incarnation : IncarnationId} (h : incarnation.isValid = true) :
    incarnationFromJson incarnation.toJson = .ok incarnation := by
  simp only [IncarnationId.isValid, Bool.and_eq_true, decide_eq_true_eq] at h
  obtain ⟨⟨hname, huuid⟩, hboot⟩ := h
  have hobject : incarnation.toJson.isObject = true := by simp [IncarnationId.toJson]
  have hcomponent : incarnation.toJson.find "component" = some (.string incarnation.component.str) := by
    simp [IncarnationId.toJson]
  have hname' : nameFromJson (.string incarnation.component.str) "component" = .ok incarnation.component := by
    rw [nameFromJson, Json.tryString, orRefuse_some, Result.ok_bind, TaggedName.parse_str hname]
    rfl
  have hboot' : jsonPositive incarnation.toJson "boot" = some incarnation.boot :=
    jsonPositive_eq (by simp [IncarnationId.toJson, Json.tryU64]) hboot
  have huuid' : jsonString incarnation.toJson "uuid" = some incarnation.uuid.toCompactString := by
    simp [IncarnationId.toJson, Json.tryString]
  simp only [incarnationFromJson, hobject, refuseUnless_true, Result.ok_bind, hcomponent, orRefuse_some, hname', hboot',
    huuid', parseUuid_toCompactString huuid]
  rfl

theorem isValid_of_incarnationFromJson {value : Json} {incarnation : IncarnationId}
    (h : incarnationFromJson value = .ok incarnation) : incarnation.isValid = true := by
  simp only [incarnationFromJson, nameFromJson, Result.bind_eq_ok, orRefuse_eq_ok, jsonPositive, parseUuid,
    Option.filter_eq_some_iff] at h
  obtain ⟨_, -, _, -, component, ⟨_, -, hcomponent⟩, boot, ⟨-, hboot⟩, _, -, uuid, ⟨-, huuid⟩, h⟩ := h
  cases h
  simp only [IncarnationId.isValid, Bool.and_eq_true]
  exact ⟨⟨TaggedName.isValid_of_parse hcomponent, huuid⟩, hboot⟩

end FabricEvolution
