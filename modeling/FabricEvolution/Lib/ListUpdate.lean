import Mathlib

/-!
# Updating lists in place

* `modifyFirst p f` : `f` applied to the first element satisfying `p`;
* `exists_modifyFirst` : the list around that element, before and after;
* `pushBounded n` : append, dropping the oldest element once the list is longer than `n`;
* `Pointwise R` : a list changed element by element, `R` from the old to the new one.
-/

namespace FabricEvolution.Lib

variable {α : Type*}

/-- Apply `f` to the first element satisfying `p`. -/
def modifyFirst (p : α → Bool) (f : α → α) : List α → List α
  | [] => []
  | x :: l => if p x then f x :: l else x :: modifyFirst p f l

theorem exists_modifyFirst {p : α → Bool} {l : List α} {x : α} (h : l.find? p = some x) (f : α → α) :
    ∃ pre post, l = pre ++ x :: post ∧ modifyFirst p f l = pre ++ f x :: post ∧ p x = true ∧
      ∀ y ∈ pre, p y = false := by
  induction l with
  | nil => simp at h
  | cons y l ih =>
    rw [List.find?_cons] at h
    cases hy : p y with
    | true =>
      simp only [hy, Option.some.injEq] at h
      subst h
      exact ⟨[], l, rfl, by simp [modifyFirst, hy], hy, by simp⟩
    | false =>
      simp only [hy] at h
      obtain ⟨pre, post, hl, hm, hx, hpre⟩ := ih h
      refine ⟨y :: pre, post, by rw [hl]; rfl, ?_, hx, ?_⟩
      · simp [modifyFirst, hy, hm]
      · intro z hz
        rcases List.mem_cons.mp hz with rfl | hz
        · exact hy
        · exact hpre z hz

/-- Append `x`, and drop the oldest element once there are more than `n`. -/
def pushBounded (n : Nat) (l : List α) (x : α) : List α :=
  if (l ++ [x]).length > n then (l ++ [x]).tail else l ++ [x]

theorem pushBounded_sublist (n : Nat) (l : List α) (x : α) :
    (pushBounded n l x).Sublist (l ++ [x]) := by
  unfold pushBounded
  split_ifs
  · exact List.tail_sublist _
  · exact List.Sublist.refl _

theorem mem_of_mem_pushBounded {n : Nat} {l : List α} {x y : α} (h : y ∈ pushBounded n l x) :
    y ∈ l ∨ y = x := by
  simpa using (pushBounded_sublist n l x).subset h

theorem mem_pushBounded_self {n : Nat} (hn : 0 < n) (l : List α) (x : α) : x ∈ pushBounded n l x := by
  unfold pushBounded
  split_ifs with h
  · cases l with
    | nil => simp at h; omega
    | cons y l => simp
  · simp

/-- An older element is still there unless it was the one dropped. -/
theorem mem_pushBounded_of_mem {n : Nat} {l : List α} {x y : α} (h : y ∈ l)
    (hkeep : l.length < n ∨ l.head? ≠ some y) : y ∈ pushBounded n l x := by
  unfold pushBounded
  split_ifs with hfull
  · cases l with
    | nil => simp at h
    | cons z l =>
      rw [List.length_append, List.length_singleton] at hfull
      have hz : z ≠ y := by
        rcases hkeep with hlt | hne
        · omega
        · simpa using hne
      simp only [List.cons_append, List.tail_cons, List.mem_append]
      exact .inl ((List.mem_cons.mp h).resolve_left (Ne.symm hz))
  · exact List.mem_append_left _ h

theorem length_pushBounded_le {n : Nat} {l : List α} (x : α) (h : l.length ≤ n) :
    (pushBounded n l x).length ≤ n := by
  unfold pushBounded
  split_ifs with hfull
  · rw [List.length_tail, List.length_append, List.length_singleton]; omega
  · omega

/-- The element pushed is the last one. -/
theorem getLast?_pushBounded {n : Nat} (hn : 0 < n) (l : List α) (x : α) : (pushBounded n l x).getLast? = some x := by
  unfold pushBounded
  split_ifs with hfull
  · cases l with
    | nil => simp at hfull; omega
    | cons y l => simp
  · simp

/-- At most one element of a duplicate-free list satisfies a predicate that singles out its element. -/
theorem countP_le_one {p : α → Bool} {l : List α} (hn : l.Nodup)
    (h : ∀ x ∈ l, ∀ y ∈ l, p x = true → p y = true → x = y) : l.countP p ≤ 1 := by
  induction l with
  | nil => simp
  | cons x l ih =>
    obtain ⟨hx, hl⟩ := List.nodup_cons.mp hn
    have ih' := ih hl fun y hy z hz => h y (List.mem_cons_of_mem _ hy) z (List.mem_cons_of_mem _ hz)
    by_cases hp : p x = true
    · have hzero : l.countP p = 0 := by
        refine List.countP_eq_zero.mpr fun y hy hpy => ?_
        have := h x List.mem_cons_self y (List.mem_cons_of_mem _ hy) hp hpy
        exact hx (this ▸ hy)
      have hcons := List.countP_cons_of_pos (l := l) hp
      omega
    · rw [List.countP_cons_of_neg hp]
      exact ih'

/-! ## Element by element -/

/-- An element on the right is related to one on the left. -/
theorem exists_of_forall₂ {β : Type*} {R : α → β → Prop} {as : List α} {bs : List β} (h : List.Forall₂ R as bs) {b : β}
    (hb : b ∈ bs) : ∃ a ∈ as, R a b := by
  induction h with
  | nil => exact absurd hb List.not_mem_nil
  | @cons a _ _ _ hfirst _ ih =>
    rcases List.mem_cons.1 hb with rfl | hb
    · exact ⟨a, List.mem_cons_self, hfirst⟩
    · obtain ⟨a', ha', hrest⟩ := ih hb
      exact ⟨a', List.mem_cons_of_mem _ ha', hrest⟩

theorem sum_le_of_forall₂ {β : Type*} {R : α → β → Prop} {f : α → Nat} {g : β → Nat} {as : List α} {bs : List β}
    (h : List.Forall₂ R as bs) (hle : ∀ a ∈ as, ∀ b ∈ bs, R a b → g b ≤ f a) : (bs.map g).sum ≤ (as.map f).sum := by
  induction h with
  | nil => exact Nat.le_refl 0
  | @cons a b as bs hfirst _ ih =>
    have hhead := hle a List.mem_cons_self b List.mem_cons_self hfirst
    have htail := ih fun a ha b hb => hle a (List.mem_cons_of_mem _ ha) b (List.mem_cons_of_mem _ hb)
    rw [List.map_cons, List.map_cons, List.sum_cons, List.sum_cons]
    exact Nat.add_le_add hhead htail

/-- Every element of `l` went to the element of `l'` at its place. -/
abbrev Pointwise (R : α → α → Prop) (l l' : List α) : Prop := List.Forall₂ R l l'

namespace Pointwise
variable {R S : α → α → Prop} {l l' : List α} {x y : α}

theorem refl (h : ∀ x, R x x) (l : List α) : Pointwise R l l := List.forall₂_same.mpr fun x _ => h x

theorem map (f : α → α) (h : ∀ x ∈ l, R x (f x)) : Pointwise R l (l.map f) :=
  List.forall₂_map_right_iff.mpr (List.forall₂_same.mpr h)

theorem exists_right (h : Pointwise R l l') (hx : x ∈ l) : ∃ y ∈ l', R x y := exists_of_forall₂ h.flip hx

theorem exists_left (h : Pointwise R l l') (hy : y ∈ l') : ∃ x ∈ l, R x y := exists_of_forall₂ h hy

theorem map_eq {β : Type*} (f : α → β) (hf : ∀ x y, R x y → f y = f x) (h : Pointwise R l l') :
    l'.map f = l.map f := by
  induction h with
  | nil => rfl
  | cons hr _ ih => rw [List.map_cons, List.map_cons, hf _ _ hr, ih]

/-- One element replaced after a first pass over the whole list. -/
theorem replace {f : α → α} {pre post : List α} (hl : l.map f = pre ++ x :: post)
    (hmap : ∀ z ∈ l, R z (f z)) (hxy : ∀ z ∈ l, f z = x → R z y) : Pointwise R l (pre ++ y :: post) := by
  obtain ⟨l₁, l₂, rfl, rfl, h₂⟩ := List.map_eq_append_iff.mp hl
  obtain ⟨z, l₃, rfl, hz, rfl⟩ := List.map_eq_cons_iff.mp h₂
  refine List.rel_append (map f fun w hw => hmap w (List.mem_append_left _ hw)) (.cons ?_ ?_)
  · exact hxy z (List.mem_append_right _ List.mem_cons_self) hz
  · exact map f fun w hw => hmap w (List.mem_append_right _ (List.mem_cons_of_mem _ hw))

end Pointwise

end FabricEvolution.Lib
