import Mathlib

/-!
# Absorbing a message block by block

A state takes blocks of a fixed size; what is left of a message is less than a block.

* `absorb` : the state after the whole blocks of a message, and what is left;
* `absorb_append` : a message that comes in two parts, the rest of the first before the second;
* `absorb_flatMap` : absorbing in other units, each symbol spelled with the same number of others.
-/

namespace FabricEvolution.Lib

variable {σ τ α β : Type*}

/-- Whole blocks of `size` symbols, from the front. -/
def absorb (size : Nat) (step : σ → List α → σ) (s : σ) (data : List α) : σ × List α :=
  if _ : 0 < size ∧ size ≤ data.length then absorb size step (step s (data.take size)) (data.drop size)
  else (s, data)
termination_by data.length
decreasing_by
  rw [List.length_drop]
  omega

section
variable {size : Nat} {step : σ → List α → σ} {s : σ} {data : List α}

theorem absorb_short (h : data.length < size) : absorb size step s data = (s, data) := by
  rw [absorb, dif_neg]
  omega

theorem absorb_block (hsize : 0 < size) (h : size ≤ data.length) :
    absorb size step s data = absorb size step (step s (data.take size)) (data.drop size) := by
  rw [absorb, dif_pos ⟨hsize, h⟩]

/-- Induction on the blocks of a message. -/
theorem absorb_induction (step : σ → List α → σ) {motive : σ → List α → Prop} (hsize : 0 < size) (short : ∀ s data, data.length < size → motive s data)
    (block : ∀ s data, size ≤ data.length → motive (step s (data.take size)) (data.drop size) → motive s data) (s : σ)
    (data : List α) : motive s data := by
  generalize hlength : data.length = length
  induction length using Nat.strongRecOn generalizing s data with
  | ind length ih =>
    by_cases hshort : data.length < size
    · exact short s data hshort
    · apply block s data (by omega)
      apply ih (length - size) (by omega)
      rw [List.length_drop, hlength]

theorem length_absorb (step : σ → List α → σ) (s : σ) (data : List α) (hsize : 0 < size) : (absorb size step s data).2.length = data.length % size := by
  induction s, data using absorb_induction step hsize with
  | short s data h => rw [absorb_short h, Nat.mod_eq_of_lt h]
  | block s data h ih => rw [absorb_block hsize h, ih, List.length_drop, ← Nat.mod_eq_sub_mod h]

/-- What is left of one part comes before the next. -/
theorem absorb_append (hsize : 0 < size) (more : List α) : absorb size step s (data ++ more) =
    absorb size step (absorb size step s data).1 ((absorb size step s data).2 ++ more) := by
  induction s, data using absorb_induction step hsize with
  | short s data h => rw [absorb_short h]
  | block s data h ih =>
    have hlong : size ≤ (data ++ more).length := by
      rw [List.length_append]
      omega
    rw [absorb_block hsize hlong, List.take_append_of_le_length h, List.drop_append_of_le_length h, ih, absorb_block hsize h]

/-- Where nothing is left of the first part, the second starts a block. -/
theorem absorb_append_of_whole (hsize : 0 < size) (h : data.length % size = 0) (more : List α) :
    absorb size step s (data ++ more) = absorb size step (absorb size step s data).1 more := by
  have hleft : (absorb size step s data).2 = [] := by
    apply List.length_eq_zero_iff.mp
    rw [length_absorb step s data hsize, h]
  rw [absorb_append hsize, hleft, List.nil_append]

end

/-! ## In other units -/

section
variable {spell : α → List β} {width : Nat}

theorem length_flatMap_const (hspell : ∀ a, (spell a).length = width) (data : List α) :
    (data.flatMap spell).length = width * data.length := by
  induction data with
  | nil => rfl
  | cons a data ih => rw [List.flatMap_cons, List.length_append, hspell, ih, List.length_cons, Nat.mul_succ, Nat.add_comm]

theorem take_flatMap_const (hspell : ∀ a, (spell a).length = width) (count : Nat) (data : List α) :
    (data.flatMap spell).take (width * count) = (data.take count).flatMap spell := by
  induction count generalizing data with
  | zero => rw [Nat.mul_zero, List.take_zero, List.take_zero, List.flatMap_nil]
  | succ count ih =>
    cases data with
    | nil => rw [List.flatMap_nil, List.take_nil, List.take_nil, List.flatMap_nil]
    | cons a data =>
      rw [List.flatMap_cons, List.take_succ_cons, List.flatMap_cons, ← ih, Nat.mul_succ, Nat.add_comm, ← hspell a,
        List.take_length_add_append]

theorem drop_flatMap_const (hspell : ∀ a, (spell a).length = width) (count : Nat) (data : List α) :
    (data.flatMap spell).drop (width * count) = (data.drop count).flatMap spell := by
  induction count generalizing data with
  | zero => rw [Nat.mul_zero, List.drop_zero, List.drop_zero]
  | succ count ih =>
    cases data with
    | nil => rw [List.flatMap_nil, List.drop_nil, List.drop_nil, List.flatMap_nil]
    | cons a data =>
      rw [List.flatMap_cons, List.drop_succ_cons, ← ih, Nat.mul_succ, Nat.add_comm, ← hspell a, List.drop_length_add_append]

/-- A step for each block in other units does the same for the whole message. -/
theorem absorb_flatMap {size : Nat} {step : σ → List α → σ} {step' : τ → List β → τ} (view : σ → τ) (hsize : 0 < size)
    (hwidth : 0 < width) (hspell : ∀ a, (spell a).length = width)
    (hstep : ∀ s block, block.length = size → step' (view s) (block.flatMap spell) = view (step s block)) (s : σ) (data : List α) :
    absorb (width * size) step' (view s) (data.flatMap spell) =
      (view (absorb size step s data).1, (absorb size step s data).2.flatMap spell) := by
  have hlength : (data.flatMap spell).length = width * data.length := length_flatMap_const hspell data
  induction s, data using absorb_induction step hsize with
  | short s data h =>
    rw [absorb_short h, absorb_short]
    rw [hlength]
    exact Nat.mul_lt_mul_of_pos_left h hwidth
  | block s data h ih =>
    have hblock : width * size ≤ (data.flatMap spell).length := by
      rw [hlength]
      exact Nat.mul_le_mul_left width h
    rw [absorb_block hsize h, absorb_block (Nat.mul_pos hwidth hsize) hblock, take_flatMap_const hspell,
      drop_flatMap_const hspell, hstep s _ (List.length_take_of_le h), ih (length_flatMap_const hspell _)]

end

end FabricEvolution.Lib
