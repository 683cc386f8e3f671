import Mathlib

/-!
# Bit mixing that loses nothing

* `xor_ushiftRight_injective`, `mul_injective` : the two operations of a bit mixer take different words to different words;
* `wordBytes` : the bytes of a word from its low end, `wordBytes_injective`.
-/

namespace FabricEvolution.Lib

/-- From the highest bit down, every bit is determined by those above it. -/
theorem xor_ushiftRight_injective {w : Nat} (shift : Nat) (hshift : 0 < shift) :
    Function.Injective fun x : BitVec w => x ^^^ x >>> shift := by
  intro x y h
  have hbit : ∀ n i, w ≤ i + n → x.getLsbD i = y.getLsbD i := by
    intro n
    induction n with
    | zero =>
      intro i hi
      rw [BitVec.getLsbD_of_ge x i hi, BitVec.getLsbD_of_ge y i hi]
    | succ n ih =>
      intro i hi
      have hsum := congrArg (BitVec.getLsbD · i) h
      have habove := ih (shift + i) (by omega)
      simp only [BitVec.getLsbD_xor, BitVec.getLsbD_ushiftRight, habove] at hsum
      exact Bool.xor_left_inj.mp hsum
  apply BitVec.eq_of_getLsbD_eq
  intro i _
  exact hbit w i (by omega)

theorem mul_injective {w : Nat} {c d : BitVec w} (h : c * d = 1) : Function.Injective (· * c) := by
  intro x y hxy
  have hback : ∀ z : BitVec w, z * c * d = z := by
    intro z
    rw [BitVec.mul_assoc, h]
    exact BitVec.mul_one z
  rw [← hback x, ← hback y]
  exact congrArg (· * d) hxy

/-- The first `n` bytes of a word, the lowest first. -/
def wordBytes {w : Nat} (n : Nat) (x : BitVec w) : List (Fin 256) :=
  (List.range n).map fun i => Fin.ofNat 256 (x >>> (8 * i)).toNat

@[simp] theorem length_wordBytes {w : Nat} (n : Nat) (x : BitVec w) : (wordBytes n x).length = n := by
  simp [wordBytes]

/-- Bit `k` of a word is bit `k % 8` of its byte `k / 8`. -/
theorem testBit_byte {w : Nat} (x : BitVec w) (k : Nat) :
    (Fin.ofNat 256 (x >>> (8 * (k / 8))).toNat).val.testBit (k % 8) = x.getLsbD k := by
  have hlow : k % 8 < 8 := Nat.mod_lt k (by decide)
  show ((x >>> (8 * (k / 8))).toNat % 2 ^ 8).testBit (k % 8) = x.getLsbD k
  rw [Nat.testBit_mod_two_pow, decide_eq_true hlow, Bool.true_and, ← BitVec.getLsbD.eq_def, BitVec.getLsbD_ushiftRight,
    Nat.div_add_mod]

theorem wordBytes_injective {w n : Nat} (hw : w ≤ 8 * n) : Function.Injective (wordBytes n : BitVec w → List (Fin 256)) := by
  intro x y h
  apply BitVec.eq_of_getLsbD_eq
  intro k hk
  have hbyte := List.map_inj_left.mp h (k / 8) (List.mem_range.mpr (by omega))
  rw [← testBit_byte, ← testBit_byte, hbyte]

theorem wordBytes_zero {w n : Nat} {x : BitVec w} (hw : w ≤ 8 * n) (h : ∀ b ∈ wordBytes n x, b = 0) : x = 0 := by
  apply wordBytes_injective hw
  apply List.ext_getElem (by simp)
  intro i hi _
  rw [h _ (List.getElem_mem hi)]
  simp [wordBytes]

end FabricEvolution.Lib
