import Mathlib

/-!
# Reflected cyclic redundancy checks

A register of `w` bits over any polynomial, the lowest bit first.

* `shift` : the register moved down by one bit, `shift_xor` : a linear map; `iterate_shift_high` : the bits that are not
  shifted out only move down;
* `iterate_shift` : several shifts, by the bits that are shifted out and by those that are not, the rule of the table;
* `feedBit`, `feedBits` : a message bit by bit; `feedBits_lowBits` : the low bits of a value, by as many shifts.
-/

namespace FabricEvolution.Lib.Crc

variable {w : Nat} (poly : BitVec w)

/-- One bit is shifted out; the polynomial is taken off where it is set. -/
def shift (r : BitVec w) : BitVec w := if r.getLsbD 0 then poly ^^^ (r >>> 1) else r >>> 1

/-- One bit of a message. -/
def feedBit (r : BitVec w) (bit : Bool) : BitVec w := if r.getLsbD 0 != bit then poly ^^^ (r >>> 1) else r >>> 1

def feedBits (r : BitVec w) (bits : List Bool) : BitVec w := bits.foldl (feedBit poly) r

/-- The bits of `value` below `count`, the lowest first. -/
def lowBits : Nat → Nat → List Bool
  | 0, _ => []
  | count + 1, value => value.testBit 0 :: lowBits count (value / 2)

/-- The `count` lowest bits. -/
def low (count : Nat) : BitVec w := BitVec.ofNat w (2 ^ count - 1)

variable {poly}

/-! ## Shifts -/

theorem shift_eq (r : BitVec w) : shift poly r = (if r.getLsbD 0 then poly else 0) ^^^ (r >>> 1) := by
  unfold shift
  split_ifs with hbit
  · rfl
  · exact BitVec.zero_xor.symm

theorem feedBit_eq (r : BitVec w) (bit : Bool) : feedBit poly r bit = (if bit then poly else 0) ^^^ shift poly r := by
  rw [shift_eq, feedBit, ← BitVec.xor_assoc]
  cases bit <;> cases r.getLsbD 0 <;> simp

theorem shift_xor (r s : BitVec w) : shift poly (r ^^^ s) = shift poly r ^^^ shift poly s := by
  rw [shift_eq, shift_eq, shift_eq, BitVec.ushiftRight_xor_distrib, BitVec.getLsbD_xor]
  have hswap : ∀ p q a b : BitVec w, p ^^^ a ^^^ (q ^^^ b) = p ^^^ q ^^^ (a ^^^ b) := by
    intro p q a b
    ac_rfl
  rw [hswap]
  cases r.getLsbD 0 <;> cases s.getLsbD 0 <;> simp

theorem iterate_shift_xor (count : Nat) (r s : BitVec w) :
    (shift poly)^[count] (r ^^^ s) = (shift poly)^[count] r ^^^ (shift poly)^[count] s := by
  induction count generalizing r s with
  | zero => rfl
  | succ count ih => rw [Function.iterate_succ_apply, shift_xor, ih, Function.iterate_succ_apply, Function.iterate_succ_apply]

/-- A register whose low bits are clear only moves down. -/
theorem iterate_shift_high {count : Nat} {r : BitVec w} (h : ∀ i < count, r.getLsbD i = false) :
    (shift poly)^[count] r = r >>> count := by
  induction count generalizing r with
  | zero => exact (BitVec.ushiftRight_zero r).symm
  | succ count ih =>
    have hshift : shift poly r = r >>> 1 := by
      rw [shift, h 0 (Nat.succ_pos count)]
      rfl
    rw [Function.iterate_succ_apply, hshift, ih, ← BitVec.shiftRight_add, Nat.add_comm]
    intro i hi
    rw [BitVec.getLsbD_ushiftRight]
    exact h (1 + i) (by omega)

theorem getLsbD_low {count i : Nat} (hi : i < w) : (low count : BitVec w).getLsbD i = decide (i < count) := by
  rw [low, BitVec.getLsbD_ofNat, Nat.testBit_two_pow_sub_one]
  simp [hi]

/-- The bits that are shifted out decide what is taken off; the others move down. -/
theorem iterate_shift (count : Nat) (r : BitVec w) :
    (shift poly)^[count] r = (shift poly)^[count] (r &&& low count) ^^^ (r >>> count) := by
  have hsplit : (r &&& low count) ^^^ (r &&& ~~~low count) = r := by
    apply BitVec.eq_of_getLsbD_eq
    intro i hi
    simp only [BitVec.getLsbD_xor, BitVec.getLsbD_and, BitVec.getLsbD_not, hi, decide_true, Bool.true_and]
    cases r.getLsbD i <;> cases (low count : BitVec w).getLsbD i <;> rfl
  have hclear : ∀ i < count, (r &&& ~~~low count).getLsbD i = false := by
    intro i hi
    rw [BitVec.getLsbD_and, BitVec.getLsbD_not]
    by_cases hw : i < w
    · rw [getLsbD_low hw, decide_eq_true hi]
      simp
    · simp [hw]
  have hmove : (r &&& ~~~low count) >>> count = r >>> count := by
    apply BitVec.eq_of_getLsbD_eq
    intro i hi
    rw [BitVec.getLsbD_ushiftRight, BitVec.getLsbD_ushiftRight, BitVec.getLsbD_and, BitVec.getLsbD_not]
    by_cases hw : count + i < w
    · rw [getLsbD_low hw]
      simp [hw]
    · rw [BitVec.getLsbD_of_ge r _ (by omega), Bool.false_and]
  calc (shift poly)^[count] r
      = (shift poly)^[count] ((r &&& low count) ^^^ (r &&& ~~~low count)) := by rw [hsplit]
    _ = (shift poly)^[count] (r &&& low count) ^^^ (r &&& ~~~low count) >>> count := by
        rw [iterate_shift_xor, iterate_shift_high hclear]
    _ = (shift poly)^[count] (r &&& low count) ^^^ (r >>> count) := by rw [hmove]

/-! ## Messages -/

theorem feedBits_append (r : BitVec w) (bits more : List Bool) :
    feedBits poly r (bits ++ more) = feedBits poly (feedBits poly r bits) more :=
  List.foldl_append

/-- A message bit is the lowest bit of the register it is added to. -/
theorem shift_xor_ofNat (r : BitVec w) (hw : 0 < w) {value : Nat} (hvalue : value < 2 ^ w) :
    shift poly (r ^^^ BitVec.ofNat w value) = feedBit poly r (value.testBit 0) ^^^ BitVec.ofNat w (value / 2) := by
  have hbit : (BitVec.ofNat w value).getLsbD 0 = value.testBit 0 := by
    rw [BitVec.getLsbD_ofNat, decide_eq_true hw, Bool.true_and]
  have hdown : BitVec.ofNat w value >>> 1 = BitVec.ofNat w (value / 2) := by
    apply BitVec.eq_of_toNat_eq
    rw [BitVec.toNat_ushiftRight, BitVec.toNat_ofNat, BitVec.toNat_ofNat, Nat.mod_eq_of_lt hvalue,
      Nat.mod_eq_of_lt ((Nat.div_le_self value 2).trans_lt hvalue), Nat.shiftRight_eq_div_pow, Nat.pow_one]
  rw [shift_xor, shift_eq (BitVec.ofNat w value), hbit, hdown, feedBit_eq]
  ac_rfl

/-- The low bits of a value, fed one by one: the value is added, and as many bits are shifted out. -/
theorem feedBits_lowBits {count value : Nat} (r : BitVec w) (hw : count ≤ w) (hvalue : value < 2 ^ count) :
    feedBits poly r (lowBits count value) = (shift poly)^[count] (r ^^^ BitVec.ofNat w value) := by
  induction count generalizing r value with
  | zero =>
    have hzero : value = 0 := by omega
    rw [hzero]
    exact BitVec.xor_zero.symm
  | succ count ih =>
    have hhalf : value / 2 < 2 ^ count := by
      rw [Nat.pow_succ] at hvalue
      omega
    have hfits : value < 2 ^ w := hvalue.trans_le (Nat.pow_le_pow_right (by decide) hw)
    rw [Function.iterate_succ_apply, shift_xor_ofNat r (by omega) hfits, ← ih _ (by omega) hhalf]
    rfl

end FabricEvolution.Lib.Crc
