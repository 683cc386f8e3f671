import Mathlib

/-!
# Bytes and checksums

* `Bytes` : a byte string, one character a byte;
* `leBytes`, `readLe` : fixed-width little-endian numbers, `readLe_leBytes` : what is read is what was written;
* `crc32` : the CRC-32 of the durable formats.
-/

namespace FabricEvolution

/-- A byte string, one character a byte. -/
abbrev Bytes := List Char

instance neZeroByte : NeZero 256 := ⟨by decide⟩

def byteOf (value : Nat) : Char := Char.ofNat (value % 256)

def byteValue (c : Char) : Nat := c.toNat % 256

/-- The low `width` bytes of a number, the lowest first. -/
def leBytes : Nat → Nat → Bytes
  | 0, _ => []
  | width + 1, value => byteOf value :: leBytes width (value / 256)

def readLe : Bytes → Nat
  | [] => 0
  | c :: rest => byteValue c + 256 * readLe rest

theorem toNat_byteOf (value : Nat) : (byteOf value).toNat = value % 256 := by
  have hsmall : ∀ n : Fin 256, (Char.ofNat n.val).toNat = n.val := by decide +kernel
  exact hsmall ⟨value % 256, Nat.mod_lt _ (by decide)⟩

theorem byteValue_byteOf (value : Nat) : byteValue (byteOf value) = value % 256 := by
  rw [byteValue, toNat_byteOf, Nat.mod_mod]

@[simp] theorem length_leBytes (width value : Nat) : (leBytes width value).length = width := by
  induction width generalizing value with
  | zero => rfl
  | succ width ih => simp [leBytes, ih]

theorem readLe_lt (bytes : Bytes) : readLe bytes < 256 ^ bytes.length := by
  induction bytes with
  | nil => exact Nat.one_pos
  | cons c bytes ih =>
    have hbyte : byteValue c < 256 := Nat.mod_lt _ (by decide)
    rw [readLe, List.length_cons, Nat.pow_succ]
    omega

theorem readLe_leBytes {width value : Nat} (h : value < 256 ^ width) : readLe (leBytes width value) = value := by
  induction width generalizing value with
  | zero => simpa [leBytes, readLe, eq_comm] using h
  | succ width ih =>
    have hdiv : value / 256 < 256 ^ width := by
      rw [Nat.div_lt_iff_lt_mul (by decide)]
      rwa [Nat.pow_succ] at h
    rw [leBytes, readLe, byteValue_byteOf, ih hdiv]
    exact Nat.mod_add_div value 256

def crcShift (value : BitVec 32) : BitVec 32 := if value &&& 1 ≠ 0 then 0xEDB88320 ^^^ (value >>> 1) else value >>> 1

/-- An entry of the CRC table. -/
def crcEntry (index : BitVec 32) : BitVec 32 := crcShift^[8] index

def crc32 (data : Bytes) : BitVec 32 :=
  data.foldl (fun crc c => crcEntry ((crc ^^^ BitVec.ofNat 32 (byteValue c)) &&& 0xFF) ^^^ (crc >>> 8)) 0xFFFFFFFF
    ^^^ 0xFFFFFFFF

example : crc32 "123456789".toList = 0xCBF43926 := by decide +kernel

end FabricEvolution
