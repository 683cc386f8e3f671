import FabricEvolution.Lib.Crc
import FabricEvolution.Persistence.Bytes

/-!
# The checksum table

* `buildCrcTable`, `crc32ByTable` : the table of 256 entries, and the checksum that looks each byte up in it;
* `crc32Bitwise` : the reflected CRC-32, bit by bit;
* `crc32ByTable_eq_bitwise` : both are the same on every byte string.
-/

namespace FabricEvolution
open Lib

/-! ## By table -/

def buildCrcTable : Vector (BitVec 32) 256 := Vector.ofFn fun index => crcEntry (BitVec.ofNat 32 index)

/-- The low byte of the register and the byte, the place in the table. -/
def crcIndex (crc : BitVec 32) (c : Char) : Fin 256 := Fin.ofNat 256 ((crc ^^^ BitVec.ofNat 32 (byteValue c)) &&& 0xFF).toNat

def crc32ByTable (data : Bytes) : BitVec 32 :=
  data.foldl (fun crc c => buildCrcTable.get (crcIndex crc c) ^^^ (crc >>> 8)) 0xFFFFFFFF ^^^ 0xFFFFFFFF

/-! ## Bit by bit -/

/-- The polynomial, the coefficient of the highest power in the lowest bit. -/
def crcPolynomial : BitVec 32 := 0xEDB88320

/-- The bits of a byte string, the lowest of each byte first. -/
def messageBits (data : Bytes) : List Bool := data.flatMap fun c => Crc.lowBits 8 (byteValue c)

def crc32Bitwise (data : Bytes) : BitVec 32 := Crc.feedBits crcPolynomial 0xFFFFFFFF (messageBits data) ^^^ 0xFFFFFFFF

/-! ## Both are the same -/

theorem byteValue_lt (c : Char) : byteValue c < 256 := Nat.mod_lt _ (by decide)

theorem crcShift_eq (value : BitVec 32) : crcShift value = Crc.shift crcPolynomial value := by
  have hbit : (value &&& 1 ≠ 0) ↔ value.getLsbD 0 = true := by
    rw [show (1 : BitVec 32) = 1#32 from rfl, BitVec.and_one_eq_setWidth_ofBool_getLsbD]
    cases value.getLsbD 0 <;> decide
  unfold crcShift Crc.shift
  simp only [hbit]
  rfl

theorem crcEntry_eq (index : BitVec 32) : crcEntry index = (Crc.shift crcPolynomial)^[8] index := by
  rw [crcEntry, show crcShift = Crc.shift crcPolynomial from funext crcShift_eq]

/-- What stands in the table at the place of a byte. -/
theorem get_buildCrcTable (crc : BitVec 32) (c : Char) :
    buildCrcTable.get (crcIndex crc c) = crcEntry ((crc ^^^ BitVec.ofNat 32 (byteValue c)) &&& 0xFF) := by
  have hlow : ((crc ^^^ BitVec.ofNat 32 (byteValue c)) &&& 0xFF).toNat < 256 := by
    rw [BitVec.toNat_and]
    exact Nat.lt_of_le_of_lt Nat.and_le_right (by decide)
  have hindex : (crcIndex crc c).val = ((crc ^^^ BitVec.ofNat 32 (byteValue c)) &&& 0xFF).toNat := Nat.mod_eq_of_lt hlow
  show (Vector.ofFn _)[(crcIndex crc c).val] = _
  rw [Vector.getElem_ofFn]
  dsimp only
  rw [hindex, BitVec.ofNat_toNat, BitVec.setWidth_eq]

/-- One look into the table takes the eight bits of a byte. -/
theorem crcStep_eq (crc : BitVec 32) (c : Char) :
    crcEntry ((crc ^^^ BitVec.ofNat 32 (byteValue c)) &&& 0xFF) ^^^ (crc >>> 8) =
      Crc.feedBits crcPolynomial crc (Crc.lowBits 8 (byteValue c)) := by
  have hbyte : BitVec.ofNat 32 (byteValue c) >>> 8 = 0 := by
    apply BitVec.eq_of_toNat_eq
    have hlt := byteValue_lt c
    rw [BitVec.toNat_ushiftRight, BitVec.toNat_ofNat, Nat.mod_eq_of_lt (by omega), Nat.shiftRight_eq_div_pow,
      Nat.div_eq_of_lt (by omega)]
    rfl
  have hmove : (crc ^^^ BitVec.ofNat 32 (byteValue c)) >>> 8 = crc >>> 8 := by
    rw [BitVec.ushiftRight_xor_distrib, hbyte]
    exact BitVec.xor_zero
  rw [Crc.feedBits_lowBits crc (by decide) (byteValue_lt c), Crc.iterate_shift, hmove, crcEntry_eq]
  rfl

theorem foldl_crcStep (data : Bytes) (crc : BitVec 32) :
    data.foldl (fun crc c => crcEntry ((crc ^^^ BitVec.ofNat 32 (byteValue c)) &&& 0xFF) ^^^ (crc >>> 8)) crc =
      Crc.feedBits crcPolynomial crc (messageBits data) := by
  induction data generalizing crc with
  | nil => rfl
  | cons c data ih =>
    rw [List.foldl_cons, ih, crcStep_eq, ← Crc.feedBits_append]
    rfl

theorem crc32ByTable_eq_crc32 (data : Bytes) : crc32ByTable data = crc32 data := by
  simp only [crc32ByTable, crc32, get_buildCrcTable]

/-- The checksum by table is the one bit by bit, on every byte string; so is that of the durable formats. -/
theorem crc32ByTable_eq_bitwise (data : Bytes) : crc32ByTable data = crc32Bitwise data ∧ crc32 data = crc32Bitwise data := by
  have hbitwise : crc32 data = crc32Bitwise data := by rw [crc32, crc32Bitwise, foldl_crcStep]
  exact ⟨(crc32ByTable_eq_crc32 data).trans hbitwise, hbitwise⟩

end FabricEvolution
