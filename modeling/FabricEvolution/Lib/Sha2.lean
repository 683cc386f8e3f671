import FabricEvolution.Lib.Absorb

/-!
# The Secure Hash Standard, SHA-256

The hash of a message of bits, as the standard defines it.

* `ofBits`, `toBits` : numbers and bits, the highest bit first; `ofBits_append`, `toBits_add` : numbers in several parts;
* `root`, `rootBits` : the constants, the first 32 bits of the fractional parts of roots of primes; `root_eq`;
* `padded`, `schedule`, `round`, `compress`, `hash` : the padded message, and its hash block by block.
-/

namespace FabricEvolution.Lib.Sha2

abbrev Word := BitVec 32

/-! ## Bits -/

/-- The number that bits spell. -/
def ofBits (bits : List Bool) : Nat := bits.foldl (fun value bit => 2 * value + bit.toNat) 0

/-- The `width` low bits of a number. -/
def toBits : Nat → Nat → List Bool
  | 0, _ => []
  | width + 1, value => value.testBit width :: toBits width value

@[simp] theorem length_toBits (width value : Nat) : (toBits width value).length = width := by
  induction width with
  | zero => rfl
  | succ width ih => rw [toBits, List.length_cons, ih]

theorem foldl_bits (bits : List Bool) (start : Nat) :
    bits.foldl (fun value bit => 2 * value + bit.toNat) start = start * 2 ^ bits.length + ofBits bits := by
  induction bits generalizing start with
  | nil => simp [ofBits]
  | cons bit bits ih =>
    rw [ofBits, List.foldl_cons, List.foldl_cons, ih, ih (2 * 0 + bit.toNat), List.length_cons, Nat.pow_succ]
    ring

theorem ofBits_append (bits more : List Bool) : ofBits (bits ++ more) = ofBits bits * 2 ^ more.length + ofBits more := by
  rw [ofBits, List.foldl_append, foldl_bits]
  rfl

theorem ofBits_toBits (width value : Nat) : ofBits (toBits width value) = value % 2 ^ width := by
  induction width with
  | zero => rw [toBits, Nat.pow_zero, Nat.mod_one]; rfl
  | succ width ih =>
    have hbit : (value.testBit width).toNat = value / 2 ^ width % 2 := by rw [Nat.toNat_testBit]
    rw [toBits, ofBits, List.foldl_cons, foldl_bits, ih, length_toBits, Nat.mul_zero, Nat.zero_add, hbit,
      Nat.mod_pow_succ]
    ring

/-- The high bits of a number, and then the low ones. -/
theorem toBits_add (high low value : Nat) : toBits (high + low) value = toBits high (value / 2 ^ low) ++ toBits low value := by
  induction high with
  | zero => rw [Nat.zero_add]; rfl
  | succ high ih =>
    rw [Nat.succ_add, toBits, toBits, ih, Nat.testBit_div_two_pow, List.cons_append]

theorem toBits_mod (width value : Nat) {modulus : Nat} (h : width ≤ modulus) :
    toBits width (value % 2 ^ modulus) = toBits width value := by
  induction width with
  | zero => rfl
  | succ width ih =>
    rw [toBits, toBits, ih (by omega), Nat.testBit_mod_two_pow, decide_eq_true (show width < modulus by omega), Bool.true_and]

theorem toBits_zero (width : Nat) : toBits width 0 = List.replicate width false := by
  induction width with
  | zero => rfl
  | succ width ih => rw [toBits, ih, Nat.zero_testBit, List.replicate_succ]

/-! ## Constants -/

/-- The integer part of a root. -/
def root (degree value : Nat) : Nat := Nat.findGreatest (fun r => r ^ degree ≤ value) value

/-- The first 32 bits of the fractional part of a root. -/
def rootBits (degree value : Nat) : Word := BitVec.ofNat 32 (root degree (value * 2 ^ (32 * degree)))

theorem root_eq {degree value r : Nat} (hdegree : degree ≠ 0) (hlow : r ^ degree ≤ value) (hhigh : value < (r + 1) ^ degree) :
    root degree value = r := by
  rw [root, Nat.findGreatest_eq_iff]
  refine ⟨(Nat.le_self_pow hdegree r).trans hlow, fun _ => hlow, fun n hn _ hvalue => ?_⟩
  have hstep : (r + 1) ^ degree ≤ n ^ degree := Nat.pow_le_pow_left hn degree
  omega

/-- The first sixty-four primes. -/
def primes : List Nat := (List.range 312).filter Nat.Prime

/-- A word for each round. -/
def constants : List Word := primes.map (rootBits 3)

/-! ## Functions of words -/

def choose (x y z : Word) : Word := x &&& y ^^^ ~~~x &&& z

def majority (x y z : Word) : Word := x &&& y ^^^ x &&& z ^^^ y &&& z

def bigSigma0 (x : Word) : Word := x.rotateRight 2 ^^^ x.rotateRight 13 ^^^ x.rotateRight 22

def bigSigma1 (x : Word) : Word := x.rotateRight 6 ^^^ x.rotateRight 11 ^^^ x.rotateRight 25

def smallSigma0 (x : Word) : Word := x.rotateRight 7 ^^^ x.rotateRight 18 ^^^ x >>> 3

def smallSigma1 (x : Word) : Word := x.rotateRight 17 ^^^ x.rotateRight 19 ^^^ x >>> 10

/-! ## The hash -/

/-- A `1` bit, the fewest zeros, and the length in 64 bits, up to a multiple of 512 bits. -/
def padded (message : List Bool) : List Bool :=
  message ++ true :: List.replicate ((959 - message.length % 512) % 512) false ++ toBits 64 message.length

structure Working where
  a : Word
  b : Word
  c : Word
  d : Word
  e : Word
  f : Word
  g : Word
  h : Word

/-- The square roots of the first eight primes. -/
def initial : Working :=
  ⟨rootBits 2 2, rootBits 2 3, rootBits 2 5, rootBits 2 7, rootBits 2 11, rootBits 2 13, rootBits 2 17, rootBits 2 19⟩

/-- A word of a block. -/
def wordAt (block : List Bool) (t : Nat) : Word := BitVec.ofNat 32 (ofBits ((block.drop (32 * t)).take 32))

def schedule (block : List Bool) (t : Nat) : Word :=
  if t < 16 then wordAt block t
  else smallSigma1 (schedule block (t - 2)) + schedule block (t - 7) + smallSigma0 (schedule block (t - 15)) +
    schedule block (t - 16)
termination_by t

def round (v : Working) (constant word : Word) : Working :=
  let t1 := v.h + bigSigma1 v.e + choose v.e v.f v.g + constant + word
  let t2 := bigSigma0 v.a + majority v.a v.b v.c
  ⟨t1 + t2, v.a, v.b, v.c, v.d + t1, v.e, v.f, v.g⟩

/-- The rounds below `count`. -/
def rounds (v : Working) (block : List Bool) : Nat → Working
  | 0 => v
  | count + 1 => round (rounds v block count) (constants.getD count 0) (schedule block count)

def compress (v : Working) (block : List Bool) : Working :=
  let w := rounds v block 64
  ⟨v.a + w.a, v.b + w.b, v.c + w.c, v.d + w.d, v.e + w.e, v.f + w.f, v.g + w.g, v.h + w.h⟩

def Working.words (v : Working) : List Word := [v.a, v.b, v.c, v.d, v.e, v.f, v.g, v.h]

/-- The hash of a message, 256 bits. -/
def hash (message : List Bool) : List Bool :=
  (absorb 512 compress initial (padded message)).1.words.flatMap fun word => toBits 32 word.toNat

end FabricEvolution.Lib.Sha2
