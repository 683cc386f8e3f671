import FabricEvolution.Lib.Mix
import FabricEvolution.Authority.Incumbent

/-!
# The seeded token source

* `SeededTokenSource.nextToken` : splitmix64 from a caller-supplied seed;
* `mix_injective` : different states give different first words;
* `seeded_tokens_distinct` : two tokens of a source are equal exactly if `2 ^ 63` divides the distance of their numbers; none
  is nil.
-/

namespace FabricEvolution
open Lib

structure SeededTokenSource where
  state : BitVec 64

namespace SeededTokenSource

def gamma : BitVec 64 := 0x9E3779B97F4A7C15

/-- A word from a state. -/
def mix (z : BitVec 64) : BitVec 64 :=
  let z := (z ^^^ z >>> 30) * 0xBF58476D1CE4E5B9
  let z := (z ^^^ z >>> 27) * 0x94D049BB133111EB
  z ^^^ z >>> 31

/-- The source of a seed; 0 stands for 1. -/
def ofSeed (seed : BitVec 64) : SeededTokenSource := ⟨if seed = 0 then 1 else seed⟩

/-- The bytes of two words, each from its low end. -/
def uuidOfWords (first second : BitVec 64) : Uuid128 :=
  ⟨wordBytes 8 first ++ wordBytes 8 second, by simp⟩

def nextToken (source : SeededTokenSource) : AuthorityToken × SeededTokenSource :=
  let state := source.state + gamma
  let first := mix state
  let state := state + gamma
  let second := mix state
  let value := uuidOfWords first second
  (if value.isNil then ⟨List.replicate 15 0 ++ [1], by simp⟩ else value, ⟨state⟩)

/-- The tokens of a source, by their number. -/
def token (source : SeededTokenSource) (n : Nat) : AuthorityToken := ((fun s => s.nextToken.2)^[n] source).nextToken.1

variable {source : SeededTokenSource}

theorem mix_injective : Function.Injective mix := by
  have hfirst : (0xBF58476D1CE4E5B9 : BitVec 64) * 0x96DE1B173F119089 = 1 := by decide
  have hsecond : (0x94D049BB133111EB : BitVec 64) * 0x319642B2D24D8EC3 = 1 := by decide
  intro x y h
  apply xor_ushiftRight_injective 30 (by decide)
  apply mul_injective hfirst
  apply xor_ushiftRight_injective 27 (by decide)
  apply mul_injective hsecond
  exact xor_ushiftRight_injective 31 (by decide) h

/-- A token moves the state on by two steps. -/
theorem state_iterate (source : SeededTokenSource) (n : Nat) :
    ((fun s => s.nextToken.2)^[n] source).state = source.state + BitVec.ofNat 64 (2 * n) * gamma := by
  induction n with
  | zero => simp
  | succ n ih =>
    rw [Function.iterate_succ_apply']
    show ((fun s => s.nextToken.2)^[n] source).state + gamma + gamma = _
    rw [ih, show 2 * (n + 1) = 2 * n + 1 + 1 by omega, BitVec.ofNat_add, BitVec.ofNat_add, BitVec.add_mul, BitVec.add_mul]
    simp [BitVec.add_assoc]

/-- The first word of token `n`. -/
def firstWord (source : SeededTokenSource) (n : Nat) : BitVec 64 :=
  mix (source.state + BitVec.ofNat 64 (2 * n + 1) * gamma)

/-- The first half of a token is its first word, also where the token replaces the nil one. -/
theorem take_nextToken (source : SeededTokenSource) :
    (source.nextToken.1.bytes).take 8 = wordBytes 8 (mix (source.state + gamma)) := by
  unfold nextToken
  dsimp only
  split_ifs with hnil
  · have hzero : ∀ b ∈ wordBytes 8 (mix (source.state + gamma)), b = 0 := by
      intro b hb
      simp only [Uuid128.isNil, uuidOfWords, List.all_append, Bool.and_eq_true, List.all_eq_true, decide_eq_true_eq] at hnil
      exact hnil.1 b hb
    rw [List.eq_replicate_of_mem hzero, length_wordBytes]
    rfl
  · rw [uuidOfWords, List.take_append_of_le_length (by simp), List.take_of_length_le (by simp)]

theorem take_token (source : SeededTokenSource) (n : Nat) : ((source.token n).bytes).take 8 = wordBytes 8 (source.firstWord n) := by
  rw [token, take_nextToken, state_iterate, firstWord, BitVec.ofNat_add, BitVec.add_mul, BitVec.add_assoc]
  simp

theorem isValid_nextToken (source : SeededTokenSource) : source.nextToken.1.isValid = true := by
  unfold nextToken
  dsimp only
  split_ifs with hnil
  · rfl
  · simp [Uuid128.isValid, hnil]

/-- An odd multiplier can be undone. -/
theorem gamma_injective : Function.Injective (· * gamma) := mul_injective (d := 0xF1DE83E19937733D) (by decide)

theorem firstWord_inj {i j : Nat} : source.firstWord i = source.firstWord j ↔ i % 2 ^ 63 = j % 2 ^ 63 := by
  have hnumber : BitVec.ofNat 64 (2 * i + 1) = BitVec.ofNat 64 (2 * j + 1) ↔ i % 2 ^ 63 = j % 2 ^ 63 := by
    rw [← BitVec.toNat_inj, BitVec.toNat_ofNat, BitVec.toNat_ofNat]
    omega
  rw [← hnumber]
  constructor
  · intro h
    apply gamma_injective
    exact (BitVec.add_right_inj source.state).mp (mix_injective h)
  · intro h
    rw [firstWord, firstWord, h]

end SeededTokenSource

/-- For every seed: two of its tokens are equal exactly if `2 ^ 63` divides the distance of their numbers, and no token is nil. Its
first `2 ^ 63` tokens are such as a registry takes for granted. -/
theorem seeded_tokens_distinct (seed : BitVec 64) :
    (∀ i j, (SeededTokenSource.ofSeed seed).token i = (SeededTokenSource.ofSeed seed).token j ↔ i % 2 ^ 63 = j % 2 ^ 63) ∧
      GoodTokens (SeededTokenSource.ofSeed seed).token (2 ^ 63) := by
  have hvalid : ∀ i, ((SeededTokenSource.ofSeed seed).token i).isValid = true := fun i => SeededTokenSource.isValid_nextToken _
  have hinj : ∀ i j, (SeededTokenSource.ofSeed seed).token i = (SeededTokenSource.ofSeed seed).token j ↔ i % 2 ^ 63 = j % 2 ^ 63 := by
    intro i j
    rw [← SeededTokenSource.firstWord_inj]
    constructor
    · intro h
      apply wordBytes_injective (n := 8) (by decide)
      rw [← SeededTokenSource.take_token, ← SeededTokenSource.take_token, h]
    · intro h
      have hnumber := SeededTokenSource.firstWord_inj.mp h
      have hstate : BitVec.ofNat 64 (2 * i) = BitVec.ofNat 64 (2 * j) := by
        rw [← BitVec.toNat_inj, BitVec.toNat_ofNat, BitVec.toNat_ofNat]
        omega
      have hsource : ∀ s s' : SeededTokenSource, s.state = s'.state → s.nextToken.1 = s'.nextToken.1 := by
        rintro ⟨_⟩ ⟨_⟩ rfl
        rfl
      apply hsource
      rw [SeededTokenSource.state_iterate, SeededTokenSource.state_iterate, hstate]
  refine ⟨hinj, fun i hi j hj h => ?_, fun i _ => hvalid i⟩
  have hsame := (hinj i j).mp h
  omega

end FabricEvolution
