import FabricEvolution.Lib.Sha2
import FabricEvolution.Wire.Sha256

/-!
# The streaming hash

* `Sha256.Stream` : a hash in progress; `update`, `finalize` : more of the message, and the digest in the end;
* `Stream.Holds` : the message so far; `holds_update`, `holds_padZeros`, `finalize_eq` : the digest of the padded message;
* `compress_eq`, `bits_padded` : the hash of a block and the padding are those of the Secure Hash Standard;
* `finalize_updates` : however a message is split, the digest is its hash.
-/

namespace FabricEvolution
open Lib

namespace Sha256

/-! ## The hash in progress -/

/-- The state, the bytes that wait for the rest of their block, and the length so far, a 64-bit counter. -/
structure Stream where
  state : State
  buffer : Bytes
  totalBytes : Nat
  used : buffer.length < 64

/-- A hash in progress, and data that is not yet taken. -/
structure Filled where
  state : State
  buffer : Bytes
  rest : Bytes

namespace Stream

def reset : Stream := ⟨.initial, [], 0, by decide⟩

/-- The front of the data fills the block in the buffer. -/
def fill (stream : Stream) (data : Bytes) : Filled :=
  if stream.buffer = [] then ⟨stream.state, [], data⟩
  else
    let room := 64 - stream.buffer.length
    let buffer := stream.buffer ++ data.take room
    if buffer.length = 64 then ⟨compress stream.state buffer, [], data.drop room⟩
    else ⟨stream.state, buffer, data.drop room⟩

/-- Either the buffer is empty or the data is taken; the message is the same. -/
theorem fill_cases (stream : Stream) (data : Bytes) :
    ((stream.fill data).buffer = [] ∨ (stream.fill data).rest = [] ∧ (stream.fill data).buffer.length < 64) ∧
      absorb 64 compress stream.state (stream.buffer ++ data) =
        absorb 64 compress (stream.fill data).state ((stream.fill data).buffer ++ (stream.fill data).rest) := by
  have hused := stream.used
  unfold fill
  by_cases hempty : stream.buffer = []
  · rw [if_pos hempty, hempty]
    exact ⟨.inl rfl, rfl⟩
  rw [if_neg hempty]
  dsimp only
  by_cases hfull : (stream.buffer ++ data.take (64 - stream.buffer.length)).length = 64
  · rw [if_pos hfull]
    rw [List.length_append, List.length_take] at hfull
    have htake : (stream.buffer ++ data).take 64 = stream.buffer ++ data.take (64 - stream.buffer.length) := by
      rw [List.take_append, List.take_of_length_le (by omega)]
    have hdrop : (stream.buffer ++ data).drop 64 = data.drop (64 - stream.buffer.length) := by
      rw [List.drop_append, List.drop_eq_nil_of_le (by omega), List.nil_append]
    refine ⟨.inl rfl, ?_⟩
    rw [absorb_block (by decide) (by rw [List.length_append]; omega), htake, hdrop, List.nil_append]
  · rw [if_neg hfull]
    rw [List.length_append, List.length_take] at hfull
    have hshort : data.length ≤ 64 - stream.buffer.length := by omega
    refine ⟨.inr ⟨List.drop_eq_nil_of_le hshort, ?_⟩, ?_⟩
    · rw [List.length_append, List.take_of_length_le hshort]
      rw [Nat.min_eq_right hshort] at hfull
      omega
    · rw [List.append_assoc, List.take_append_drop]

/-- Whole blocks are taken from the data itself, what is left of it joins the buffer. -/
theorem absorb_fill (stream : Stream) (data : Bytes) : absorb 64 compress stream.state (stream.buffer ++ data) =
    ((absorb 64 compress (stream.fill data).state (stream.fill data).rest).1,
      (stream.fill data).buffer ++ (absorb 64 compress (stream.fill data).state (stream.fill data).rest).2) := by
  obtain ⟨hcases, hsame⟩ := stream.fill_cases data
  rw [hsame]
  rcases hcases with hempty | ⟨htaken, hshort⟩
  · rw [hempty, List.nil_append, List.nil_append]
  · rw [htaken, List.append_nil, absorb_short hshort, absorb_short (by decide), List.append_nil]

theorem length_fill_lt (stream : Stream) (data : Bytes) : ((stream.fill data).buffer ++
    (absorb 64 compress (stream.fill data).state (stream.fill data).rest).2).length < 64 := by
  have hlength := length_absorb compress stream.state (stream.buffer ++ data) (show 0 < 64 by decide)
  rw [absorb_fill] at hlength
  rw [hlength]
  exact Nat.mod_lt _ (by decide)

/-- More of the message. -/
def update (stream : Stream) (data : Bytes) : Stream :=
  let filled := stream.fill data
  let blocks := absorb 64 compress filled.state filled.rest
  { state := blocks.1
    buffer := filled.buffer ++ blocks.2
    totalBytes := (stream.totalBytes + data.length) % 2 ^ 64
    used := stream.length_fill_lt data }

theorem absorb_update (stream : Stream) (data : Bytes) : absorb 64 compress stream.state (stream.buffer ++ data) =
    ((stream.update data).state, (stream.update data).buffer) :=
  stream.absorb_fill data

theorem length_update (stream : Stream) (data : Bytes) :
    (stream.update data).buffer.length = (stream.buffer.length + data.length) % 64 := by
  have hlength := length_absorb compress stream.state (stream.buffer ++ data) (show 0 < 64 by decide)
  rw [absorb_update, List.length_append] at hlength
  exact hlength

/-- Zeros until the length fits behind them. -/
def padZeros (stream : Stream) : Stream :=
  if stream.buffer.length = 56 then stream else (stream.update [byteOf 0]).padZeros
termination_by (120 - stream.buffer.length) % 64
decreasing_by
  have hused := stream.used
  rw [length_update, List.length_singleton]
  omega

def finalize (stream : Stream) : Digest :=
  let bitLength := stream.totalBytes * 8 % 2 ^ 64
  let ended := (stream.update [byteOf 0x80]).padZeros
  (ended.update (leBytes 8 bitLength).reverse).state.digest

/-! ## The message so far -/

/-- The bytes taken so far, apart from how they came. -/
def Holds (stream : Stream) (message : Bytes) : Prop :=
  absorb 64 compress .initial message = (stream.state, stream.buffer)

variable {stream : Stream} {message : Bytes}

theorem holds_reset : reset.Holds [] := absorb_short (by decide)

theorem holds_update (h : stream.Holds message) (data : Bytes) : (stream.update data).Holds (message ++ data) := by
  unfold Holds at h ⊢
  rw [absorb_append (by decide), h, absorb_update]

theorem Holds.length (h : stream.Holds message) : stream.buffer.length = message.length % 64 := by
  have hlength := length_absorb compress State.initial message (show 0 < 64 by decide)
  rw [h] at hlength
  exact hlength

/-- As many zeros as the padding has. -/
theorem holds_padZeros (h : stream.Holds message) :
    stream.padZeros.Holds (message ++ List.replicate ((120 - stream.buffer.length) % 64) (byteOf 0)) := by
  induction stream using padZeros.induct generalizing message with
  | case1 stream hdone =>
    rw [padZeros, if_pos hdone, hdone]
    simpa using h
  | case2 stream hmore ih =>
    have hused := stream.used
    have hcount : (120 - stream.buffer.length) % 64 = (120 - (stream.update [byteOf 0]).buffer.length) % 64 + 1 := by
      rw [length_update, List.length_singleton]
      omega
    rw [padZeros, if_neg hmore, hcount, List.replicate_succ, List.append_cons]
    exact ih (holds_update h [byteOf 0])

theorem foldl_update (chunks : List Bytes) (h : stream.Holds message) :
    (chunks.foldl update stream).Holds (message ++ chunks.flatten) := by
  induction chunks generalizing stream message with
  | nil => simpa using h
  | cons chunk chunks ih =>
    rw [List.foldl_cons, List.flatten_cons, ← List.append_assoc]
    exact ih (holds_update h chunk)

theorem totalBytes_foldl (chunks : List Bytes) (stream : Stream) :
    (chunks.foldl update stream).totalBytes % 2 ^ 64 = (stream.totalBytes + chunks.flatten.length) % 2 ^ 64 := by
  induction chunks generalizing stream with
  | nil => rfl
  | cons chunk chunks ih =>
    rw [List.foldl_cons, ih, List.flatten_cons, List.length_append]
    show ((stream.totalBytes + chunk.length) % 2 ^ 64 + chunks.flatten.length) % 2 ^ 64 = _
    omega

end Stream

/-! ## The padded message -/

theorem length_padded (data : Bytes) : (padded data).length % 64 = 0 := by
  rw [padded]
  simp only [List.length_append, List.length_cons, List.length_replicate, List.length_reverse, length_leBytes]
  omega

theorem compressAll_eq (s : State) (data : Bytes) : compressAll (data.length / 64) s data = (absorb 64 compress s data).1 := by
  induction s, data using absorb_induction compress (show 0 < 64 by decide) with
  | short s data h => rw [absorb_short h, Nat.div_eq_of_lt h]; rfl
  | block s data h ih =>
    have hblocks : data.length / 64 = (data.drop 64).length / 64 + 1 := by
      rw [List.length_drop]
      omega
    rw [absorb_block (by decide) h, hblocks, compressAll, ih]

theorem sha256_eq (data : Bytes) : sha256 data = (absorb 64 compress .initial (padded data)).1.digest := by
  rw [← compressAll_eq]
  rfl

/-- The digest is that of the padded message. -/
theorem Stream.finalize_eq {stream : Stream} {message : Bytes} (h : stream.Holds message)
    (htotal : stream.totalBytes * 8 % 2 ^ 64 = message.length * 8) : stream.finalize = sha256 message := by
  have hended := holds_padZeros (holds_update h [byteOf 0x80])
  have hzeros : (120 - (stream.update [byteOf 0x80]).buffer.length) % 64 = (119 - message.length % 64) % 64 := by
    rw [length_update, h.length, List.length_singleton]
    omega
  rw [hzeros] at hended
  have hpadded := holds_update hended (leBytes 8 (message.length * 8)).reverse
  unfold Holds at hpadded
  rw [sha256_eq, finalize, htotal, padded, List.append_cons, hpadded]

/-! ## The Secure Hash Standard -/

/-- The bits of a byte string, the highest of each byte first. -/
def bits (data : Bytes) : List Bool := data.flatMap fun c => Sha2.toBits 8 (byteValue c)

def State.working (s : State) : Sha2.Working := ⟨s.a, s.b, s.c, s.d, s.e, s.f, s.g, s.h⟩

theorem length_bits (data : Bytes) : (bits data).length = 8 * data.length :=
  length_flatMap_const (fun c => Sha2.length_toBits 8 (byteValue c)) data

theorem bits_append (data more : Bytes) : bits (data ++ more) = bits data ++ bits more := List.flatMap_append

theorem rotr_eq (value : Word) {count : Nat} (h : count < 32) : rotr value count = value.rotateRight count := by
  rw [rotr, BitVec.rotateRight_def, Nat.mod_eq_of_lt h]

theorem round_eq (s : State) (constant word : Word) : Sha2.round s.working constant word = (round s constant word).working := by
  simp only [Sha2.round, round, State.working, Sha2.bigSigma0, Sha2.bigSigma1, Sha2.choose, Sha2.majority,
    rotr_eq _ (show 2 < 32 by decide), rotr_eq _ (show 13 < 32 by decide), rotr_eq _ (show 22 < 32 by decide),
    rotr_eq _ (show 6 < 32 by decide), rotr_eq _ (show 11 < 32 by decide), rotr_eq _ (show 25 < 32 by decide)]

/-! ### Constants -/

/-- A word is the front of the fraction of a root with the integer part `whole`. -/
def spellsRoot (degree whole value : Nat) (word : Word) : Bool :=
  let r := whole * 2 ^ 32 + word.toNat
  r ^ degree ≤ value * 2 ^ (32 * degree) && value * 2 ^ (32 * degree) < (r + 1) ^ degree

theorem rootBits_of_spellsRoot {degree whole value : Nat} {word : Word} (hdegree : degree ≠ 0)
    (h : spellsRoot degree whole value word = true) : Sha2.rootBits degree value = word := by
  simp only [spellsRoot, Bool.and_eq_true, decide_eq_true_eq] at h
  apply BitVec.eq_of_toNat_eq
  rw [Sha2.rootBits, Sha2.root_eq hdegree h.1 h.2, BitVec.toNat_ofNat]
  have hword := word.isLt
  omega

/-- The integer part of the cube root of a prime below 312. -/
def wholeCubeRoot (p : Nat) : Nat := ((List.range 7).filter fun r => r ^ 3 ≤ p).getLastD 0

/-- By trial division, for numbers below 324. -/
def isPrime (p : Nat) : Bool := 2 ≤ p && (List.range 18).all fun d => d < 2 || p < d * d || p % d ≠ 0

theorem isPrime_iff {p : Nat} (h : p < 324) : isPrime p = true ↔ p.Prime := by
  rw [Nat.prime_def_le_sqrt, isPrime]
  simp only [Bool.and_eq_true, decide_eq_true_eq, List.all_eq_true, List.mem_range, Bool.or_eq_true, Nat.dvd_iff_mod_eq_zero,
    Nat.le_sqrt]
  constructor
  · rintro ⟨htwo, hall⟩
    refine ⟨htwo, fun d hd hsquare hmod => ?_⟩
    have hlt : d < 18 := by
      by_contra hlarge
      have := Nat.mul_le_mul (Nat.le_of_not_lt hlarge) (Nat.le_of_not_lt hlarge)
      omega
    rcases hall d hlt with (hsmall | hlarge) | hrest
    · omega
    · omega
    · exact hrest hmod
  · rintro ⟨htwo, hall⟩
    refine ⟨htwo, fun d hlt => ?_⟩
    by_cases hsmall : d < 2
    · exact .inl (.inl hsmall)
    by_cases hlarge : p < d * d
    · exact .inl (.inr hlarge)
    · exact .inr (hall d (by omega) (by omega))

theorem primes_eq : Sha2.primes = (List.range 312).filter isPrime := by
  rw [Sha2.primes]
  apply List.filter_congr
  intro p hp
  have hlt := List.mem_range.mp hp
  rw [Bool.eq_iff_iff, decide_eq_true_eq, isPrime_iff (by omega)]

theorem map_eq_of_zip {α β : Type} {f : α → β} {as : List α} {bs : List β} (hlength : as.length = bs.length)
    (h : ∀ pair ∈ as.zip bs, f pair.1 = pair.2) : as.map f = bs := by
  induction as generalizing bs with
  | nil => exact (List.length_eq_zero_iff.mp hlength.symm).symm
  | cons a as ih =>
    cases bs with
    | nil => cases hlength
    | cons b bs =>
      rw [List.map_cons, h (a, b) List.mem_cons_self,
        ih (Nat.succ.inj hlength) fun pair hpair => h pair (List.mem_cons_of_mem _ hpair)]

/-- The table is that of the cube roots of the first sixty-four primes. -/
theorem constants_eq : Sha2.constants = kRoundConstants := by
  have hlength : ((List.range 312).filter isPrime).length = kRoundConstants.length := by decide +kernel
  have hall : (((List.range 312).filter isPrime).zip kRoundConstants).all
      (fun pair => spellsRoot 3 (wholeCubeRoot pair.1) pair.1 pair.2) = true := by decide +kernel
  rw [Sha2.constants, primes_eq]
  apply map_eq_of_zip hlength
  intro pair hpair
  exact rootBits_of_spellsRoot (by decide) (List.all_eq_true.mp hall pair hpair)

theorem initial_eq : Sha2.initial = State.initial.working := by
  have hroot : ∀ (whole value : Nat) (word : Word), spellsRoot 2 whole value word = true → Sha2.rootBits 2 value = word :=
    fun _ _ _ h => rootBits_of_spellsRoot (by decide) h
  rw [Sha2.initial, hroot 1 2 0x6a09e667 (by decide +kernel), hroot 1 3 0xbb67ae85 (by decide +kernel),
    hroot 2 5 0x3c6ef372 (by decide +kernel), hroot 2 7 0xa54ff53a (by decide +kernel),
    hroot 3 11 0x510e527f (by decide +kernel), hroot 3 13 0x9b05688c (by decide +kernel),
    hroot 4 17 0x1f83d9ab (by decide +kernel), hroot 4 19 0x5be0cd19 (by decide +kernel)]
  rfl

/-! ### One block -/

theorem byteValue_lt_256 (c : Char) : byteValue c < 2 ^ 8 := Nat.mod_lt _ (by decide)

/-- The number that the bits of four bytes spell. -/
theorem ofBits_bits_four (a b c d : Char) :
    Sha2.ofBits (bits [a, b, c, d]) = ((byteValue a * 256 + byteValue b) * 256 + byteValue c) * 256 + byteValue d := by
  have hbyte : ∀ x : Char, Sha2.ofBits (Sha2.toBits 8 (byteValue x)) = byteValue x := by
    intro x
    rw [Sha2.ofBits_toBits, Nat.mod_eq_of_lt (byteValue_lt_256 x)]
  simp only [bits, List.flatMap_cons, List.flatMap_nil, List.append_nil, Sha2.ofBits_append, List.length_append,
    Sha2.length_toBits, hbyte]
  ring

theorem blockWords_getD (block : Bytes) (t : Nat) (h : 4 * t + 4 ≤ block.length) :
    (blockWords block).getD t 0 = Sha2.wordAt (bits block) t := by
  induction t generalizing block with
  | zero =>
    match block, h with
    | a :: b :: c :: d :: rest, _ =>
      have hfront : (bits (a :: b :: c :: d :: rest)).take 32 = bits [a, b, c, d] := by
        rw [show a :: b :: c :: d :: rest = [a, b, c, d] ++ rest from rfl, bits_append]
        exact List.take_left' (length_bits _)
      rw [blockWords, Sha2.wordAt, Nat.mul_zero, List.drop_zero, hfront, ofBits_bits_four]
      rfl
  | succ t ih =>
    match block, h with
    | a :: b :: c :: d :: rest, h =>
      have hrest : (bits (a :: b :: c :: d :: rest)).drop (32 * (t + 1)) = (bits rest).drop (32 * t) := by
        rw [show a :: b :: c :: d :: rest = [a, b, c, d] ++ rest from rfl, bits_append, Nat.mul_succ, Nat.add_comm,
          ← List.drop_drop, List.drop_left' (show (bits [a, b, c, d]).length = 32 from length_bits _)]
      have hshort : 4 * t + 4 ≤ rest.length := by
        simp only [List.length_cons] at h
        omega
      rw [blockWords, List.getD_cons_succ, ih rest hshort, Sha2.wordAt, Sha2.wordAt, hrest]

theorem length_blockWords (block : Bytes) : (blockWords block).length = block.length / 4 := by
  induction block using blockWords.induct with
  | case1 a b c d rest ih =>
    rw [blockWords, List.length_cons, ih]
    simp only [List.length_cons]
    omega
  | case2 block h =>
    rw [blockWords]
    · match block, h with
      | [], _ => rfl
      | [_], _ => simp
      | [_, _], _ => simp
      | [_, _, _], _ => simp
      | a :: b :: c :: d :: rest, h => exact absurd rfl (h a b c d rest)
    · exact h

/-- The words of the schedule below `count`. -/
def firstWords (block : List Bool) (count : Nat) : List Word := (List.range count).map (Sha2.schedule block)

theorem firstWords_succ (block : List Bool) (count : Nat) :
    (firstWords block (count + 1)).reverse = Sha2.schedule block count :: (firstWords block count).reverse := by
  rw [firstWords, List.range_succ, List.map_append, List.map_singleton, List.reverse_append]
  rfl

theorem firstWords_getD (block : List Bool) {count back : Nat} (h : back < count) :
    (firstWords block count).reverse.getD back 0 = Sha2.schedule block (count - 1 - back) := by
  have hlength : (firstWords block count).length = count := by rw [firstWords, List.length_map, List.length_range]
  rw [List.getD_eq_getElem _ _ (by rw [List.length_reverse, hlength]; exact h), List.getElem_reverse]
  simp only [firstWords, List.getElem_map, List.getElem_range, List.length_map, List.length_range]

/-- The words computed from earlier ones. -/
theorem extend_eq (block : List Bool) (more : Nat) {count : Nat} (h : 16 ≤ count) :
    extend more (firstWords block count).reverse = (firstWords block (count + more)).reverse := by
  induction more generalizing count with
  | zero => rfl
  | succ more ih =>
    have hword : Sha2.schedule block count = Sha2.smallSigma1 (Sha2.schedule block (count - 2)) +
        Sha2.schedule block (count - 7) + Sha2.smallSigma0 (Sha2.schedule block (count - 15)) + Sha2.schedule block (count - 16) := by
      rw [Sha2.schedule, if_neg (by omega)]
    rw [extend, firstWords_getD block (show 14 < count by omega), firstWords_getD block (show 1 < count by omega),
      firstWords_getD block (show 15 < count by omega), firstWords_getD block (show 6 < count by omega)]
    rw [show count + (more + 1) = count + 1 + more by omega, ← ih (by omega), firstWords_succ, hword]
    simp only [Sha2.smallSigma0, Sha2.smallSigma1, rotr_eq _ (show 7 < 32 by decide), rotr_eq _ (show 18 < 32 by decide),
      rotr_eq _ (show 17 < 32 by decide), rotr_eq _ (show 19 < 32 by decide), Nat.sub_sub]
    congr 2
    ac_rfl

theorem schedule_eq {block : Bytes} (h : block.length = 64) : schedule block = firstWords (bits block) 64 := by
  have hfirst : blockWords block = firstWords (bits block) 16 := by
    apply List.ext_getElem
    · rw [length_blockWords, h, firstWords, List.length_map, List.length_range]
    · intro t ht _
      rw [length_blockWords, h] at ht
      have hword := blockWords_getD block t (by omega)
      rw [List.getD_eq_getElem _ _ (by rw [length_blockWords, h]; exact ht)] at hword
      rw [hword]
      simp only [firstWords, List.getElem_map, List.getElem_range]
      rw [Sha2.schedule, if_pos (by omega)]
  rw [schedule, hfirst, extend_eq _ 48 (by decide), List.reverse_reverse]

theorem rounds_append (s : State) (pairs : List (Word × Word)) (constant word : Word) :
    rounds s (pairs ++ [(constant, word)]) = round (rounds s pairs) constant word := by
  induction pairs generalizing s with
  | nil => rfl
  | cons pair pairs ih => exact ih _

theorem rounds_eq (s : State) (block : List Bool) (count : Nat) :
    Sha2.rounds s.working block count =
      (rounds s ((List.range count).map fun t => (kRoundConstants.getD t 0, Sha2.schedule block t))).working := by
  induction count with
  | zero => rfl
  | succ count ih =>
    rw [Sha2.rounds, ih, constants_eq, round_eq, List.range_succ, List.map_append, List.map_singleton, rounds_append]

/-- The hash of one block is that of the standard. -/
theorem compress_eq (s : State) {block : Bytes} (h : block.length = 64) :
    Sha2.compress s.working (bits block) = (compress s block).working := by
  have hconstants : kRoundConstants = (List.range 64).map fun t => kRoundConstants.getD t 0 := by decide +kernel
  have hpairs : kRoundConstants.zip (schedule block) =
      (List.range 64).map fun t => (kRoundConstants.getD t 0, Sha2.schedule (bits block) t) := by
    rw [schedule_eq h, firstWords]
    conv_lhs => rw [hconstants]
    exact List.zip_map'
  rw [Sha2.compress, rounds_eq, ← hpairs]
  rfl

/-! ### The message -/

theorem bits_byteOf (value : Nat) : Sha2.toBits 8 (byteValue (byteOf value)) = Sha2.toBits 8 value := by
  rw [byteValue_byteOf, show 256 = 2 ^ 8 from rfl, Sha2.toBits_mod 8 value (Nat.le_refl 8)]

/-- The highest byte first, as in the standard. -/
theorem bits_leBytes_reverse (width value : Nat) : bits (leBytes width value).reverse = Sha2.toBits (8 * width) value := by
  induction width generalizing value with
  | zero => rfl
  | succ width ih =>
    rw [leBytes, List.reverse_cons, bits_append, ih, Nat.mul_succ, Sha2.toBits_add]
    congr 1
    rw [bits, List.flatMap_singleton, bits_byteOf]

theorem bits_zeros (count : Nat) : bits (List.replicate count (byteOf 0)) = List.replicate (8 * count) false := by
  induction count with
  | zero => rfl
  | succ count ih =>
    rw [List.replicate_succ, ← List.singleton_append, bits_append, ih, bits, List.flatMap_singleton, bits_byteOf,
      Sha2.toBits_zero, List.replicate_append_replicate, Nat.mul_succ, Nat.add_comm]

/-- The padding is that of the standard. -/
theorem bits_padded (data : Bytes) : bits (padded data) = Sha2.padded (bits data) := by
  have hone : bits [byteOf 0x80] = true :: List.replicate 7 false := by
    rw [bits, List.flatMap_singleton, bits_byteOf]
    decide
  have hzeros : (959 - 8 * data.length % 512) % 512 = 7 + 8 * ((119 - data.length % 64) % 64) := by omega
  rw [padded, Sha2.padded, List.append_cons, bits_append, bits_append, bits_append, hone, bits_zeros, bits_leBytes_reverse,
    length_bits, hzeros, ← List.replicate_append_replicate, Nat.mul_comm data.length 8, List.append_assoc (bits data),
    List.cons_append]

theorem bits_wordBytes (word : Word) : (wordBytes word).flatMap (fun byte => Sha2.toBits 8 byte.val) = Sha2.toBits 32 word.toNat := by
  have hsplit : Sha2.toBits 32 word.toNat = Sha2.toBits 8 (word.toNat / 2 ^ 24) ++ (Sha2.toBits 8 (word.toNat / 2 ^ 16) ++
      (Sha2.toBits 8 (word.toNat / 2 ^ 8) ++ Sha2.toBits 8 word.toNat)) := by
    rw [Sha2.toBits_add 8 24, Sha2.toBits_add 8 16, Sha2.toBits_add 8 8]
  have hbyte : ∀ value, Sha2.toBits 8 (Fin.ofNat 256 value).val = Sha2.toBits 8 value := by
    intro value
    rw [show (Fin.ofNat 256 value).val = value % 2 ^ 8 from rfl, Sha2.toBits_mod 8 value (Nat.le_refl 8)]
  rw [hsplit, wordBytes]
  simp only [List.flatMap_cons, List.flatMap_nil, List.append_nil, hbyte, Nat.shiftRight_eq_div_pow]

/-- The bits of a digest. -/
def digestBits (digest : Digest) : List Bool := digest.bytes.flatMap fun byte => Sha2.toBits 8 byte.val

theorem digestBits_digest (s : State) : digestBits s.digest = s.working.words.flatMap fun word => Sha2.toBits 32 word.toNat := by
  rw [digestBits, State.digest, List.flatMap_assoc]
  simp only [bits_wordBytes]
  rfl

/-- The hash of a byte string is that of the standard. -/
theorem digestBits_sha256 (data : Bytes) : digestBits (sha256 data) = Sha2.hash (bits data) := by
  have habsorb : absorb (8 * 64) Sha2.compress State.initial.working (bits (padded data)) =
      ((absorb 64 compress .initial (padded data)).1.working, bits (absorb 64 compress .initial (padded data)).2) :=
    absorb_flatMap State.working (by decide) (by decide) (fun c => Sha2.length_toBits 8 (byteValue c))
      (fun s block h => compress_eq s h) .initial (padded data)
  have hstate : (absorb 512 Sha2.compress Sha2.initial (Sha2.padded (bits data))).1 =
      (absorb 64 compress .initial (padded data)).1.working := by
    rw [initial_eq, ← bits_padded]
    exact congrArg Prod.fst habsorb
  rw [sha256_eq, digestBits_digest, Sha2.hash, hstate]

/-- However a message of less than 2^61 bytes is split into updates, the digest in the end is its hash by the standard. -/
theorem finalize_updates (chunks : List Bytes) (h : chunks.flatten.length < 2 ^ 61) :
    digestBits (chunks.foldl Stream.update .reset).finalize = Sha2.hash (bits chunks.flatten) := by
  have hholds := Stream.foldl_update chunks Stream.holds_reset
  rw [List.nil_append] at hholds
  have htotal := Stream.totalBytes_foldl chunks .reset
  rw [show Stream.reset.totalBytes = 0 from rfl, Nat.zero_add] at htotal
  rw [Stream.finalize_eq hholds (by omega), digestBits_sha256]

theorem finalize_updates_abc : ["a".toList, "bc".toList].flatten.length < 2 ^ 61 ∧
    digestBits (["a".toList, "bc".toList].foldl Stream.update .reset).finalize = Sha2.hash (bits ["a".toList, "bc".toList].flatten) :=
  ⟨by decide, finalize_updates ["a".toList, "bc".toList] (by decide)⟩

end Sha256

end FabricEvolution
