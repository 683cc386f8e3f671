import FabricEvolution.Persistence.Bytes
import FabricEvolution.Wire.Version

/-!
# Content digests

* `sha256` : the hash of a byte string, over the padded message block by block;
* `Separates` : the hash tells two texts apart, the one fact about collisions that a comparison of digests needs.
-/

namespace FabricEvolution

namespace Sha256

abbrev Word := BitVec 32

def kRoundConstants : List Word :=
  [0x428a2f98, 0x71374491, 0xb5c0fbcf, 0xe9b5dba5, 0x3956c25b, 0x59f111f1, 0x923f82a4, 0xab1c5ed5,
    0xd807aa98, 0x12835b01, 0x243185be, 0x550c7dc3, 0x72be5d74, 0x80deb1fe, 0x9bdc06a7, 0xc19bf174,
    0xe49b69c1, 0xefbe4786, 0x0fc19dc6, 0x240ca1cc, 0x2de92c6f, 0x4a7484aa, 0x5cb0a9dc, 0x76f988da,
    0x983e5152, 0xa831c66d, 0xb00327c8, 0xbf597fc7, 0xc6e00bf3, 0xd5a79147, 0x06ca6351, 0x14292967,
    0x27b70a85, 0x2e1b2138, 0x4d2c6dfc, 0x53380d13, 0x650a7354, 0x766a0abb, 0x81c2c92e, 0x92722c85,
    0xa2bfe8a1, 0xa81a664b, 0xc24b8b70, 0xc76c51a3, 0xd192e819, 0xd6990624, 0xf40e3585, 0x106aa070,
    0x19a4c116, 0x1e376c08, 0x2748774c, 0x34b0bcb5, 0x391c0cb3, 0x4ed8aa4a, 0x5b9cca4f, 0x682e6ff3,
    0x748f82ee, 0x78a5636f, 0x84c87814, 0x8cc70208, 0x90befffa, 0xa4506ceb, 0xbef9a3f7, 0xc67178f2]

structure State where
  a : Word
  b : Word
  c : Word
  d : Word
  e : Word
  f : Word
  g : Word
  h : Word

def State.initial : State :=
  ⟨0x6a09e667, 0xbb67ae85, 0x3c6ef372, 0xa54ff53a, 0x510e527f, 0x9b05688c, 0x1f83d9ab, 0x5be0cd19⟩

def rotr (value : Word) (count : Nat) : Word := value >>> count ||| value <<< (32 - count)

/-- The words of a block, the first byte of each the highest. -/
def blockWords : Bytes → List Word
  | a :: b :: c :: d :: rest =>
    BitVec.ofNat 32 (((byteValue a * 256 + byteValue b) * 256 + byteValue c) * 256 + byteValue d) :: blockWords rest
  | _ => []

/-- The schedule extended by `count` words; the latest word stands first. -/
def extend : Nat → List Word → List Word
  | 0, schedule => schedule
  | count + 1, schedule =>
    let w15 := schedule.getD 14 0
    let w2 := schedule.getD 1 0
    let s0 := rotr w15 7 ^^^ rotr w15 18 ^^^ w15 >>> 3
    let s1 := rotr w2 17 ^^^ rotr w2 19 ^^^ w2 >>> 10
    extend count ((schedule.getD 15 0 + s0 + schedule.getD 6 0 + s1) :: schedule)

def schedule (block : Bytes) : List Word := (extend 48 (blockWords block).reverse).reverse

/-- One round, with its constant and its word of the schedule. -/
def round (s : State) (constant word : Word) : State :=
  let sigma1 := rotr s.e 6 ^^^ rotr s.e 11 ^^^ rotr s.e 25
  let choose := s.e &&& s.f ^^^ ~~~s.e &&& s.g
  let temp1 := s.h + sigma1 + choose + constant + word
  let sigma0 := rotr s.a 2 ^^^ rotr s.a 13 ^^^ rotr s.a 22
  let majority := s.a &&& s.b ^^^ s.a &&& s.c ^^^ s.b &&& s.c
  ⟨temp1 + (sigma0 + majority), s.a, s.b, s.c, s.d + temp1, s.e, s.f, s.g⟩

def rounds : State → List (Word × Word) → State
  | s, [] => s
  | s, (constant, word) :: rest => rounds (round s constant word) rest

def compress (s : State) (block : Bytes) : State :=
  let t := rounds s (kRoundConstants.zip (schedule block))
  ⟨s.a + t.a, s.b + t.b, s.c + t.c, s.d + t.d, s.e + t.e, s.f + t.f, s.g + t.g, s.h + t.h⟩

/-- The blocks of 64 bytes. -/
def compressAll : Nat → State → Bytes → State
  | 0, s, _ => s
  | count + 1, s, data => compressAll count (compress s (data.take 64)) (data.drop 64)

/-- A `1` bit, zeros up to a block less eight bytes, and the length in bits, the highest byte first. -/
def padded (data : Bytes) : Bytes :=
  data ++ byteOf 0x80 :: List.replicate ((119 - data.length % 64) % 64) (byteOf 0) ++ (leBytes 8 (data.length * 8)).reverse

def State.words (s : State) : List Word := [s.a, s.b, s.c, s.d, s.e, s.f, s.g, s.h]

def wordBytes (word : Word) : List (Fin 256) :=
  [Fin.ofNat 256 (word.toNat >>> 24), Fin.ofNat 256 (word.toNat >>> 16), Fin.ofNat 256 (word.toNat >>> 8),
    Fin.ofNat 256 word.toNat]

/-- The state as the bytes of a digest. -/
def State.digest (s : State) : Digest := ⟨s.words.flatMap wordBytes, rfl⟩

end Sha256

def sha256 (data : Bytes) : Digest :=
  let message := Sha256.padded data
  (Sha256.compressAll (message.length / 64) .initial message).digest

example : (sha256 "abc".toList).toHex = "ba7816bf8f01cfea414140de5dae2223b00361a396177a9cb410ff61f20015ad" := by
  decide +kernel

/-- Two texts with the same digest are the same text. -/
def Separates (digestOf : Bytes → Digest) (text text' : Bytes) : Prop := digestOf text = digestOf text' → text = text'

end FabricEvolution
