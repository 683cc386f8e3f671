import FabricEvolution.Wire.Identity

/-!
# Digests and version identities

* `Digest` : thirty-two bytes and their hex form (`fromHex_toHex`); how a digest is computed from a
  JSON value is a parameter of the models that use it;
* `SoftwareVersion`, `ProtocolVersion` : parsed from and printed to dotted text.
-/

namespace FabricEvolution
open Lib

abbrev ManifestId := TaggedName
abbrev MigrationStepId := TaggedName

/-- The largest value of the 32-bit counters. -/
def maxU32 : Nat := 2 ^ 32 - 1

/-! ## Digests -/

structure Digest where
  bytes : List (Fin 256)
  length_bytes : bytes.length = 32
deriving DecidableEq

namespace Digest

/-- The digest of a record that carries none. -/
def zero : Digest := ⟨List.replicate 32 0, List.length_replicate⟩

instance : Inhabited Digest := ⟨zero⟩

def isZero (digest : Digest) : Bool := digest.bytes.all (· = 0)

def toHex (digest : Digest) : String := String.ofList ((digest.bytes.flatMap byteNibbles).map hexDigit)

/-- Exactly 64 hex digits. -/
def fromHex (text : String) : Option Digest :=
  match text.toList.mapM hexValue with
  | none => none
  | some nibbles =>
    if h : nibbles.length = 64 ∧ (Uuid128.pairNibbles nibbles).length = 32 then
      some ⟨Uuid128.pairNibbles nibbles, h.2⟩
    else none

theorem mapM_hexValue_map_hexDigit (nibbles : List (Fin 16)) :
    (nibbles.map hexDigit).mapM hexValue = some nibbles := by
  induction nibbles with
  | nil => rfl
  | cons nibble rest ih => simp [List.mapM_cons, hexValue_hexDigit, ih]

/-- The hex form parses back. -/
theorem fromHex_toHex (digest : Digest) : fromHex digest.toHex = some digest := by
  obtain ⟨bytes, hlen⟩ := digest
  have hnibbles : (bytes.flatMap byteNibbles).length = 64 := by
    rw [Uuid128.length_flatMap_byteNibbles, hlen]
  simp only [fromHex, toHex, String.toList_ofList, mapM_hexValue_map_hexDigit, Uuid128.pairNibbles_flatMap]
  exact dif_pos ⟨hnibbles, hlen⟩

end Digest

/-! ## Versions -/

def isDigit (c : Char) : Bool := '0' ≤ c && c ≤ '9'

/-- One dotted component: up to five digits, at most 65535. -/
def parseVersionComponent (text : List Char) : Option Nat :=
  if text = [] ∨ text.length > 5 ∨ text.all isDigit = false then none
  else
    let value := text.foldl (fun value c => value * 10 + (c.toNat - '0'.toNat)) 0
    if value > 65535 then none else some value

/-- A semantic software version; build metadata tells artifacts apart. -/
structure SoftwareVersion where
  major : Nat
  minor : Nat
  patch : Nat
  build : String := ""
deriving DecidableEq, Inhabited

namespace SoftwareVersion

def isBuildChar (c : Char) : Bool :=
  ('a' ≤ c && c ≤ 'z') || ('A' ≤ c && c ≤ 'Z') || isDigit c || c = '.' || c = '-' || c = '_'

def parse (text : String) : Option SoftwareVersion :=
  if text.length > 96 then none
  else
    let numeric := text.toList.takeWhile (· ≠ '+')
    let build := (text.toList.dropWhile (· ≠ '+')).tail
    if '+' ∈ text.toList ∧ (build = [] ∨ build.all isBuildChar = false) then none
    else
      match numeric.splitOn '.' with
      | [major, minor, patch] =>
        match parseVersionComponent major, parseVersionComponent minor, parseVersionComponent patch with
        | some major, some minor, some patch => some ⟨major, minor, patch, String.ofList build⟩
        | _, _, _ => none
      | _ => none

def toString (version : SoftwareVersion) : String :=
  let numeric := Nat.repr version.major ++ "." ++ Nat.repr version.minor ++ "." ++ Nat.repr version.patch
  if version.build = "" then numeric else numeric ++ "+" ++ version.build

end SoftwareVersion

/-- A wire protocol version. -/
structure ProtocolVersion where
  major : Nat
  minor : Nat
deriving DecidableEq, Inhabited

namespace ProtocolVersion

def parse (text : String) : Option ProtocolVersion :=
  if text.length > 32 then none
  else
    match text.toList.splitOn '.' with
    | [major, minor] =>
      match parseVersionComponent major, parseVersionComponent minor with
      | some major, some minor => some ⟨major, minor⟩
      | _, _ => none
    | _ => none

def toString (version : ProtocolVersion) : String := Nat.repr version.major ++ "." ++ Nat.repr version.minor

end ProtocolVersion

example : SoftwareVersion.parse "1.20.3+rc-1" = some ⟨1, 20, 3, "rc-1"⟩ := by decide +kernel

end FabricEvolution
