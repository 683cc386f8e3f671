import FabricEvolution.Persistence.Bytes
import FabricEvolution.Wire.Status

/-!
# Domain identities

* `TaggedName` : component, shard and campaign names, valid by construction or empty (unset);
* `nextId` : the checked successor of the 64-bit counters; the numeric identities (epoch,
  generation, lease, handoff, log position) are `Nat`, 0 is unset;
* `Uuid128` : sixteen bytes and their compact hex form (`parse_toCompactString`);
* `IncarnationId`, `AuthorityClaim` and their JSON codecs; what is decoded from an encoding is the
  encoded value (`eq_of_incarnationFromJson`).
-/

namespace FabricEvolution
open Lib

/-! ## Numeric identities -/

/-- The largest value of the 64-bit counters. -/
def maxU64 : Nat := 2 ^ 64 - 1

/-- Checked successor: no value at the type limit. -/
def nextId (value : Nat) : Option Nat := if value = maxU64 then none else some (value + 1)

/-- Addition of 64-bit values: time stamps and plain counters wrap. -/
def wrapAdd (a b : Nat) : Nat := (a + b) % 2 ^ 64

theorem eq_succ_of_nextId {value next : Nat} (h : nextId value = some next) : next = value + 1 := by
  unfold nextId at h
  split_ifs at h
  simpa using h.symm

/-! ## Names -/

namespace TaggedName

def maxLength : Nat := 64

def isSeparator (c : Char) : Bool := c = '.' || c = '_' || c = '-'

def isValidChar (c : Char) : Bool :=
  ('a' ≤ c && c ≤ 'z') || ('A' ≤ c && c ≤ 'Z') || ('0' ≤ c && c ≤ '9') || isSeparator c

/-- The validation of a textual identity. -/
def isValidText (text : String) : Bool :=
  match text.toList with
  | [] => false
  | c :: rest => text.length ≤ maxLength && !isSeparator c && (c :: rest).all isValidChar

end TaggedName

/-- A textual identity: empty while unset, otherwise a text that passed validation. -/
structure TaggedName where
  str : String
  valid : str = "" ∨ TaggedName.isValidText str = true

namespace TaggedName

instance : Inhabited TaggedName := ⟨"", .inl rfl⟩

def parse (text : String) : Option TaggedName :=
  if h : isValidText text = true then some ⟨text, .inr h⟩ else none

def isValid (name : TaggedName) : Bool := name.str ≠ ""

instance : LinearOrder TaggedName :=
  LinearOrder.lift' TaggedName.str fun a b h => by cases a; cases b; simp_all

instance : LawfulBEq TaggedName := inferInstance

theorem eq_default_of_not_isValid {name : TaggedName} (h : ¬ name.isValid) : name = default := by
  obtain ⟨str, hv⟩ := name
  have : str = "" := by simpa [isValid] using h
  subst this; rfl

theorem str_of_parse {text : String} {name : TaggedName} (h : parse text = some name) :
    name.str = text := by
  unfold parse at h
  split_ifs at h
  cases h
  rfl

theorem eq_of_parse_str {name name' : TaggedName} (h : parse name.str = some name') : name' = name := by
  have hs := str_of_parse h
  cases name; cases name'
  simp_all

theorem parse_str {name : TaggedName} (h : name.isValid) : parse name.str = some name := by
  obtain ⟨text, ht⟩ := name
  have hne : text ≠ "" := by simpa [isValid] using h
  exact dif_pos (ht.resolve_left hne)

end TaggedName

abbrev ComponentId := TaggedName
abbrev ShardId := TaggedName
abbrev CampaignId := TaggedName

/-! ## 128-bit identifiers -/

def hexDigit (nibble : Fin 16) : Char :=
  ['0', '1', '2', '3', '4', '5', '6', '7', '8', '9', 'a', 'b', 'c', 'd', 'e', 'f'].get nibble

def hexValue (c : Char) : Option (Fin 16) :=
  if '0' ≤ c ∧ c ≤ '9' then some (Fin.ofNat 16 (c.toNat - '0'.toNat))
  else if 'a' ≤ c ∧ c ≤ 'f' then some (Fin.ofNat 16 (c.toNat - 'a'.toNat + 10))
  else if 'A' ≤ c ∧ c ≤ 'F' then some (Fin.ofNat 16 (c.toNat - 'A'.toNat + 10))
  else none

theorem hexValue_hexDigit (nibble : Fin 16) : hexValue (hexDigit nibble) = some nibble := by
  revert nibble; decide

theorem hexDigit_ne_dash (nibble : Fin 16) : hexDigit nibble ≠ '-' := by
  revert nibble; decide

/-- A byte as its high and low nibble. -/
def byteNibbles (byte : Fin 256) : List (Fin 16) := [Fin.ofNat 16 (byte / 16), Fin.ofNat 16 byte]

/-- A 128-bit opaque identifier. -/
structure Uuid128 where
  bytes : List (Fin 256)
  length_bytes : bytes.length = 16
deriving DecidableEq

namespace Uuid128

def nil : Uuid128 := ⟨List.replicate 16 0, List.length_replicate⟩

instance : Inhabited Uuid128 := ⟨nil⟩

def isNil (uuid : Uuid128) : Bool := uuid.bytes.all (· = 0)

def isValid (uuid : Uuid128) : Bool := !uuid.isNil

/-- The 32 digit form of persisted records. -/
def toCompactString (uuid : Uuid128) : String :=
  String.ofList ((uuid.bytes.flatMap byteNibbles).map hexDigit)

/-- The hex digits of a text; dashes are skipped, anything else is refused. -/
def parseNibbles : List Char → Option (List (Fin 16))
  | [] => some []
  | c :: rest =>
    if c = '-' then parseNibbles rest
    else
      match hexValue c with
      | none => none
      | some nibble => (parseNibbles rest).map (nibble :: ·)

/-- Two nibbles a byte, high nibble first. -/
def pairNibbles : List (Fin 16) → List (Fin 256)
  | high :: low :: rest => Fin.ofNat 256 (high * 16 + low) :: pairNibbles rest
  | _ => []

def parse (text : String) : Option Uuid128 :=
  match parseNibbles text.toList with
  | none => none
  | some nibbles =>
    if h : nibbles.length = 32 ∧ (pairNibbles nibbles).length = 16 then some ⟨pairNibbles nibbles, h.2⟩ else none

theorem parseNibbles_map_hexDigit (nibbles : List (Fin 16)) :
    parseNibbles (nibbles.map hexDigit) = some nibbles := by
  induction nibbles with
  | nil => rfl
  | cons nibble rest ih =>
    rw [List.map_cons, parseNibbles, if_neg (hexDigit_ne_dash nibble), hexValue_hexDigit, ih]
    rfl

theorem pairNibbles_flatMap (bytes : List (Fin 256)) :
    pairNibbles (bytes.flatMap byteNibbles) = bytes := by
  have hbyte : ∀ byte : Fin 256,
      Fin.ofNat 256 (Fin.ofNat 16 (byte / 16) * 16 + Fin.ofNat 16 byte : Nat) = byte := by
    intro byte
    apply Fin.ext
    simp only [Fin.ofNat]
    omega
  induction bytes with
  | nil => rfl
  | cons byte rest ih =>
    rw [List.flatMap_cons, byteNibbles, List.cons_append, List.cons_append, List.nil_append, pairNibbles,
      ih, hbyte]

theorem length_flatMap_byteNibbles (bytes : List (Fin 256)) :
    (bytes.flatMap byteNibbles).length = 2 * bytes.length := by
  induction bytes with
  | nil => rfl
  | cons byte rest ih =>
    rw [List.flatMap_cons, List.length_append, ih]
    simp only [byteNibbles, List.length_cons, List.length_nil]
    omega

/-- The compact form parses back. -/
theorem parse_toCompactString (uuid : Uuid128) : parse uuid.toCompactString = some uuid := by
  obtain ⟨bytes, hlen⟩ := uuid
  have hnibbles : (bytes.flatMap byteNibbles).length = 32 := by
    rw [length_flatMap_byteNibbles, hlen]
  simp only [parse, toCompactString, String.toList_ofList, parseNibbles_map_hexDigit, pairNibbles_flatMap]
  exact dif_pos ⟨hnibbles, hlen⟩

end Uuid128

abbrev AuthorityToken := Uuid128
abbrev IncarnationUuid := Uuid128

/-! ## Incarnations and claims -/

/-- The boot identity of one component process. -/
structure IncarnationId where
  component : ComponentId
  uuid : IncarnationUuid
  boot : Nat
deriving DecidableEq, Inhabited

namespace IncarnationId

def isValid (incarnation : IncarnationId) : Bool :=
  incarnation.component.isValid && incarnation.uuid.isValid && incarnation.boot ≠ 0

def toString (incarnation : IncarnationId) : String :=
  incarnation.component.str ++ "/" ++ Nat.repr incarnation.boot ++ "/" ++ incarnation.uuid.toCompactString

def toJson (incarnation : IncarnationId) : Json :=
  (Json.object []).set "component" (.string incarnation.component.str)
    |>.set "boot" (.uint incarnation.boot)
    |>.set "uuid" (.string incarnation.uuid.toCompactString)

end IncarnationId

/-- The evidence a component presents when it acts for a shard. -/
structure AuthorityClaim where
  shard : ShardId
  incarnation : IncarnationId
  epoch : Nat
  generation : Nat
  token : AuthorityToken
deriving DecidableEq, Inhabited

namespace AuthorityClaim

def isValid (claim : AuthorityClaim) : Bool :=
  claim.shard.isValid && claim.incarnation.isValid && claim.epoch ≠ 0 && claim.generation ≠ 0 &&
    claim.token.isValid

def toJson (claim : AuthorityClaim) : Json :=
  (Json.object []).set "shard" (.string claim.shard.str)
    |>.set "incarnation" claim.incarnation.toJson
    |>.set "epoch" (.uint claim.epoch)
    |>.set "generation" (.uint claim.generation)
    |>.set "token" (.string claim.token.toCompactString)

end AuthorityClaim

/-! ## Decoders -/

/-- A positive counter under `key`; none also for 0. -/
def jsonPositive (object : Json) (key : String) : Option Nat := (jsonU64 object key).filter (· ≠ 0)

/-- A non-nil identifier in text form. -/
def parseUuid (text : String) : Option Uuid128 := (Uuid128.parse text).filter Uuid128.isValid

def nameFromJson (value : Json) (what : String) : Result TaggedName := do
  let text ← orRefuse value.tryString (malformed (what ++ " must be a string"))
  orRefuse (TaggedName.parse text) (malformed ("invalid " ++ what ++ ": " ++ text))

def incarnationFromJson (value : Json) : Result IncarnationId := do
  refuseUnless value.isObject (malformed "incarnation must be an object")
  let componentValue ← orRefuse (value.find "component") (malformed "incarnation is missing component")
  let component ← nameFromJson componentValue "component"
  let boot ← orRefuse (jsonPositive value "boot") (malformed "incarnation.boot must be a positive integer")
  let uuidText ← orRefuse (jsonString value "uuid") (malformed "incarnation.uuid must be a string")
  let uuid ← orRefuse (parseUuid uuidText) (malformed "incarnation.uuid is not a valid uuid")
  return ⟨component, uuid, boot⟩

def authorityClaimFromJson (value : Json) : Result AuthorityClaim := do
  refuseUnless value.isObject (malformed "authority claim must be an object")
  let shardValue ← orRefuse (value.find "shard") (malformed "authority claim is missing shard")
  let shard ← nameFromJson shardValue "shard"
  let incarnationValue ←
    orRefuse (value.find "incarnation") (malformed "authority claim is missing incarnation")
  let incarnation ← incarnationFromJson incarnationValue
  let epoch ←
    orRefuse (jsonPositive value "epoch") (malformed "authority claim epoch must be a positive integer")
  let generation ← orRefuse (jsonPositive value "generation")
    (malformed "authority claim generation must be a positive integer")
  let tokenText ← orRefuse (jsonString value "token") (malformed "authority claim is missing token")
  let token ← orRefuse (parseUuid tokenText) (malformed "authority claim token is not a valid uuid")
  return { shard, incarnation, epoch, generation, token }

/-! ## What is decoded from an encoding -/

theorem eq_of_nameFromJson_str {name name' : TaggedName} {what : String}
    (h : nameFromJson (.string name.str) what = .ok name') : name' = name := by
  obtain ⟨text, htext, hparse⟩ := Result.bind_eq_ok.mp h
  simp only [Json.tryString, orRefuse_eq_ok, Option.some.injEq] at htext hparse
  exact TaggedName.eq_of_parse_str (htext ▸ hparse)

theorem eq_of_parseUuid {uuid uuid' : Uuid128} (h : parseUuid uuid.toCompactString = some uuid') :
    uuid' = uuid := by
  rw [parseUuid, Uuid128.parse_toCompactString, Option.filter_eq_some_iff] at h
  exact (Option.some.inj h.1).symm

/-- The counter read from a value that stores it under `key`. -/
theorem eq_of_jsonPositive {object : Json} {key : String} {n m : Nat} (hn : jsonU64 object key = some n)
    (h : jsonPositive object key = some m) : m = n := by
  rw [jsonPositive, hn, Option.filter_eq_some_iff] at h
  exact (Option.some.inj h.1).symm

theorem eq_of_incarnationFromJson {incarnation decoded : IncarnationId}
    (h : incarnationFromJson incarnation.toJson = .ok decoded) : decoded = incarnation := by
  simp only [incarnationFromJson, Result.bind_eq_ok, orRefuse_eq_ok] at h
  obtain ⟨_, -, componentValue, hcv, component, hc, boot, hboot, uuidText, hut, uuid, huuid, h⟩ := h
  have hc' : componentValue = .string incarnation.component.str := by
    simpa [IncarnationId.toJson] using hcv.symm
  have hut' : uuidText = incarnation.uuid.toCompactString := by
    simpa [IncarnationId.toJson, Json.tryString] using hut.symm
  subst hc' hut'
  cases h
  rw [eq_of_nameFromJson_str hc, eq_of_parseUuid huuid,
    eq_of_jsonPositive (n := incarnation.boot) (by simp [IncarnationId.toJson, Json.tryU64]) hboot]

end FabricEvolution
