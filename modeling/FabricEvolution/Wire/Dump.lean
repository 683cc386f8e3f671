import FabricEvolution.Persistence.Bytes
import FabricEvolution.Wire.Json

/-!
# The canonical text of a JSON value

* `Json.dump` : the encoding that every record, message and digest is made of: members in key order, integers without a
  fractional part, no insignificant whitespace;
* `Json.dumpValue` : the encoding with or without indentation, `dumpValue_plain` : without it is `dump`; `Json.dumpPretty`;
* `FloatText` : how floating point literals are written and read, which is the business of the standard library.
-/

namespace FabricEvolution

/-- The shortest decimal text of a finite double, and the double a decimal text denotes. -/
structure FloatText where
  toChars : UInt64 → Option Bytes
  fromChars : Bytes → Option UInt64

/-! ## Scalars -/

def kHexDigits : Bytes := "0123456789abcdef".toList

/-- A character inside a string literal. -/
def escapeChar (c : Char) : Bytes :=
  if c = '"' then ['\\', '"']
  else if c = '\\' then ['\\', '\\']
  else if c = '\x08' then ['\\', 'b']
  else if c = '\x0c' then ['\\', 'f']
  else if c = '\n' then ['\\', 'n']
  else if c = '\r' then ['\\', 'r']
  else if c = '\t' then ['\\', 't']
  else if c.toNat < 0x20 then
    ['\\', 'u', '0', '0', kHexDigits.getD (c.toNat / 16) '0', kHexDigits.getD (c.toNat % 16) '0']
  else [c]

def appendEscaped (text : String) : Bytes := '"' :: text.toList.flatMap escapeChar ++ ['"']

def appendDouble (floats : FloatText) (bits : UInt64) : Bytes :=
  match floats.toChars bits with
  | none => "null".toList
  | some text => if text.any fun c => c = '.' || c = 'e' || c = 'E' then text else text ++ ".0".toList

def appendU64 (value : Nat) : Bytes := Nat.toDigits 10 value

def appendI64 (value : Int) : Bytes := if value < 0 then '-' :: appendU64 value.natAbs else appendU64 value.natAbs

/-! ## Values -/

namespace Json
variable (floats : FloatText)

mutual

def dump : Json → Bytes
  | null => "null".toList
  | bool value => if value then "true".toList else "false".toList
  | int value => appendI64 value
  | uint value => appendU64 value
  | double bits => appendDouble floats bits
  | string text => appendEscaped text
  | array [] => "[]".toList
  | array (value :: values) => '[' :: dump value ++ dumpElements values
  | object [] => ['{', '}']
  | object ((key, value) :: members) => '{' :: appendEscaped key ++ ':' :: dump value ++ dumpMembers members

/-- The elements after the first, and the end of the array. -/
def dumpElements : List Json → Bytes
  | [] => [']']
  | value :: values => ',' :: dump value ++ dumpElements values

/-- The members after the first, and the end of the object. -/
def dumpMembers : List (String × Json) → Bytes
  | [] => ['}']
  | (key, value) :: members => ',' :: appendEscaped key ++ ':' :: dump value ++ dumpMembers members

end

/-- The line break and the indentation before an element, if the text is pretty. -/
def pad (pretty : Bool) (indent : Nat) : Bytes := if pretty then '\n' :: List.replicate (indent * 2) ' ' else []

mutual

def dumpValue (pretty : Bool) : Nat → Json → Bytes
  | _, null => "null".toList
  | _, bool value => if value then "true".toList else "false".toList
  | _, int value => appendI64 value
  | _, uint value => appendU64 value
  | _, double bits => appendDouble floats bits
  | _, string text => appendEscaped text
  | _, array [] => "[]".toList
  | indent, array (value :: values) =>
    '[' :: (pad pretty (indent + 1) ++ dumpValue pretty (indent + 1) value ++ dumpValues pretty indent values)
  | _, object [] => ['{', '}']
  | indent, object ((key, value) :: members) =>
    '{' :: (pad pretty (indent + 1) ++ appendEscaped key ++ ':' :: ((if pretty then [' '] else []) ++
      dumpValue pretty (indent + 1) value) ++ dumpPairs pretty indent members)

/-- The elements after the first, and the end of the array. -/
def dumpValues (pretty : Bool) : Nat → List Json → Bytes
  | indent, [] => pad pretty indent ++ [']']
  | indent, value :: values =>
    ',' :: (pad pretty (indent + 1) ++ dumpValue pretty (indent + 1) value ++ dumpValues pretty indent values)

/-- The members after the first, and the end of the object. -/
def dumpPairs (pretty : Bool) : Nat → List (String × Json) → Bytes
  | indent, [] => pad pretty indent ++ ['}']
  | indent, (key, value) :: members =>
    ',' :: (pad pretty (indent + 1) ++ appendEscaped key ++ ':' :: ((if pretty then [' '] else []) ++
      dumpValue pretty (indent + 1) value) ++ dumpPairs pretty indent members)

end

def dumpPretty (value : Json) : Bytes := dumpValue floats true 0 value

mutual

/-- Without indentation it is the canonical text. -/
theorem dumpValue_plain : ∀ (indent : Nat) (value : Json), dumpValue floats false indent value = value.dump floats
  | _, null => rfl
  | _, bool _ => rfl
  | _, int _ => rfl
  | _, uint _ => rfl
  | _, double _ => rfl
  | _, string _ => rfl
  | _, array [] => rfl
  | indent, array (value :: values) => by
    rw [dumpValue, dump, dumpValue_plain (indent + 1) value, dumpValues_plain indent values]
    rfl
  | _, object [] => rfl
  | indent, object ((key, value) :: members) => by
    rw [dumpValue, dump, dumpValue_plain (indent + 1) value, dumpPairs_plain indent members]
    rfl

theorem dumpValues_plain : ∀ (indent : Nat) (values : List Json),
    dumpValues floats false indent values = dumpElements floats values
  | _, [] => rfl
  | indent, value :: values => by
    rw [dumpValues, dumpElements, dumpValue_plain (indent + 1) value, dumpValues_plain indent values]
    rfl

theorem dumpPairs_plain : ∀ (indent : Nat) (members : List (String × Json)),
    dumpPairs floats false indent members = dumpMembers floats members
  | _, [] => rfl
  | indent, (key, value) :: members => by
    rw [dumpPairs, dumpMembers, dumpValue_plain (indent + 1) value, dumpPairs_plain indent members]
    rfl

end

end Json

end FabricEvolution
