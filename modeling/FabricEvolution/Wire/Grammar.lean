import FabricEvolution.Wire.Number

/-!
# The grammar of JSON

* `JsonText` : the texts of a JSON value as RFC 8259 has them, with the syntax tree of each; bytes from 0x80 on are
  unrestricted inside strings, the halves of a surrogate pair stand together;
* `JsonSyntax.Admissible` : the bounds on a tree, and that no object has a key twice; `JsonSyntax.value` : what it denotes;
* `CharText`, `CharsText` : the texts of a character and of a string, with the bytes they denote.
-/

namespace FabricEvolution
open Lib

/-! ## Strings -/

def shortEscapes : List (Char × Char) :=
  [('"', '"'), ('\\', '\\'), ('/', '/'), ('b', '\x08'), ('f', '\x0c'), ('n', '\n'), ('r', '\r'), ('t', '\t')]

/-- The bytes of a code point. -/
def utf8Bytes (codePoint : Nat) : Bytes := (String.utf8EncodeChar (Char.ofNat codePoint)).map fun byte => Char.ofNat byte.toNat

/-- Four hexadecimal digits, and the number they denote. -/
inductive HexText : Bytes → Nat → Prop
  | digits {a b c d : Char} {va vb vc vd : Nat} (ha : hexDigitValue a = some va) (hb : hexDigitValue b = some vb)
      (hc : hexDigitValue c = some vc) (hd : hexDigitValue d = some vd) :
      HexText [a, b, c, d] (va * 16 ^ 3 + vb * 16 ^ 2 + vc * 16 + vd)

/-- The code point of a surrogate pair. -/
def pairValue (high low : Nat) : Nat := 0x10000 + (high - 0xD800) * 2 ^ 10 + (low - 0xDC00)

/-- What stands for a character in a string, and the bytes it denotes. -/
inductive CharText : Bytes → Bytes → Prop
  | plain {c : Char} (hquote : c ≠ '"') (hslash : c ≠ '\\') (hcontrol : 0x20 ≤ c.toNat) : CharText [c] [c]
  | short {letter c : Char} (hmem : (letter, c) ∈ shortEscapes) : CharText ['\\', letter] [c]
  | codePoint {hex : Bytes} {n : Nat} (hhex : HexText hex n) (hscalar : n < 0xD800 ∨ 0xDFFF < n) :
      CharText ('\\' :: 'u' :: hex) (utf8Bytes n)
  | pair {hex hex' : Bytes} {high low : Nat} (hhigh : HexText hex high) (hlow : HexText hex' low)
      (hfirst : 0xD800 ≤ high ∧ high ≤ 0xDBFF) (hsecond : 0xDC00 ≤ low ∧ low ≤ 0xDFFF) :
      CharText ('\\' :: 'u' :: hex ++ '\\' :: 'u' :: hex') (utf8Bytes (pairValue high low))

/-- What stands between the quotes of a string, and the bytes it denotes. -/
inductive CharsText : Bytes → Bytes → Prop
  | nil : CharsText [] []
  | cons {text chars texts charss : Bytes} (hfirst : CharText text chars) (hrest : CharsText texts charss) :
      CharsText (text ++ texts) (chars ++ charss)

/-! ## Values -/

/-- A value as its text has it: numbers by their parts, members in the order of the text. -/
inductive JsonSyntax where
  | null
  | bool (value : Bool)
  | number (number : NumberText)
  | string (text : String)
  | array (values : List JsonSyntax)
  | object (members : List (String × JsonSyntax))

def Spaces (text : Bytes) : Prop := ∀ c ∈ text, isSpace c = true

/-- An element of an array with the whitespace around it. -/
structure ElementText where
  before : Bytes
  body : Bytes
  after : Bytes
  value : JsonSyntax

def ElementText.text (element : ElementText) : Bytes := element.before ++ element.body ++ element.after

/-- A member of an object: its key with the whitespace around it, its value as an element. -/
structure MemberText where
  before : Bytes
  key : Bytes
  after : Bytes
  name : String
  element : ElementText

def MemberText.text (member : MemberText) : Bytes :=
  member.before ++ '"' :: member.key ++ '"' :: member.after ++ ':' :: member.element.text

/-- Texts with commas between them. -/
def separated : List Bytes → Bytes
  | [] => []
  | [text] => text
  | text :: texts => text ++ ',' :: separated texts

/-- A text of a JSON value, and its syntax tree. -/
inductive JsonText : Bytes → JsonSyntax → Prop
  | null : JsonText "null".toList .null
  | trueLiteral : JsonText "true".toList (.bool true)
  | falseLiteral : JsonText "false".toList (.bool false)
  | number (number : NumberText) : JsonText number.text (.number number)
  | string {text chars : Bytes} (hchars : CharsText text chars) : JsonText ('"' :: text ++ ['"']) (.string (String.ofList chars))
  | emptyArray {spaces : Bytes} (hspaces : Spaces spaces) : JsonText ('[' :: spaces ++ [']']) (.array [])
  | array {elements : List ElementText} (hne : elements ≠ []) (hbefore : ∀ e ∈ elements, Spaces e.before)
      (hafter : ∀ e ∈ elements, Spaces e.after) (hvalues : ∀ e ∈ elements, JsonText e.body e.value) :
      JsonText ('[' :: separated (elements.map ElementText.text) ++ [']']) (.array (elements.map ElementText.value))
  | emptyObject {spaces : Bytes} (hspaces : Spaces spaces) : JsonText ('{' :: spaces ++ ['}']) (.object [])
  | object {members : List MemberText} (hne : members ≠ []) (hbefore : ∀ m ∈ members, Spaces m.before)
      (hkeys : ∀ m ∈ members, ∃ chars, CharsText m.key chars ∧ m.name = String.ofList chars)
      (hafter : ∀ m ∈ members, Spaces m.after) (hpadding : ∀ m ∈ members, Spaces m.element.before ∧ Spaces m.element.after)
      (hvalues : ∀ m ∈ members, JsonText m.element.body m.element.value) :
      JsonText ('{' :: separated (members.map MemberText.text) ++ ['}'])
        (.object (members.map fun m => (m.name, m.element.value)))

/-- The bounds on a syntax tree at a depth; no object has a key twice. -/
inductive JsonSyntax.Admissible (limits : JsonParseLimits) : Nat → JsonSyntax → Prop
  | null {depth : Nat} (hdepth : depth ≤ limits.maxDepth) : Admissible limits depth .null
  | bool {depth : Nat} (value : Bool) (hdepth : depth ≤ limits.maxDepth) : Admissible limits depth (.bool value)
  | number {depth : Nat} (number : NumberText) (hdepth : depth ≤ limits.maxDepth) : Admissible limits depth (.number number)
  | string {depth : Nat} {text : String} (hdepth : depth ≤ limits.maxDepth) (htext : text.length ≤ limits.maxStringBytes) :
      Admissible limits depth (.string text)
  | array {depth : Nat} {values : List JsonSyntax} (hdepth : depth ≤ limits.maxDepth)
      (hlength : values.length ≤ limits.maxContainerEntries) (hvalues : ∀ value ∈ values, Admissible limits (depth + 1) value) :
      Admissible limits depth (.array values)
  | object {depth : Nat} {members : List (String × JsonSyntax)} (hdepth : depth ≤ limits.maxDepth)
      (hlength : members.length ≤ limits.maxContainerEntries) (hdistinct : (members.map Prod.fst).Nodup)
      (hkeys : ∀ member ∈ members, member.1.length ≤ limits.maxStringBytes)
      (hvalues : ∀ member ∈ members, Admissible limits (depth + 1) member.2) : Admissible limits depth (.object members)

namespace JsonSyntax
variable (floats : FloatText)

mutual

/-- The value a syntax tree denotes; `none` where one of its numbers is out of range. -/
def value : JsonSyntax → Option Json
  | null => some .null
  | bool b => some (.bool b)
  | number n => n.value floats
  | string text => some (.string text)
  | array values => (elementValues values).map .array
  | object members => (memberValues members).map fun members =>
      .object (members.foldl (fun out member => assocInsert member.1 member.2 out) [])

def elementValues : List JsonSyntax → Option (List Json)
  | [] => some []
  | v :: vs => (value v).bind fun first => (elementValues vs).map (first :: ·)

def memberValues : List (String × JsonSyntax) → Option (List (String × Json))
  | [] => some []
  | (key, v) :: members => (value v).bind fun first => (memberValues members).map ((key, first) :: ·)

end

end JsonSyntax

end FabricEvolution
