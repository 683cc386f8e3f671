import FabricEvolution.Wire.Dump

/-!
# The strict JSON parser

* `JsonParseLimits` : the bounds on untrusted text, with their defaults;
* `parseString`, `parseNumber`, `parseValue`, `parseElements`, `parseMembers` : the recursive descent, each returns what
  it read and the rest of the text, or the message of the failure;
* `parseJson` : a text as a whole.

Nesting and lengths are bounded by a fuel argument that the length of the text pays for.
-/

namespace FabricEvolution
open Lib

structure JsonParseLimits where
  maxBytes : Nat := 4 * 1024 * 1024
  maxDepth : Nat := 64
  maxStringBytes : Nat := 1024 * 1024
  maxContainerEntries : Nat := 65536

/-- What a parser returns: a value and the rest of the text, or a message. -/
abbrev Parsed (α : Type) := Except String (α × Bytes)

/-- Parse on from where a parser stopped. -/
def Parsed.andThen {α β : Type} (parsed : Parsed α) (next : α → Bytes → Parsed β) : Parsed β :=
  match parsed with
  | .ok (a, rest) => next a rest
  | .error message => .error message

@[simp] theorem Parsed.andThen_ok {α β : Type} (a : α) (rest : Bytes) (next : α → Bytes → Parsed β) :
    Parsed.andThen (.ok (a, rest)) next = next a rest := rfl

@[simp] theorem Parsed.andThen_error {α β : Type} (message : String) (next : α → Bytes → Parsed β) :
    Parsed.andThen (.error message) next = .error message := rfl

def isSpace (c : Char) : Bool := c = ' ' || c = '\t' || c = '\n' || c = '\r'

def skipWhitespace (text : Bytes) : Bytes := text.dropWhile isSpace

/-! ## Strings -/

def appendUtf8 (codePoint : Nat) : Bytes :=
  if codePoint ≤ 0x7F then [byteOf codePoint]
  else if codePoint ≤ 0x7FF then [byteOf (0xC0 + codePoint / 2 ^ 6), byteOf (0x80 + codePoint % 2 ^ 6)]
  else if codePoint ≤ 0xFFFF then
    [byteOf (0xE0 + codePoint / 2 ^ 12), byteOf (0x80 + codePoint / 2 ^ 6 % 2 ^ 6), byteOf (0x80 + codePoint % 2 ^ 6)]
  else
    [byteOf (0xF0 + codePoint / 2 ^ 18), byteOf (0x80 + codePoint / 2 ^ 12 % 2 ^ 6), byteOf (0x80 + codePoint / 2 ^ 6 % 2 ^ 6),
      byteOf (0x80 + codePoint % 2 ^ 6)]

def hexDigitValue (c : Char) : Option Nat :=
  if '0' ≤ c ∧ c ≤ '9' then some (c.toNat - '0'.toNat)
  else if 'a' ≤ c ∧ c ≤ 'f' then some (c.toNat - 'a'.toNat + 10)
  else if 'A' ≤ c ∧ c ≤ 'F' then some (c.toNat - 'A'.toNat + 10)
  else none

def parseHex4 (text : Bytes) : Parsed Nat :=
  match text with
  | a :: b :: c :: d :: rest =>
    match hexDigitValue a, hexDigitValue b, hexDigitValue c, hexDigitValue d with
    | some a, some b, some c, some d => .ok (a * 16 ^ 3 + b * 16 ^ 2 + c * 16 + d, rest)
    | _, _, _, _ => .error "invalid hex digit in \\u escape"
  | _ => .error "truncated \\u escape"

/-- The code point of a `\u` escape, its second half included. -/
def parseCodePoint (text : Bytes) : Parsed Nat :=
  (parseHex4 text).andThen fun first rest =>
    if 0xD800 ≤ first ∧ first ≤ 0xDBFF then
      if rest.take 2 ≠ ['\\', 'u'] then .error "unpaired high surrogate"
      else (parseHex4 (rest.drop 2)).andThen fun second rest =>
        if second < 0xDC00 ∨ 0xDFFF < second then .error "invalid low surrogate"
        else .ok (0x10000 + (first - 0xD800) * 2 ^ 10 + (second - 0xDC00), rest)
    else if 0xDC00 ≤ first ∧ first ≤ 0xDFFF then .error "unpaired low surrogate"
    else .ok (first, rest)

/-- What stands behind a backslash. -/
def parseEscape (text : Bytes) : Parsed Bytes :=
  match text with
  | [] => .error "unterminated escape sequence"
  | c :: rest =>
    if c = '"' then .ok (['"'], rest)
    else if c = '\\' then .ok (['\\'], rest)
    else if c = '/' then .ok (['/'], rest)
    else if c = 'b' then .ok (['\x08'], rest)
    else if c = 'f' then .ok (['\x0c'], rest)
    else if c = 'n' then .ok (['\n'], rest)
    else if c = 'r' then .ok (['\r'], rest)
    else if c = 't' then .ok (['\t'], rest)
    else if c = 'u' then (parseCodePoint rest).andThen fun codePoint rest => .ok (appendUtf8 codePoint, rest)
    else .error "invalid escape sequence"

/-- The characters up to the closing quote; `out` holds those before. -/
def parseChars (limits : JsonParseLimits) : Nat → Bytes → Bytes → Parsed Bytes
  | 0, _, _ => .error "unterminated string"
  | _ + 1, _, [] => .error "unterminated string"
  | fuel + 1, out, c :: rest =>
    if c = '"' then .ok (out, rest)
    else if c.toNat < 0x20 then .error "unescaped control character in string"
    else
      (if c ≠ '\\' then .ok ([c], rest) else parseEscape rest : Parsed Bytes).andThen fun chars rest =>
        if (out ++ chars).length > limits.maxStringBytes then .error "string length limit exceeded"
        else parseChars limits fuel (out ++ chars) rest

/-- The string whose opening quote was read. -/
def parseString (limits : JsonParseLimits) (text : Bytes) : Parsed String :=
  (parseChars limits (text.length + 1) [] text).andThen fun chars rest => .ok (String.ofList chars, rest)

/-! ## Numbers -/

def startsWithDigit (text : Bytes) : Bool := text.head?.any (·.isDigit)

/-- The digits of a fraction or an exponent. -/
def parseDigits (text : Bytes) (missing : String) : Parsed Bytes :=
  if startsWithDigit text then .ok (text.takeWhile (·.isDigit), text.dropWhile (·.isDigit)) else .error missing

def parseWhole (text : Bytes) : Parsed Bytes :=
  match text with
  | [] => .error "invalid number"
  | c :: rest =>
    if !c.isDigit then .error "invalid number"
    else if c = '0' then
      if startsWithDigit rest then .error "leading zeros are not permitted" else .ok (['0'], rest)
    else .ok ((c :: rest).takeWhile (·.isDigit), (c :: rest).dropWhile (·.isDigit))

def parseFraction (text : Bytes) : Parsed Bytes :=
  if text.head? = some '.' then
    (parseDigits text.tail "fraction requires at least one digit").andThen fun digits rest => .ok ('.' :: digits, rest)
  else .ok ([], text)

def parseExponent (text : Bytes) : Parsed Bytes :=
  match text with
  | [] => .ok ([], [])
  | c :: rest =>
    if c = 'e' ∨ c = 'E' then
      let sign := if rest.head? = some '+' ∨ rest.head? = some '-' then rest.take 1 else []
      (parseDigits (rest.drop sign.length) "exponent requires at least one digit").andThen fun digits rest =>
        .ok (c :: sign ++ digits, rest)
    else .ok ([], c :: rest)

/-- The value of a number token: an integer if it is one and fits, else a double. -/
def numberValue (floats : FloatText) (negative integral : Bool) (digits token : Bytes) : Except String Json :=
  let value := Nat.ofDigitChars 10 digits 0
  if integral ∧ negative ∧ value ≤ 2 ^ 63 then .ok (.int (-value))
  else if integral ∧ !negative ∧ value < 2 ^ 64 then .ok (.uint value)
  else
    match floats.fromChars token with
    | some bits => .ok (.double bits)
    | none => .error "number out of representable range"

def parseNumber (floats : FloatText) (text : Bytes) : Parsed Json :=
  let negative := text.head? = some '-'
  (parseWhole (if negative then text.tail else text)).andThen fun whole rest =>
    (parseFraction rest).andThen fun fraction rest =>
      (parseExponent rest).andThen fun exponent rest =>
        let token := (if negative then ['-'] else []) ++ whole ++ fraction ++ exponent
        match numberValue floats negative (fraction = [] ∧ exponent = []) whole token with
        | .error message => .error message
        | .ok value => .ok (value, rest)

/-! ## Values -/

def parseLiteral (word : Bytes) (value : Json) (text : Bytes) : Parsed Json :=
  if text.take word.length = word then .ok (value, text.drop word.length) else .error "invalid literal"

/-- What follows an element or a member. -/
inductive Separator where
  | next (rest : Bytes)
  | last (rest : Bytes)

def parseSeparator (close : Char) (unterminated expected : String) (text : Bytes) : Except String Separator :=
  match skipWhitespace text with
  | [] => .error unterminated
  | c :: rest => if c = ',' then .ok (.next rest) else if c = close then .ok (.last rest) else .error expected

/-- A key and the colon behind it; `members` are those before. -/
def parseKey (limits : JsonParseLimits) (members : List (String × Json)) (text : Bytes) : Parsed String :=
  match skipWhitespace text with
  | [] => .error "expected object key string"
  | c :: rest =>
    if c ≠ '"' then .error "expected object key string"
    else (parseString limits rest).andThen fun key rest =>
      if members.length ≥ limits.maxContainerEntries then .error "object entry limit exceeded"
      else if (assocFind key members).isSome then .error ("duplicate object key: " ++ key)
      else
        match skipWhitespace rest with
        | [] => .error "expected ':' after object key"
        | c :: rest => if c ≠ ':' then .error "expected ':' after object key" else .ok (key, skipWhitespace rest)

section
variable (floats : FloatText) (limits : JsonParseLimits)

mutual

def parseValue : Nat → Nat → Bytes → Parsed Json
  | 0, _, _ => .error "maximum nesting depth exceeded"
  | fuel + 1, depth, text =>
    if depth > limits.maxDepth then .error "maximum nesting depth exceeded"
    else
      match text with
      | [] => .error "unexpected end of input"
      | c :: rest =>
        if c = '{' then
          if (skipWhitespace rest).head? = some '}' then .ok (.object [], (skipWhitespace rest).tail)
          else parseMembers fuel depth [] rest
        else if c = '[' then
          if (skipWhitespace rest).head? = some ']' then .ok (.array [], (skipWhitespace rest).tail)
          else parseElements fuel depth [] rest
        else if c = '"' then (parseString limits rest).andThen fun text rest => .ok (.string text, rest)
        else if c = 't' then parseLiteral "true".toList (.bool true) (c :: rest)
        else if c = 'f' then parseLiteral "false".toList (.bool false) (c :: rest)
        else if c = 'n' then parseLiteral "null".toList .null (c :: rest)
        else parseNumber floats (c :: rest)

/-- The elements of an array, `values` are those before. -/
def parseElements : Nat → Nat → List Json → Bytes → Parsed Json
  | 0, _, _, _ => .error "maximum nesting depth exceeded"
  | fuel + 1, depth, values, text =>
    if values.length ≥ limits.maxContainerEntries then .error "array entry limit exceeded"
    else
      (parseValue fuel (depth + 1) (skipWhitespace text)).andThen fun value rest =>
        match parseSeparator ']' "unterminated array" "expected ',' or ']' in array" rest with
        | .error message => .error message
        | .ok (.last rest) => .ok (.array (values ++ [value]), rest)
        | .ok (.next rest) => parseElements fuel depth (values ++ [value]) rest

/-- The members of an object, `members` are those before. -/
def parseMembers : Nat → Nat → List (String × Json) → Bytes → Parsed Json
  | 0, _, _, _ => .error "maximum nesting depth exceeded"
  | fuel + 1, depth, members, text =>
    (parseKey limits members text).andThen fun key rest =>
      (parseValue fuel (depth + 1) rest).andThen fun value rest =>
        match parseSeparator '}' "unterminated object" "expected \x27,\x27 or \x27\x7d\x27 in object" rest with
        | .error message => .error message
        | .ok (.last rest) => .ok (.object (assocInsert key value members), rest)
        | .ok (.next rest) => parseMembers fuel depth (assocInsert key value members) rest

end

/-- A text as a whole. -/
def parseJson (text : Bytes) : Except String Json :=
  if text.length > limits.maxBytes then .error "input exceeds configured byte limit"
  else if (skipWhitespace text).isEmpty then .error "empty input"
  else
    match parseValue floats limits (2 * text.length + 1) 0 (skipWhitespace text) with
    | .error message => .error message
    | .ok (value, rest) =>
      if (skipWhitespace rest).isEmpty then .ok value else .error "trailing content after top-level value"

end

end FabricEvolution
