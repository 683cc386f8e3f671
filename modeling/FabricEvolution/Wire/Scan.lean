import FabricEvolution.Wire.Grammar

/-!
# Strings, whitespace and keys

* `CharText.parseEscape`, `charText_of_parseEscape` : an escape is read whole, and what is read is one;
* `CharsText.parseChars`, `parseString_of_text`, `text_of_parseString` : the same for a string;
* `Spaces.skipWhitespace`, `separator_cases`, `StartsValue` : what stands between the values;
* `key_of_parseKey`, `parseKey_text` : the key of a member and the colon behind it.
-/

namespace FabricEvolution
open Lib

/-! ## Reading strings -/

section
variable {limits : JsonParseLimits} {floats : FloatText}

theorem hexDigitValue_lt {c : Char} {value : Nat} (h : hexDigitValue c = some value) : value < 16 := by
  have hord : ∀ d : Char, c ≤ d ↔ c.toNat ≤ d.toNat := fun d => Iff.rfl
  unfold hexDigitValue at h
  split_ifs at h with h9 hf hF
  · have hle := (hord '9').1 h9.2
    cases h
    simp at hle ⊢
    omega
  · have hle := (hord 'f').1 hf.2
    cases h
    simp at hle ⊢
    omega
  · have hle := (hord 'F').1 hF.2
    cases h
    simp at hle ⊢
    omega

theorem HexText.lt {hex : Bytes} {n : Nat} (h : HexText hex n) : n < 0x10000 := by
  cases h with
  | digits ha hb hc hd =>
    have := hexDigitValue_lt ha
    have := hexDigitValue_lt hb
    have := hexDigitValue_lt hc
    have := hexDigitValue_lt hd
    omega

theorem HexText.parseHex4 {hex : Bytes} {n : Nat} (h : HexText hex n) (rest : Bytes) :
    parseHex4 (hex ++ rest) = .ok (n, rest) := by
  cases h with
  | digits ha hb hc hd => simp [FabricEvolution.parseHex4, ha, hb, hc, hd]

theorem hexText_of_parseHex4 {text rest : Bytes} {n : Nat} (h : parseHex4 text = .ok (n, rest)) :
    ∃ hex, text = hex ++ rest ∧ HexText hex n := by
  unfold parseHex4 at h
  split at h
  · split at h
    · rename_i ha hb hc hd
      cases h
      exact ⟨_, rfl, .digits ha hb hc hd⟩
    · cases h
  · cases h

/-- The bytes of a code point are those of its UTF-8 encoding. -/
theorem appendUtf8_eq {n : Nat} (h : n.isValidChar) : appendUtf8 n = utf8Bytes n := by
  have hval : (Char.ofNat n).val.toNat = n := by simp [Char.ofNat, h, Char.ofNatAux]
  have hle : n < 0x110000 := h.elim (fun h => by omega) fun h => h.2
  have hbyte : ∀ x y : Nat, x = y → byteOf x = Char.ofNat (UInt8.ofNat y).toNat := by
    rintro x y rfl
    rw [byteOf, UInt8.toNat_ofNat']
  unfold appendUtf8 utf8Bytes String.utf8EncodeChar
  simp only [hval]
  split_ifs with h1 h2 h3
  · simp only [List.map_cons, List.map_nil, hbyte n n rfl]
  · simp only [List.map_cons, List.map_nil]
    rw [hbyte _ (n / 64 % 32 + 192) (by omega), hbyte _ (n % 64 + 128) (by omega)]
  · simp only [List.map_cons, List.map_nil]
    rw [hbyte _ (n / 4096 % 16 + 224) (by omega), hbyte _ (n / 64 % 64 + 128) (by omega), hbyte _ (n % 64 + 128) (by omega)]
  · simp only [List.map_cons, List.map_nil]
    rw [hbyte _ (n / 262144 % 8 + 240) (by omega), hbyte _ (n / 4096 % 64 + 128) (by omega),
      hbyte _ (n / 64 % 64 + 128) (by omega), hbyte _ (n % 64 + 128) (by omega)]

theorem isValidChar_pair {high low : Nat} (hfirst : 0xD800 ≤ high ∧ high ≤ 0xDBFF) (hsecond : 0xDC00 ≤ low ∧ low ≤ 0xDFFF) :
    (pairValue high low).isValidChar := by
  unfold pairValue
  exact .inr ⟨by omega, by omega⟩

theorem isValidChar_scalar {n : Nat} (hlt : n < 0x10000) (hscalar : n < 0xD800 ∨ 0xDFFF < n) : n.isValidChar :=
  hscalar.imp id fun h => ⟨h, by omega⟩

theorem parseCodePoint_hex {hex : Bytes} {n : Nat} (hhex : HexText hex n) (hscalar : n < 0xD800 ∨ 0xDFFF < n) (rest : Bytes) :
    parseCodePoint (hex ++ rest) = .ok (n, rest) := by
  rw [parseCodePoint, hhex.parseHex4, Parsed.andThen_ok, if_neg (by omega), if_neg (by omega)]

theorem parseCodePoint_pair {hex hex' : Bytes} {high low : Nat} (hhigh : HexText hex high) (hlow : HexText hex' low)
    (hfirst : 0xD800 ≤ high ∧ high ≤ 0xDBFF) (hsecond : 0xDC00 ≤ low ∧ low ≤ 0xDFFF) (rest : Bytes) :
    parseCodePoint (hex ++ '\\' :: 'u' :: hex' ++ rest) = .ok (pairValue high low, rest) := by
  have hmark : ('\\' :: 'u' :: (hex' ++ rest)).take 2 = ['\\', 'u'] := rfl
  have hlater : ('\\' :: 'u' :: (hex' ++ rest)).drop 2 = hex' ++ rest := rfl
  have hrange : ¬ (low < 0xDC00 ∨ 0xDFFF < low) := by omega
  rw [parseCodePoint, List.append_assoc, hhigh.parseHex4, Parsed.andThen_ok, if_pos hfirst, List.cons_append, List.cons_append,
    hmark, if_neg (not_not.2 rfl), hlater, hlow.parseHex4, Parsed.andThen_ok, if_neg hrange]
  unfold pairValue
  rfl

/-- An escape that is accepted is a scalar, or both halves of a surrogate pair. -/
theorem parseCodePoint_cases {text rest : Bytes} {n : Nat} (h : parseCodePoint text = .ok (n, rest)) :
    (∃ hex, text = hex ++ rest ∧ HexText hex n ∧ (n < 0xD800 ∨ 0xDFFF < n)) ∨
      ∃ hex hex' high low, text = hex ++ '\\' :: 'u' :: hex' ++ rest ∧ HexText hex high ∧ HexText hex' low ∧
        (0xD800 ≤ high ∧ high ≤ 0xDBFF) ∧ (0xDC00 ≤ low ∧ low ≤ 0xDFFF) ∧
        n = pairValue high low := by
  obtain ⟨high, rest₁, hfirst, hnext⟩ := Parsed.andThen_eq_ok h
  obtain ⟨hex, rfl, hhex⟩ := hexText_of_parseHex4 hfirst
  split_ifs at hnext with hhigh hmark hlow
  · obtain ⟨low, rest₂, hsecond, hlast⟩ := Parsed.andThen_eq_ok hnext
    obtain ⟨hex', hrest, hhex'⟩ := hexText_of_parseHex4 hsecond
    split_ifs at hlast with hrange
    simp only [Except.ok.injEq, Prod.mk.injEq] at hlast
    obtain ⟨hn, rfl⟩ := hlast
    have hsplit : rest₁ = '\\' :: 'u' :: (hex' ++ rest₂) := by
      rw [← hrest, ← List.take_append_drop 2 rest₁, not_not.1 hmark]
      simp
    refine .inr ⟨hex, hex', high, low, ?_, hhex, hhex', hhigh, by omega, hn.symm⟩
    rw [hsplit, List.append_assoc]
    rfl
  · cases hnext
    exact .inl ⟨hex, rfl, hhex, by omega⟩

/-- What a backslash starts is read whole. -/
theorem CharText.parseEscape {text chars : Bytes} (h : CharText ('\\' :: text) chars) (rest : Bytes) :
    parseEscape (text ++ rest) = .ok (chars, rest) := by
  generalize hfull : '\\' :: text = full at h
  cases h with
  | plain hquote hslash hcontrol =>
    cases hfull
    exact absurd rfl hslash
  | short hmem =>
    cases hfull
    simp only [shortEscapes, List.mem_cons, Prod.mk.injEq, List.not_mem_nil, or_false] at hmem
    rcases hmem with h | h | h | h | h | h | h | h <;> obtain ⟨rfl, rfl⟩ := h <;> rfl
  | codePoint hhex hscalar =>
    cases hfull
    simp [FabricEvolution.parseEscape, parseCodePoint_hex hhex hscalar, appendUtf8_eq (isValidChar_scalar hhex.lt hscalar)]
  | pair hhigh hlow hfirst hsecond =>
    cases hfull
    have hcode := parseCodePoint_pair hhigh hlow hfirst hsecond rest
    rw [List.append_assoc, List.cons_append, List.cons_append] at hcode
    simp [FabricEvolution.parseEscape, hcode, appendUtf8_eq (isValidChar_pair hfirst hsecond)]

theorem charText_of_parseEscape {text chars rest : Bytes} (h : parseEscape text = .ok (chars, rest)) :
    ∃ body, text = body ++ rest ∧ CharText ('\\' :: body) chars := by
  have hshort : ∀ {letter c : Char}, (letter, c) ∈ shortEscapes → .ok ([c], rest) = (.ok (chars, rest) : Parsed Bytes) →
      ∃ body, letter :: rest = body ++ rest ∧ CharText ('\\' :: body) chars := by
    intro letter c hmem heq
    cases heq
    exact ⟨[letter], rfl, .short hmem⟩
  unfold parseEscape at h
  split at h
  · cases h
  · rename_i c tail
    by_cases hu : c = 'u'
    · subst hu
      have hread : (parseCodePoint tail).andThen (fun codePoint rest => .ok (appendUtf8 codePoint, rest)) = .ok (chars, rest) := h
      obtain ⟨n, rest₁, hcode, hvalue⟩ := Parsed.andThen_eq_ok hread
      obtain ⟨rfl, rfl⟩ := Prod.mk.inj (Except.ok.inj hvalue)
      rcases parseCodePoint_cases hcode with ⟨hex, rfl, hhex, hscalar⟩ | ⟨hex, hex', high, low, rfl, hhigh, hlow, hfirst, hsecond, hn⟩
      · rw [appendUtf8_eq (isValidChar_scalar hhex.lt hscalar)]
        exact ⟨'u' :: hex, rfl, .codePoint hhex hscalar⟩
      · rw [hn, appendUtf8_eq (isValidChar_pair hfirst hsecond)]
        exact ⟨'u' :: (hex ++ '\\' :: 'u' :: hex'), rfl, .pair hhigh hlow hfirst hsecond⟩
    · split_ifs at h with h1 h2 h3 h4 h5 h6 h7 h8
      all_goals
        subst_vars
        cases h
        exact ⟨[_], rfl, .short (by simp [shortEscapes])⟩

/-- A string is read up to its closing quote. -/
theorem CharsText.parseChars {text chars : Bytes} (h : CharsText text chars) {fuel : Nat} {out : Bytes} (tail : Bytes)
    (hfuel : text.length < fuel) (hlength : (out ++ chars).length ≤ limits.maxStringBytes) :
    parseChars limits fuel out (text ++ '"' :: tail) = .ok (out ++ chars, tail) := by
  induction h generalizing fuel out with
  | nil =>
    obtain ⟨fuel, rfl⟩ : ∃ n, fuel = n + 1 := ⟨fuel - 1, by simp at hfuel; omega⟩
    simp [FabricEvolution.parseChars]
  | @cons text chars texts charss hfirst hrest ih =>
    obtain ⟨fuel, rfl⟩ : ∃ n, fuel = n + 1 := ⟨fuel - 1, by omega⟩
    rw [← List.append_assoc] at hlength
    have hfits : ¬ (out ++ chars).length > limits.maxStringBytes := by
      rw [List.length_append] at hlength
      omega
    have hlater : FabricEvolution.parseChars limits fuel (out ++ chars) (texts ++ '"' :: tail) =
        .ok (out ++ chars ++ charss, tail) := by
      refine ih ?_ hlength
      have : 1 ≤ text.length := by cases hfirst <;> simp
      rw [List.length_append] at hfuel
      omega
    have hescape : ∀ body, text = '\\' :: body →
        FabricEvolution.parseChars limits (fuel + 1) out ('\\' :: (body ++ (texts ++ '"' :: tail))) =
          .ok (out ++ chars ++ charss, tail) := by
      rintro body rfl
      rw [FabricEvolution.parseChars, if_neg (by decide), if_neg (by decide)]
      simp only [ne_eq, not_true_eq_false, if_false, hfirst.parseEscape, Parsed.andThen_ok, if_neg hfits, hlater]
    rw [List.append_assoc, ← List.append_assoc out]
    cases hfirst with
    | plain hquote hslash hcontrol =>
      rw [List.singleton_append, FabricEvolution.parseChars, if_neg hquote, if_neg (by omega)]
      simp only [ne_eq, hslash, not_false_eq_true, if_true, Parsed.andThen_ok, if_neg hfits, hlater]
    | short hmem => exact hescape _ rfl
    | codePoint hhex hscalar => exact hescape _ rfl
    | pair hhigh hlow hfirst hsecond => exact hescape _ rfl

/-- What is read as a string stands up to a closing quote. -/
theorem charsText_of_parseChars {fuel : Nat} {out text chars rest : Bytes} (hout : out.length ≤ limits.maxStringBytes)
    (h : parseChars limits fuel out text = .ok (chars, rest)) :
    ∃ body decoded, text = body ++ '"' :: rest ∧ CharsText body decoded ∧ chars = out ++ decoded ∧
      chars.length ≤ limits.maxStringBytes := by
  induction fuel generalizing out text with
  | zero => cases h
  | succ fuel ih =>
    cases text with
    | nil => cases h
    | cons c tail =>
      rw [parseChars] at h
      by_cases hquote : c = '"'
      · rw [if_pos hquote] at h
        cases h
        exact ⟨[], [], by rw [hquote]; rfl, .nil, (List.append_nil _).symm, hout⟩
      by_cases hcontrol : c.toNat < 0x20
      · rw [if_neg hquote, if_pos hcontrol] at h
        cases h
      rw [if_neg hquote, if_neg hcontrol] at h
      obtain ⟨first, rest₁, hread, h⟩ := Parsed.andThen_eq_ok h
      split_ifs at h with hlong
      obtain ⟨body, decoded, rfl, hbody, rfl, hlength⟩ := ih (by omega) h
      obtain ⟨unit, hunit, hchar⟩ : ∃ unit, c :: tail = unit ++ (body ++ '"' :: rest) ∧ CharText unit first := by
        split_ifs at hread with hslash
        · cases hread
          exact ⟨[c], rfl, .plain hquote hslash (by omega)⟩
        · obtain rfl : c = '\\' := not_not.1 hslash
          obtain ⟨escape, htail, hescape⟩ := charText_of_parseEscape hread
          exact ⟨'\\' :: escape, by rw [htail]; rfl, hescape⟩
      refine ⟨unit ++ body, first ++ decoded, ?_, .cons hchar hbody, List.append_assoc _ _ _, hlength⟩
      rw [hunit, List.append_assoc]

theorem parseString_of_text {text chars : Bytes} (h : CharsText text chars) (tail : Bytes)
    (hlength : chars.length ≤ limits.maxStringBytes) :
    parseString limits (text ++ '"' :: tail) = .ok (String.ofList chars, tail) := by
  have hread : parseChars limits ((text ++ '"' :: tail).length + 1) [] (text ++ '"' :: tail) = .ok (chars, tail) :=
    h.parseChars tail (by rw [List.length_append]; omega) hlength
  rw [parseString, hread, Parsed.andThen_ok]

theorem text_of_parseString {text rest : Bytes} {value : String} (h : parseString limits text = .ok (value, rest)) :
    ∃ body chars, text = body ++ '"' :: rest ∧ CharsText body chars ∧ value = String.ofList chars ∧
      value.length ≤ limits.maxStringBytes := by
  obtain ⟨chars, rest₁, hread, hvalue⟩ := Parsed.andThen_eq_ok h
  cases hvalue
  obtain ⟨body, decoded, htext, hbody, hchars, hlength⟩ := charsText_of_parseChars (Nat.zero_le _) hread
  rw [List.nil_append] at hchars
  exact ⟨body, chars, htext, hchars ▸ hbody, rfl, by rwa [String.length_ofList]⟩

/-! ## Whitespace and punctuation -/

theorem Spaces.skipWhitespace {spaces : Bytes} (h : Spaces spaces) (text : Bytes) :
    skipWhitespace (spaces ++ text) = skipWhitespace text := by
  induction spaces with
  | nil => rfl
  | cons c spaces ih =>
    rw [List.cons_append, FabricEvolution.skipWhitespace, List.dropWhile_cons_of_pos (h c List.mem_cons_self)]
    exact ih fun d hd => h d (List.mem_cons_of_mem _ hd)

theorem spaces_of_skipWhitespace (text : Bytes) : ∃ spaces, Spaces spaces ∧ text = spaces ++ skipWhitespace text :=
  ⟨text.takeWhile isSpace, fun _ hc => List.mem_takeWhile_imp hc, List.takeWhile_append_dropWhile.symm⟩

theorem skipWhitespace_cons {c : Char} {text : Bytes} (hc : isSpace c = false) : skipWhitespace (c :: text) = c :: text := by
  simp [skipWhitespace, hc]

/-- How the text of a value starts. -/
def StartsValue (text : Bytes) : Prop := ∃ c rest, text = c :: rest ∧ isSpace c = false ∧ c ≠ ']' ∧ c ≠ '}'

theorem StartsValue.skipWhitespace {text : Bytes} (h : StartsValue text) : skipWhitespace text = text := by
  obtain ⟨c, rest, rfl, hspace, -⟩ := h
  exact skipWhitespace_cons hspace

theorem StartsValue.append {text : Bytes} (h : StartsValue text) (tail : Bytes) : StartsValue (text ++ tail) := by
  obtain ⟨c, rest, rfl, hc⟩ := h
  exact ⟨c, rest ++ tail, rfl, hc⟩

theorem StartsValue.head {text : Bytes} (h : StartsValue text) : text.head? ≠ some ']' ∧ text.head? ≠ some '}' := by
  obtain ⟨c, rest, rfl, -, harray, hobject⟩ := h
  exact ⟨by simpa using harray, by simpa using hobject⟩

theorem ne_of_isDigit {c d : Char} (hc : c.isDigit = true) (hd : d.isDigit = false) : c ≠ d := by
  rintro rfl
  rw [hc] at hd
  cases hd

theorem isSpace_of_isDigit {c : Char} (hc : c.isDigit = true) : isSpace c = false := by
  simp [isSpace, ne_of_isDigit hc]

theorem JsonText.starts {body : Bytes} {tree : JsonSyntax} (h : JsonText body tree) : StartsValue body := by
  cases h with
  | null => exact ⟨'n', _, rfl, by decide, by decide, by decide⟩
  | trueLiteral => exact ⟨'t', _, rfl, by decide, by decide, by decide⟩
  | falseLiteral => exact ⟨'f', _, rfl, by decide, by decide, by decide⟩
  | number number =>
    obtain ⟨c, rest, hhead, hc⟩ := number.head
    refine ⟨c, rest, hhead, ?_⟩
    rcases hc with hdigit | rfl
    · exact ⟨isSpace_of_isDigit hdigit, ne_of_isDigit hdigit (by decide), ne_of_isDigit hdigit (by decide)⟩
    · decide
  | string hchars => exact ⟨'"', _, rfl, by decide, by decide, by decide⟩
  | emptyArray hspaces => exact ⟨'[', _, rfl, by decide, by decide, by decide⟩
  | array hne hbefore hafter hvalues => exact ⟨'[', _, rfl, by decide, by decide, by decide⟩
  | emptyObject hspaces => exact ⟨'{', _, rfl, by decide, by decide, by decide⟩
  | object hne hbefore hkeys hafter hpadding hvalues => exact ⟨'{', _, rfl, by decide, by decide, by decide⟩

/-- What stands behind an element is no part of a number. -/
theorem endsNumber_spaces {spaces rest : Bytes} (h : Spaces spaces) (hrest : EndsNumber rest) : EndsNumber (spaces ++ rest) := by
  cases spaces with
  | nil => exact hrest
  | cons c spaces =>
    rintro d hd
    cases hd
    have hspace := h c List.mem_cons_self
    simp only [isSpace, Bool.or_eq_true, decide_eq_true_eq] at hspace
    rcases hspace with ((rfl | rfl) | rfl) | rfl <;> decide

theorem endsNumber_cons {c : Char} {tail : Bytes} (hc : c = ',' ∨ c = ']' ∨ c = '}') : EndsNumber (c :: tail) := by
  rintro d hd
  cases hd
  rcases hc with rfl | rfl | rfl <;> decide

theorem literal_of_parseLiteral {word text rest : Bytes} {value read : Json} (h : parseLiteral word value text = .ok (read, rest)) :
    text = word ++ rest ∧ read = value := by
  unfold parseLiteral at h
  split_ifs at h with hword
  cases h
  exact ⟨by conv_lhs => rw [← List.take_append_drop word.length text, hword], rfl⟩

theorem parseLiteral_word (word : Bytes) (value : Json) (tail : Bytes) :
    parseLiteral word value (word ++ tail) = .ok (value, tail) := by
  simp [parseLiteral]

/-- What follows an element. -/
theorem separator_cases {close : Char} {unterminated expected : String} {text : Bytes} {separator : Separator}
    (h : parseSeparator close unterminated expected text = .ok separator) :
    ∃ spaces rest, Spaces spaces ∧
      (separator = .next rest ∧ text = spaces ++ ',' :: rest ∨ separator = .last rest ∧ text = spaces ++ close :: rest) := by
  obtain ⟨spaces, hspaces, htext⟩ := spaces_of_skipWhitespace text
  unfold parseSeparator at h
  split at h
  · cases h
  · rename_i c rest hskip
    rw [hskip] at htext
    split_ifs at h with hcomma hclose
    · cases h
      exact ⟨spaces, rest, hspaces, .inl ⟨rfl, hcomma ▸ htext⟩⟩
    · cases h
      exact ⟨spaces, rest, hspaces, .inr ⟨rfl, hclose ▸ htext⟩⟩

theorem parseSeparator_next {close : Char} {unterminated expected : String} {spaces : Bytes} (h : Spaces spaces) (rest : Bytes) :
    parseSeparator close unterminated expected (spaces ++ ',' :: rest) = .ok (.next rest) := by
  rw [parseSeparator, h.skipWhitespace, skipWhitespace_cons (by decide)]
  rfl

theorem parseSeparator_last {close : Char} {unterminated expected : String} {spaces : Bytes} (h : Spaces spaces)
    (hclose : isSpace close = false ∧ close ≠ ',') (rest : Bytes) :
    parseSeparator close unterminated expected (spaces ++ close :: rest) = .ok (.last rest) := by
  rw [parseSeparator, h.skipWhitespace, skipWhitespace_cons hclose.1]
  simp [hclose.2]

/-! ## Keys -/

/-- A key that is read stands between quotes, a colon behind it; it is new and there is room for it. -/
theorem key_of_parseKey {members : List (String × Json)} {text rest : Bytes} {key : String}
    (h : parseKey limits members text = .ok (key, rest)) :
    ∃ before body after between chars, text = before ++ '"' :: body ++ '"' :: after ++ ':' :: (between ++ rest) ∧
      Spaces before ∧ Spaces after ∧ Spaces between ∧ CharsText body chars ∧ key = String.ofList chars ∧
      key.length ≤ limits.maxStringBytes ∧ members.length < limits.maxContainerEntries ∧ assocFind key members = none := by
  obtain ⟨before, hbefore, htext⟩ := spaces_of_skipWhitespace text
  unfold parseKey at h
  split at h
  · cases h
  · rename_i c rest₁ hskip
    rw [hskip] at htext
    by_cases hquote : c = '"'
    · subst hquote
      rw [if_neg (not_not.2 rfl)] at h
      obtain ⟨name, rest₂, hread, hnext⟩ := Parsed.andThen_eq_ok h
      obtain ⟨body, chars, hbody, hchars, hname, hlength⟩ := text_of_parseString hread
      split_ifs at hnext with hfull hknown
      obtain ⟨after, hafter, hrest₂⟩ := spaces_of_skipWhitespace rest₂
      split at hnext
      · cases hnext
      · rename_i d rest₃ hskip'
        split_ifs at hnext with hcolon
        obtain rfl := not_not.1 hcolon
        cases hnext
        obtain ⟨between, hbetween, hrest₃⟩ := spaces_of_skipWhitespace rest₃
        refine ⟨before, body, after, between, chars, ?_, hbefore, hafter, hbetween, hchars, hname, hlength, by omega,
          by simpa using hknown⟩
        rw [← hrest₃, htext, hbody, hrest₂, hskip']
        simp
    · rw [if_pos hquote] at h
      cases h

theorem parseKey_text {members : List (String × Json)} {before body after between chars : Bytes} (hbefore : Spaces before)
    (hafter : Spaces after) (hbetween : Spaces between) (hchars : CharsText body chars)
    (hlength : chars.length ≤ limits.maxStringBytes) (hroom : members.length < limits.maxContainerEntries)
    (hnew : assocFind (String.ofList chars) members = none) {rest : Bytes} (hrest : StartsValue rest) :
    parseKey limits members (before ++ '"' :: body ++ '"' :: after ++ ':' :: (between ++ rest)) = .ok (String.ofList chars, rest) := by
  have hshape : before ++ '"' :: body ++ '"' :: after ++ ':' :: (between ++ rest) =
      before ++ '"' :: (body ++ '"' :: (after ++ ':' :: (between ++ rest))) := by simp
  rw [hshape, parseKey, hbefore.skipWhitespace, skipWhitespace_cons (by decide)]
  simp only [ne_eq, not_true_eq_false, if_false, parseString_of_text hchars _ hlength, Parsed.andThen_ok, hnew,
    Option.isSome_none, Bool.false_eq_true, hafter.skipWhitespace, skipWhitespace_cons (show isSpace ':' = false by decide),
    hbetween.skipWhitespace, hrest.skipWhitespace, ge_iff_le, Nat.not_le.2 hroom]

end

end FabricEvolution
