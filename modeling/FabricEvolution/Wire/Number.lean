import FabricEvolution.Wire.Dump
import FabricEvolution.Wire.Parse

/-!
# Numbers that are read back

* `EndsNumber` : what may follow a number;
* `parseNumber_uint`, `parseNumber_int` : the digits of an integer are read back;
* `NumberText` : a number as its grammar has it, `parseNumber_text` : its parts are read;
* `FloatText.Faithful` : the text of a double is a number that denotes it, `parseNumber_double` : it is read back.
-/

namespace FabricEvolution
open Lib

/-- What succeeds in two parts succeeds in each. -/
theorem Parsed.andThen_eq_ok {α β : Type} {parsed : Parsed α} {next : α → Bytes → Parsed β} {b : β} {rest : Bytes}
    (h : parsed.andThen next = .ok (b, rest)) : ∃ a middle, parsed = .ok (a, middle) ∧ next a middle = .ok (b, rest) := by
  match parsed with
  | .ok (a, middle) => exact ⟨a, middle, rfl, h⟩
  | .error message => cases h

section
variable {floats : FloatText}

/-! ## Integers -/

/-- What may follow a number. -/
def EndsNumber (tail : Bytes) : Prop := ∀ c, tail.head? = some c → c.isDigit = false ∧ c ≠ '.' ∧ c ≠ 'e' ∧ c ≠ 'E'

theorem EndsNumber.startsWithDigit {tail : Bytes} (h : EndsNumber tail) : startsWithDigit tail = false := by
  unfold FabricEvolution.startsWithDigit
  cases hhead : tail.head? with
  | none => rfl
  | some c => simpa using (h c hhead).1

theorem takeWhile_digits {digits tail : Bytes} (hdigits : ∀ c ∈ digits, c.isDigit = true)
    (htail : startsWithDigit tail = false) :
    (digits ++ tail).takeWhile (·.isDigit) = digits ∧ (digits ++ tail).dropWhile (·.isDigit) = tail := by
  induction digits with
  | nil =>
    cases tail with
    | nil => simp
    | cons c tail =>
      have hc : c.isDigit = false := by simpa [startsWithDigit] using htail
      simp [hc]
  | cons d digits ih =>
    have hd := hdigits d List.mem_cons_self
    obtain ⟨htake, hdrop⟩ := ih fun c hc => hdigits c (List.mem_cons_of_mem _ hc)
    simp [hd, htake, hdrop]

theorem digitChar_digit : ∀ n < 10, 0 < n → n.digitChar ≠ '0' ∧ n.digitChar.isDigit = true := by decide

theorem digits_head_ne_zero (n : Nat) (hn : 0 < n) : ∃ d rest, Nat.toDigits 10 n = d :: rest ∧ d ≠ '0' ∧ d.isDigit = true := by
  induction n using Nat.strongRecOn with
  | ind n ih =>
    rcases Nat.lt_or_ge n 10 with hlt | hge
    · obtain ⟨hne, hdigit⟩ := digitChar_digit n hlt hn
      exact ⟨n.digitChar, [], Nat.toDigits_of_lt_base hlt, hne, hdigit⟩
    · obtain ⟨d, rest, hdigits, hne, hdigit⟩ := ih (n / 10) (by omega) (by omega)
      rw [Nat.toDigits_of_base_le (by decide) hge, hdigits]
      exact ⟨d, rest ++ [(n % 10).digitChar], rfl, hne, hdigit⟩

theorem parseFraction_none {tail : Bytes} (htail : EndsNumber tail) : parseFraction tail = .ok ([], tail) := by
  unfold parseFraction
  rw [if_neg fun hdot => (htail '.' hdot).2.1 rfl]

theorem parseExponent_none {tail : Bytes} (htail : EndsNumber tail) : parseExponent tail = .ok ([], tail) := by
  cases tail with
  | nil => rfl
  | cons c rest =>
    obtain ⟨-, -, he, hE⟩ := htail c rfl
    simp [parseExponent, he, hE]

/-! ## The grammar of numbers -/

def IsDigits (text : Bytes) : Prop := text ≠ [] ∧ ∀ c ∈ text, c.isDigit = true

/-- A number as its grammar has it. -/
structure NumberText where
  negative : Bool := false
  whole : Bytes
  fraction : Bytes := []
  exponent : Bytes := []
  wholeDigits : whole = ['0'] ∨ IsDigits whole ∧ whole.head? ≠ some '0'
  fractionDigits : fraction = [] ∨ ∃ digits, fraction = '.' :: digits ∧ IsDigits digits
  exponentDigits : exponent = [] ∨ ∃ e sign digits, exponent = e :: (sign ++ digits) ∧ (e = 'e' ∨ e = 'E') ∧
    sign ∈ [[], ['+'], ['-']] ∧ IsDigits digits

namespace NumberText
variable (number : NumberText)

def text : Bytes := (if number.negative then ['-'] else []) ++ number.whole ++ number.fraction ++ number.exponent

/-- A number that is no integer by its text. -/
def IsFloat : Prop := number.fraction ≠ [] ∨ number.exponent ≠ []

end NumberText

theorem IsDigits.head {digits : Bytes} (h : IsDigits digits) (rest : Bytes) :
    ∃ d, (digits ++ rest).head? = some d ∧ d.isDigit = true := by
  obtain ⟨hne, hall⟩ := h
  cases digits with
  | nil => exact absurd rfl hne
  | cons d digits => exact ⟨d, rfl, hall d List.mem_cons_self⟩

theorem parseDigits_text {digits rest : Bytes} (h : IsDigits digits) (hrest : startsWithDigit rest = false) (missing : String) :
    parseDigits (digits ++ rest) missing = .ok (digits, rest) := by
  obtain ⟨htake, hdrop⟩ := takeWhile_digits h.2 hrest
  obtain ⟨d, hhead, hdigit⟩ := h.head rest
  have hstart : startsWithDigit (digits ++ rest) = true := by rw [startsWithDigit, hhead, Option.any_some, hdigit]
  rw [parseDigits, if_pos hstart, htake, hdrop]

theorem parseWhole_text {number : NumberText} {rest : Bytes} (hrest : startsWithDigit rest = false) :
    parseWhole (number.whole ++ rest) = .ok (number.whole, rest) := by
  rcases number.wholeDigits with hzero | ⟨hdigits, hne⟩
  · simp [hzero, parseWhole, hrest]
  · obtain ⟨htake, hdrop⟩ := takeWhile_digits hdigits.2 hrest
    cases hwhole : number.whole with
    | nil => exact absurd hwhole hdigits.1
    | cons d digits =>
      have hdigit : d.isDigit = true := hdigits.2 d (by rw [hwhole]; exact List.mem_cons_self)
      have hd : d ≠ '0' := by
        rintro rfl
        exact hne (by rw [hwhole, List.head?_cons])
      rw [hwhole, List.cons_append] at htake hdrop
      rw [List.cons_append, parseWhole, hdigit, if_neg (by simp), if_neg hd, htake, hdrop]

theorem parseExponent_text {number : NumberText} {tail : Bytes} (htail : EndsNumber tail) :
    parseExponent (number.exponent ++ tail) = .ok (number.exponent, tail) := by
  rcases number.exponentDigits with hnone | ⟨e, sign, digits, hexponent, he, hsign, hdigits⟩
  · rw [hnone]
    exact parseExponent_none htail
  · have hread : parseDigits (digits ++ tail) "exponent requires at least one digit" = .ok (digits, tail) :=
      parseDigits_text hdigits htail.startsWithDigit _
    have hsigned : (if (sign ++ digits ++ tail).head? = some '+' ∨ (sign ++ digits ++ tail).head? = some '-' then
        (sign ++ digits ++ tail).take 1 else []) = sign := by
      simp only [List.mem_cons, List.not_mem_nil, or_false] at hsign
      rcases hsign with rfl | rfl | rfl
      · obtain ⟨d, hhead, hdigit⟩ := hdigits.head tail
        rw [List.nil_append, hhead, if_neg]
        rintro (hplus | hminus)
        · cases hplus
          cases hdigit
        · cases hminus
          cases hdigit
      · simp
      · simp
    rw [hexponent, List.cons_append, parseExponent, if_pos he]
    dsimp only
    rw [hsigned, List.append_assoc, List.drop_left, hread, Parsed.andThen_ok]
    rfl

theorem parseFraction_text {number : NumberText} {tail : Bytes} (htail : EndsNumber tail) :
    parseFraction (number.fraction ++ (number.exponent ++ tail)) = .ok (number.fraction, number.exponent ++ tail) := by
  have hrest : startsWithDigit (number.exponent ++ tail) = false ∧ (number.exponent ++ tail).head? ≠ some '.' := by
    rcases number.exponentDigits with hnone | ⟨e, sign, digits, hexponent, he, -, -⟩
    · rw [hnone, List.nil_append]
      exact ⟨htail.startsWithDigit, fun hdot => (htail '.' hdot).2.1 rfl⟩
    · rw [hexponent]
      rcases he with rfl | rfl <;> exact ⟨rfl, by simp⟩
  rcases number.fractionDigits with hnone | ⟨digits, hfraction, hdigits⟩
  · rw [hnone, List.nil_append, parseFraction, if_neg hrest.2]
  · rw [hfraction, List.cons_append, parseFraction, if_pos (by rw [List.head?_cons]), List.tail_cons,
      parseDigits_text hdigits hrest.1, Parsed.andThen_ok]

theorem NumberText.startsWithDigit_rest (number : NumberText) {tail : Bytes} (htail : EndsNumber tail) :
    startsWithDigit (number.fraction ++ (number.exponent ++ tail)) = false := by
  rcases number.fractionDigits with hnone | ⟨digits, hfraction, -⟩
  · rw [hnone, List.nil_append]
    rcases number.exponentDigits with hnone | ⟨e, sign, digits, hexponent, he, -, -⟩
    · rw [hnone, List.nil_append]
      exact htail.startsWithDigit
    · rw [hexponent]
      rcases he with rfl | rfl <;> rfl
  · rw [hfraction]
    rfl

/-- The value of a number: an integer of 64 bits where it is one, else the double of its text; `none` where that is out of
range. -/
def NumberText.value (floats : FloatText) (number : NumberText) : Option Json :=
  let magnitude := Nat.ofDigitChars 10 number.whole 0
  if number.fraction = [] ∧ number.exponent = [] ∧ number.negative = true ∧ magnitude ≤ 2 ^ 63 then some (.int (-magnitude))
  else if number.fraction = [] ∧ number.exponent = [] ∧ number.negative = false ∧ magnitude < 2 ^ 64 then some (.uint magnitude)
  else (floats.fromChars number.text).map .double

/-- The value that the parser gives a token is that of the number. -/
theorem numberValue_eq (number : NumberText) (value : Json) :
    numberValue floats number.negative (number.fraction = [] ∧ number.exponent = []) number.whole number.text = .ok value ↔
      number.value floats = some value := by
  have hnegative : ∀ P : Prop, (decide (number.fraction = [] ∧ number.exponent = []) = true ∧ number.negative = true ∧ P) =
      (number.fraction = [] ∧ number.exponent = [] ∧ number.negative = true ∧ P) := by simp [and_assoc]
  have hpositive : ∀ P : Prop, (decide (number.fraction = [] ∧ number.exponent = []) = true ∧ (!number.negative) = true ∧ P) =
      (number.fraction = [] ∧ number.exponent = [] ∧ number.negative = false ∧ P) := by simp [and_assoc]
  unfold numberValue NumberText.value
  simp only [hnegative, hpositive]
  split_ifs
  · simp only [Except.ok.injEq, Option.some.injEq]
  · simp only [Except.ok.injEq, Option.some.injEq]
  · cases floats.fromChars number.text <;> simp

/-- The text of a number starts with a sign exactly if it is negative. -/
theorem NumberText.head_text (number : NumberText) (tail : Bytes) :
    (number.text ++ tail).head? = some '-' ↔ number.negative = true := by
  unfold text
  cases number.negative with
  | true => simp
  | false =>
    rcases number.wholeDigits with hzero | ⟨hdigits, -⟩
    · simp [hzero]
    · obtain ⟨d, hhead, hdigit⟩ := hdigits.head (number.fraction ++ (number.exponent ++ tail))
      simp only [Bool.false_eq_true, if_false, List.nil_append, List.append_assoc, hhead, iff_false, Option.some.injEq]
      rintro rfl
      cases hdigit

/-- A number is read whole. -/
theorem parseNumber_value {number : NumberText} {value : Json} (hvalue : number.value floats = some value) {tail : Bytes}
    (htail : EndsNumber tail) : parseNumber floats (number.text ++ tail) = .ok (value, tail) := by
  have hwhole : parseWhole (number.whole ++ (number.fraction ++ (number.exponent ++ tail))) =
      .ok (number.whole, number.fraction ++ (number.exponent ++ tail)) := parseWhole_text (number.startsWithDigit_rest htail)
  have hrest : (if number.negative = true then (number.text ++ tail).tail else number.text ++ tail) =
      number.whole ++ (number.fraction ++ (number.exponent ++ tail)) := by
    unfold NumberText.text
    cases number.negative <;> simp
  unfold parseNumber
  simp only [number.head_text tail, hrest, hwhole, Parsed.andThen_ok, parseFraction_text htail, parseExponent_text htail]
  rw [show (if number.negative = true then ['-'] else []) ++ number.whole ++ number.fraction ++ number.exponent = number.text
    from rfl, Bool.decide_eq_true, (numberValue_eq number value).2 hvalue]

/-- A number that is no integer has the value that the standard library reads in its text. -/
theorem NumberText.value_float {number : NumberText} (hfloat : number.IsFloat) {bits : UInt64}
    (hbits : floats.fromChars number.text = some bits) : number.value floats = some (.double bits) := by
  have hneither : ∀ P : Prop, ¬ (number.fraction = [] ∧ number.exponent = [] ∧ P) :=
    fun P h => hfloat.elim (· h.1) (· h.2.1)
  rw [value, if_neg (hneither _), if_neg (hneither _), hbits]
  rfl

/-! ## Integers -/

theorem digits_appendU64 (n : Nat) : appendU64 n = ['0'] ∨ IsDigits (appendU64 n) ∧ (appendU64 n).head? ≠ some '0' := by
  rcases Nat.eq_zero_or_pos n with rfl | hn
  · exact .inl (Nat.toDigits_zero 10)
  · obtain ⟨d, rest, hdigits, hne, -⟩ := digits_head_ne_zero n hn
    have hall : ∀ c ∈ appendU64 n, c.isDigit = true := fun c hc => Nat.isDigit_of_mem_toDigits (by decide) (by decide) hc
    have hshape : appendU64 n = d :: rest := hdigits
    refine .inr ⟨⟨by simp [hshape], hall⟩, ?_⟩
    simpa [hshape] using hne

/-- The text of an integer. -/
def NumberText.integer (negative : Bool) (magnitude : Nat) : NumberText where
  negative := negative
  whole := appendU64 magnitude
  wholeDigits := digits_appendU64 magnitude
  fractionDigits := .inl rfl
  exponentDigits := .inl rfl

theorem NumberText.text_uint (n : Nat) : (integer false n).text = appendU64 n := by simp [text, integer]

theorem NumberText.text_int {n : Int} (hneg : n < 0) : (integer true n.natAbs).text = appendI64 n := by
  simp [text, integer, appendI64, if_pos hneg]

theorem NumberText.value_uint {n : Nat} (hn : n < 2 ^ 64) : (integer false n).value floats = some (.uint n) := by
  have hvalue : Nat.ofDigitChars 10 (appendU64 n) 0 = n := Nat.ofDigitChars_ten_toDigits
  simp only [value, integer, hvalue]
  rw [if_neg (by simp), if_pos ⟨trivial, trivial, trivial, hn⟩]

theorem NumberText.value_int {n : Int} (hneg : n < 0) (hmin : -2 ^ 63 ≤ n) :
    (integer true n.natAbs).value floats = some (.int n) := by
  have hvalue : Nat.ofDigitChars 10 (appendU64 n.natAbs) 0 = n.natAbs := Nat.ofDigitChars_ten_toDigits
  have habs : n.natAbs ≤ 2 ^ 63 := by omega
  simp only [value, integer, hvalue]
  rw [if_pos ⟨trivial, trivial, trivial, habs⟩, show -(n.natAbs : Int) = n by omega]

/-! ## What is read as a number -/

theorem isDigits_takeWhile {text : Bytes} (h : startsWithDigit text = true) : IsDigits (text.takeWhile (·.isDigit)) := by
  refine ⟨fun hnil => ?_, fun c hc => List.mem_takeWhile_imp hc⟩
  cases text with
  | nil => cases h
  | cons c rest =>
    have hc : c.isDigit = true := by simpa [startsWithDigit] using h
    rw [List.takeWhile_cons_of_pos hc] at hnil
    cases hnil

theorem digits_of_parseDigits {text digits rest : Bytes} {missing : String} (h : parseDigits text missing = .ok (digits, rest)) :
    text = digits ++ rest ∧ IsDigits digits := by
  unfold parseDigits at h
  split_ifs at h with hstart
  cases h
  exact ⟨List.takeWhile_append_dropWhile.symm, isDigits_takeWhile hstart⟩

theorem whole_of_parseWhole {text whole rest : Bytes} (h : parseWhole text = .ok (whole, rest)) :
    text = whole ++ rest ∧ (whole = ['0'] ∨ IsDigits whole ∧ whole.head? ≠ some '0') := by
  unfold parseWhole at h
  split at h
  · cases h
  · rename_i c tail
    split_ifs at h with hdigit hzero hmore
    · cases h
      exact ⟨by rw [hzero]; rfl, .inl rfl⟩
    · have hc : c.isDigit = true := by simpa using hdigit
      have hstart : startsWithDigit (c :: tail) = true := by simp [startsWithDigit, hc]
      cases h
      refine ⟨List.takeWhile_append_dropWhile.symm, .inr ⟨isDigits_takeWhile hstart, ?_⟩⟩
      rw [List.takeWhile_cons_of_pos hc, List.head?_cons]
      simpa using hzero

theorem fraction_of_parseFraction {text fraction rest : Bytes} (h : parseFraction text = .ok (fraction, rest)) :
    text = fraction ++ rest ∧ (fraction = [] ∨ ∃ digits, fraction = '.' :: digits ∧ IsDigits digits) := by
  unfold parseFraction at h
  split_ifs at h with hdot
  · obtain ⟨digits, rest₁, hread, hvalue⟩ := Parsed.andThen_eq_ok h
    obtain ⟨htail, hdigits⟩ := digits_of_parseDigits hread
    cases hvalue
    refine ⟨?_, .inr ⟨digits, rfl, hdigits⟩⟩
    cases text with
    | nil => cases hdot
    | cons c tail =>
      cases hdot
      rw [List.tail_cons] at htail
      rw [htail]
      rfl
  · cases h
    exact ⟨rfl, .inl rfl⟩

theorem exponent_of_parseExponent {text exponent rest : Bytes} (h : parseExponent text = .ok (exponent, rest)) :
    text = exponent ++ rest ∧ (exponent = [] ∨ ∃ e sign digits, exponent = e :: (sign ++ digits) ∧ (e = 'e' ∨ e = 'E') ∧
      sign ∈ [[], ['+'], ['-']] ∧ IsDigits digits) := by
  unfold parseExponent at h
  split at h
  · cases h
    exact ⟨rfl, .inl rfl⟩
  · rename_i c tail
    by_cases he : c = 'e' ∨ c = 'E'
    · rw [if_pos he] at h
      obtain ⟨digits, rest₁, hread, hvalue⟩ := Parsed.andThen_eq_ok h
      obtain ⟨htail, hdigits⟩ := digits_of_parseDigits hread
      obtain ⟨sign, hsign, hmem, htake⟩ : ∃ sign, (if tail.head? = some '+' ∨ tail.head? = some '-' then tail.take 1 else []) = sign ∧
          sign ∈ [[], ['+'], ['-']] ∧ tail.take sign.length = sign := by
        by_cases hhead : tail.head? = some '+' ∨ tail.head? = some '-'
        · rw [if_pos hhead]
          cases tail with
          | nil => simp at hhead
          | cons d tail => rcases hhead with hd | hd <;> cases hd <;> simp
        · rw [if_neg hhead]
          simp
      rw [hsign] at htail hvalue
      cases hvalue
      refine ⟨?_, .inr ⟨c, sign, digits, rfl, he, hmem, hdigits⟩⟩
      rw [List.cons_append, List.cons_append, List.append_assoc, ← htail]
      conv_lhs => rw [← List.take_append_drop sign.length tail, htake]
    · rw [if_neg he] at h
      cases h
      exact ⟨rfl, .inl rfl⟩

/-- What is read as a number is one, and has its value. -/
theorem number_of_parseNumber {text rest : Bytes} {value : Json} (h : parseNumber floats text = .ok (value, rest)) :
    ∃ number : NumberText, text = number.text ++ rest ∧ number.value floats = some value := by
  unfold parseNumber at h
  obtain ⟨whole, rest₁, hwhole, h₁⟩ := Parsed.andThen_eq_ok h
  obtain ⟨fraction, rest₂, hfraction, h₂⟩ := Parsed.andThen_eq_ok h₁
  obtain ⟨exponent, rest₃, hexponent, h₃⟩ := Parsed.andThen_eq_ok h₂
  obtain ⟨htext, hwholeDigits⟩ := whole_of_parseWhole hwhole
  obtain ⟨rfl, hfractionDigits⟩ := fraction_of_parseFraction hfraction
  obtain ⟨rfl, hexponentDigits⟩ := exponent_of_parseExponent hexponent
  dsimp only at h₃
  have hdone : ∀ number : NumberText, number.negative = decide (text.head? = some '-') → number.whole = whole →
      number.fraction = fraction → number.exponent = exponent → number.value floats = some value ∧ rest = rest₃ := by
    rintro number hnegative rfl rfl rfl
    have htoken : (if text.head? = some '-' then ['-'] else []) ++ number.whole ++ number.fraction ++ number.exponent =
        number.text := by
      simp [NumberText.text, hnegative]
    rw [htoken, ← hnegative] at h₃
    cases hread : numberValue floats number.negative (decide (number.fraction = [] ∧ number.exponent = [])) number.whole
        number.text with
    | error message =>
      rw [hread] at h₃
      cases h₃
    | ok value' =>
      rw [hread] at h₃
      cases h₃
      exact ⟨(numberValue_eq number value).1 hread, rfl⟩
  by_cases hsign : text.head? = some '-'
  · obtain ⟨hvalue, rfl⟩ := hdone ⟨true, whole, fraction, exponent, hwholeDigits, hfractionDigits, hexponentDigits⟩
      (by simp [hsign]) rfl rfl rfl
    refine ⟨_, ?_, hvalue⟩
    cases text with
    | nil => cases hsign
    | cons c tail =>
      cases hsign
      simp only [List.head?_cons, if_true, List.tail_cons] at htext
      simp [NumberText.text, htext]
  · obtain ⟨hvalue, rfl⟩ := hdone ⟨false, whole, fraction, exponent, hwholeDigits, hfractionDigits, hexponentDigits⟩
      (by simp [hsign]) rfl rfl rfl
    rw [if_neg hsign] at htext
    exact ⟨_, by simp [NumberText.text, htext], hvalue⟩

/-! ## Doubles -/

/-- The shortest text of a double is a decimal number, and as a literal it denotes the double. -/
structure FloatText.Faithful (floats : FloatText) (bits : UInt64) : Prop where
  decimal : ∃ number : NumberText, floats.toChars bits = some number.text
  denotes : floats.fromChars (appendDouble floats bits) = some bits

/-- The literal of a double is a number, and no integer. -/
theorem FloatText.Faithful.literal {bits : UInt64} (h : floats.Faithful bits) :
    ∃ number : NumberText, number.IsFloat ∧ appendDouble floats bits = number.text := by
  obtain ⟨number, htext⟩ := h.decimal
  by_cases hfloat : number.IsFloat
  · refine ⟨number, hfloat, ?_⟩
    have hmark : number.text.any (fun c => c = '.' || c = 'e' || c = 'E') = true := by
      rw [List.any_eq_true]
      rcases hfloat with hfraction | hexponent
      · obtain ⟨digits, hfraction, -⟩ := number.fractionDigits.resolve_left hfraction
        exact ⟨'.', by simp [NumberText.text, hfraction], rfl⟩
      · obtain ⟨e, sign, digits, hexponent, he, -⟩ := number.exponentDigits.resolve_left hexponent
        exact ⟨e, by simp [NumberText.text, hexponent], by rcases he with rfl | rfl <;> rfl⟩
    rw [appendDouble, htext]
    exact if_pos hmark
  · -- An integer by its text gets a fraction.
    obtain ⟨hfraction, hexponent⟩ : number.fraction = [] ∧ number.exponent = [] := by
      simpa [NumberText.IsFloat] using hfloat
    refine ⟨{ number with fraction := ".0".toList, fractionDigits := .inr ⟨['0'], rfl, by simp, by simp⟩ },
      .inl (by simp), ?_⟩
    have hdigit : ∀ c ∈ number.whole, c.isDigit = true := by
      rcases number.wholeDigits with hzero | ⟨hdigits, -⟩
      · rw [hzero]
        simp
      · exact hdigits.2
    have hmark : ¬ number.text.any (fun c => c = '.' || c = 'e' || c = 'E') = true := by
      rw [List.any_eq_true]
      rintro ⟨c, hmem, hc⟩
      have hplain : c.isDigit = true ∨ c = '-' := by
        simp only [NumberText.text, hfraction, hexponent, List.append_nil, List.mem_append] at hmem
        rcases hmem with hsign | hwhole
        · split_ifs at hsign
          · exact .inr (List.mem_singleton.mp hsign)
          · exact absurd hsign List.not_mem_nil
        · exact .inl (hdigit c hwhole)
      simp only [Bool.or_eq_true, decide_eq_true_eq] at hc
      rcases hc with (rfl | rfl) | rfl <;> exact absurd hplain (by decide)
    rw [appendDouble, htext]
    dsimp only
    rw [if_neg hmark]
    simp [NumberText.text, hfraction, hexponent]

/-- A literal starts as a number does. -/
theorem NumberText.head (number : NumberText) : ∃ c rest, number.text = c :: rest ∧ (c.isDigit = true ∨ c = '-') := by
  unfold text
  cases number.negative with
  | true => exact ⟨'-', _, rfl, .inr rfl⟩
  | false =>
    rcases number.wholeDigits with hzero | ⟨hdigits, -⟩
    · exact ⟨'0', _, by rw [hzero]; rfl, .inl rfl⟩
    · cases hwhole : number.whole with
      | nil => exact absurd hwhole hdigits.1
      | cons d digits => exact ⟨d, _, rfl, .inl (hdigits.2 d (by rw [hwhole]; exact List.mem_cons_self))⟩

end

end FabricEvolution
