import TenantSql.Number.Reading
import TenantSql.Proofs.Rounding
import TenantSql.Text.Basic
/-!
# TenantSql.Proofs.Numeral

Decimal numbers as people write them, and the numbers they denote.

A `Numeral` is a written number by its parts: an optional sign, digits with an
optional point among them, and an optional exponent. Its value comes from the parts
alone, so the two readers of numbers can be held against it: one reads every
numeral (`readDecimal?_chars`), the other those without a point and an exponent
(`readInt?_chars`).
-/

namespace TenantSql

/-- Digits of base ten, or none. -/
structure Digits where
  chars : List Char
  allDigits : chars.all Char.isDigit = true

/-- The natural number that digits denote. -/
def Digits.value (ds : Digits) : Nat := Nat.ofDigitChars 10 ds.chars 0

theorem Digits.isDigit (ds : Digits) : ∀ c ∈ ds.chars, c.isDigit = true :=
  List.all_eq_true.mp ds.allDigits

theorem isDigit_of_mem_natDigits {n : Nat} {c : Char} (h : c ∈ natDigits n) : c.isDigit = true :=
  Nat.isDigit_of_mem_toDigits (by decide) (by decide) h

/-- The sign in front of a number, if one is written. -/
inductive Sign where
  | none
  | plus
  | minus

namespace Sign

def chars : Sign → List Char
  | none => []
  | plus => ['+']
  | minus => ['-']

/-- Whether the number is below zero, or the zero with a minus. -/
def negative : Sign → Bool
  | minus => true
  | _ => false

end Sign

/-- A power of ten as written, with its letter in front. -/
structure Exponent where
  letter : Char
  sign : Sign
  digits : Digits
  isLetter : letter = 'e' ∨ letter = 'E'
  someDigit : digits.chars ≠ []

namespace Exponent

def chars (e : Exponent) : List Char := e.letter :: (e.sign.chars ++ e.digits.chars)

def value (e : Exponent) : Int :=
  if e.sign.negative then -(e.digits.value : Int) else e.digits.value

end Exponent

/-- A decimal number as written. -/
structure Numeral where
  sign : Sign
  whole : Digits
  /-- The digits behind the point, if there is a point. -/
  fraction : Option Digits
  exponent : Option Exponent
  someDigit : whole.chars ≠ [] ∨ ∃ ds ∈ fraction, ds.chars ≠ []

namespace Numeral

/-- The point and the digits behind it. -/
def fractionChars (n : Numeral) : List Char :=
  match n.fraction with
  | some ds => '.' :: ds.chars
  | none => []

def exponentChars (n : Numeral) : List Char :=
  match n.exponent with
  | some e => e.chars
  | none => []

def chars (n : Numeral) : List Char :=
  n.sign.chars ++ (n.whole.chars ++ (n.fractionChars ++ n.exponentChars))

def text (n : Numeral) : String := String.ofList n.chars

/-- What the digits behind the point denote. -/
def fractionValue (n : Numeral) : ℚ :=
  match n.fraction with
  | some ds => ds.value / 10 ^ ds.chars.length
  | none => 0

def exponentValue (n : Numeral) : Int :=
  match n.exponent with
  | some e => e.value
  | none => 0

/-- The number that is denoted. -/
def value (n : Numeral) : ℚ :=
  signed n.sign.negative ((n.whole.value + n.fractionValue) * 10 ^ n.exponentValue)

/-- The integer that is denoted, of a numeral without a point and an exponent. -/
def integer? (n : Numeral) : Option Int :=
  match n.fraction, n.exponent with
  | none, none => some (if n.sign.negative then -(n.whole.value : Int) else n.whole.value)
  | _, _ => none

theorem toList_text (n : Numeral) : n.text.toList = n.chars := String.toList_ofList

theorem value_of_integer? {n : Numeral} {i : Int} (h : n.integer? = some i) : n.value = i := by
  obtain ⟨sign, whole, fraction, exponent, _⟩ := n
  cases fraction with
  | some ds => cases h
  | none =>
    cases exponent with
    | some e => cases h
    | none =>
      cases h
      simp only [value, fractionValue, exponentValue, signed, zpow_zero, mul_one, add_zero]
      split <;> simp

/-! ### Readers -/

/-- The digits behind the point; without a point there are none. -/
def fractionDigits (n : Numeral) : List Char :=
  match n.fraction with
  | some ds => ds.chars
  | none => []

/-- The decimal with all digits in its coefficient. -/
def decimal (n : Numeral) : Decimal :=
  ⟨Nat.ofDigitChars 10 (n.whole.chars ++ n.fractionDigits) 0,
    n.exponentValue - n.fractionDigits.length⟩

theorem signed_decimal_value (n : Numeral) : signed n.sign.negative n.decimal.value = n.value := by
  have hten : (10 : ℚ) ≠ 0 := by norm_num
  have hcoefficient : (n.decimal.coefficient : ℚ) =
      (n.whole.value + n.fractionValue) * 10 ^ n.fractionDigits.length := by
    unfold decimal fractionDigits fractionValue
    dsimp only
    rw [Nat.ofDigitChars_append, Nat.ofDigitChars_eq_ofDigitChars_zero]
    cases n.fraction with
    | none => simp [Digits.value]
    | some ds =>
      simp only [Digits.value, Nat.cast_add, Nat.cast_mul, Nat.cast_pow, Nat.cast_ofNat]
      field_simp
  have hexponent : n.decimal.exponent = n.exponentValue - n.fractionDigits.length := rfl
  rw [value, Decimal.value, hcoefficient, hexponent, zpow_sub₀ hten, zpow_natCast]
  congr 1
  field_simp

/-- A sign is read back, and without one the text must not begin like one. -/
theorem readSign_append (sign : Sign) {rest : List Char}
    (h : ∀ c ∈ rest.head?, c ≠ '-' ∧ c ≠ '+') :
    readSign (sign.chars ++ rest) = (sign.negative, rest) := by
  cases sign with
  | plus => rfl
  | minus => rfl
  | none =>
    cases rest with
    | nil => rfl
    | cons c rest =>
      obtain ⟨hminus, hplus⟩ := h c rfl
      unfold readSign
      split
      · rename_i heq
        exact absurd (List.cons.inj heq).1 hminus
      · rename_i heq
        exact absurd (List.cons.inj heq).1 hplus
      · rfl

theorem ne_sign_of_isDigit {c : Char} (h : c.isDigit = true) : c ≠ '-' ∧ c ≠ '+' := by
  constructor <;> rintro rfl <;> exact absurd h (by decide)

theorem readNat?_digits {ds : Digits} (h : ds.chars ≠ []) : readNat? ds.chars = some ds.value := by
  have hne : ds.chars.isEmpty = false := List.isEmpty_eq_false_iff.mpr h
  rw [readNat?, ds.allDigits, hne]
  rfl

/-- A signed number of one digit or more is read back. -/
theorem readInt?_append (sign : Sign) {ds : Digits} (h : ds.chars ≠ []) :
    readInt? (sign.chars ++ ds.chars) =
      some (if sign.negative then -(ds.value : Int) else ds.value) := by
  have hhead : ∀ c ∈ ds.chars.head?, c ≠ '-' ∧ c ≠ '+' := fun c hc =>
    ne_sign_of_isDigit (ds.isDigit c (List.mem_of_mem_head? hc))
  rw [readInt?, readSign_append sign hhead, readNat?_digits h]
  rfl

theorem readExponent?_chars (n : Numeral) :
    readExponent? n.exponentChars = some n.exponentValue := by
  unfold exponentChars exponentValue
  cases n.exponent with
  | none => rfl
  | some e =>
    dsimp only [Exponent.chars]
    rw [readExponent?, if_pos (by simpa using e.isLetter), readInt?_append e.sign e.someDigit]
    rfl

/-- Behind the digits of a fraction comes the letter of an exponent, or nothing. -/
theorem stopsAt_exponentChars (n : Numeral) : StopsAt Char.isDigit n.exponentChars := by
  unfold exponentChars
  cases n.exponent with
  | none => exact fun c hc => nomatch hc
  | some e =>
    intro c hc
    cases hc
    rcases e.isLetter with h | h <;> rw [h] <;> rfl

theorem stopsAt_fractionChars (n : Numeral) :
    StopsAt Char.isDigit (n.fractionChars ++ n.exponentChars) := by
  unfold fractionChars
  cases n.fraction with
  | none => exact n.stopsAt_exponentChars
  | some ds =>
    intro c hc
    cases hc
    rfl

theorem readFraction_chars (n : Numeral) :
    readFraction (n.fractionChars ++ n.exponentChars) = (n.fractionDigits, n.exponentChars) := by
  unfold fractionChars fractionDigits
  cases n.fraction with
  | none =>
    dsimp only [List.nil_append]
    unfold readFraction
    split
    · rename_i heq
      -- The point would have to be the letter of the exponent.
      have hpoint : '.' = 'e' ∨ '.' = 'E' := by
        unfold exponentChars at heq
        split at heq
        · rename_i e _
          have hletter : e.letter = '.' := (List.cons.inj heq).1
          exact hletter ▸ e.isLetter
        · cases heq
      rcases hpoint with h | h <;> exact absurd h (by decide)
    · rfl
  | some ds =>
    simp only [List.cons_append, readFraction]
    rw [takeWhile_append ds.isDigit n.stopsAt_exponentChars,
      dropWhile_append ds.isDigit n.stopsAt_exponentChars]

/-- What stands behind the sign begins with a digit or the point. -/
theorem head_ne_sign (n : Numeral) :
    ∀ c ∈ (n.whole.chars ++ (n.fractionChars ++ n.exponentChars)).head?, c ≠ '-' ∧ c ≠ '+' := by
  intro c hc
  cases hwhole : n.whole.chars with
  | cons d ds =>
    rw [hwhole] at hc
    cases hc
    exact ne_sign_of_isDigit (n.whole.isDigit c (by simp [hwhole]))
  | nil =>
    obtain ⟨ds, hds, -⟩ := n.someDigit.resolve_left fun h => h hwhole
    rw [hwhole, fractionChars, hds] at hc
    cases hc
    decide

/-- Every numeral is read as the decimal it denotes. -/
theorem readDecimal?_chars (n : Numeral) :
    readDecimal? n.chars = some (n.sign.negative, n.decimal) := by
  have hdigit : (n.whole.chars.isEmpty && n.fractionDigits.isEmpty) = false := by
    rw [Bool.and_eq_false_iff]
    refine n.someDigit.imp List.isEmpty_eq_false_iff.mpr ?_
    rintro ⟨ds, hds, hne⟩
    rw [fractionDigits, hds]
    exact List.isEmpty_eq_false_iff.mpr hne
  unfold readDecimal? chars
  rw [readSign_append n.sign n.head_ne_sign]
  dsimp only
  rw [takeWhile_append n.whole.isDigit n.stopsAt_fractionChars,
    dropWhile_append n.whole.isDigit n.stopsAt_fractionChars, readFraction_chars]
  dsimp only
  rw [hdigit, readExponent?_chars]
  rfl

/-- A character that is no digit makes a text no natural number. -/
theorem readNat?_eq_none {cs : List Char} {c : Char} (hc : c ∈ cs) (h : c.isDigit = false) :
    readNat? cs = none := by
  have hall : cs.all Char.isDigit = false := List.all_eq_false.mpr ⟨c, hc, by simp [h]⟩
  rw [readNat?, hall, Bool.and_false]
  rfl

/-- A numeral is read as an integer if it has no point and no exponent. -/
theorem readInt?_chars (n : Numeral) : readInt? n.chars = n.integer? := by
  cases hfraction : n.fraction with
  | some ds =>
    have hmem : '.' ∈ n.whole.chars ++ (n.fractionChars ++ n.exponentChars) := by
      simp [fractionChars, hfraction]
    rw [readInt?, chars, readSign_append n.sign n.head_ne_sign, readNat?_eq_none hmem rfl]
    simp [integer?, hfraction]
  | none =>
    cases hexponent : n.exponent with
    | some e =>
      have hmem : e.letter ∈ n.whole.chars ++ (n.fractionChars ++ n.exponentChars) := by
        simp [exponentChars, Exponent.chars, hexponent]
      have hletter : e.letter.isDigit = false := by
        rcases e.isLetter with h | h <;> rw [h] <;> rfl
      rw [readInt?, chars, readSign_append n.sign n.head_ne_sign, readNat?_eq_none hmem hletter]
      simp [integer?, hfraction, hexponent]
    | none =>
      have hwhole : n.whole.chars ≠ [] := by
        refine n.someDigit.resolve_right ?_
        rintro ⟨ds, hds, -⟩
        rw [hfraction] at hds
        cases hds
      have hchars : n.chars = n.sign.chars ++ n.whole.chars := by
        simp [chars, fractionChars, exponentChars, hfraction, hexponent]
      rw [hchars, readInt?_append n.sign hwhole]
      simp [integer?, hfraction, hexponent]

end Numeral

end TenantSql
