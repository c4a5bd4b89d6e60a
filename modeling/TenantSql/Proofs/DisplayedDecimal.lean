import TenantSql.Proofs.Numeral
import TenantSql.Proofs.ReadBack
/-!
# TenantSql.Proofs.DisplayedDecimal

A double is displayed as a numeral, and the numeral denotes the decimal of the double.

The text of a decimal without an exponent has a part before the point and one behind it.
`Decimal.numeral` is the written number with these parts, so that what is said of
numerals holds of the text of a double too (`Binary64.display_eq`): which number it is,
and how many digits stand behind the point.
-/

namespace TenantSql

/-! ### Digits of natural numbers -/

namespace Digits

/-- A natural number as it is written. -/
def ofNat (n : Nat) : Digits :=
  ⟨natDigits n, List.all_eq_true.mpr fun _ => isDigit_of_mem_natDigits⟩

theorem value_ofNat (n : Nat) : (ofNat n).value = n := Nat.ofDigitChars_ten_toDigits

theorem chars_ofNat_ne_nil (n : Nat) : (ofNat n).chars ≠ [] := Nat.toDigits_ne_nil

/-- A natural number with zeros in front. -/
def padded (width n : Nat) : Digits where
  chars := Decimal.padded width n
  allDigits := by
    rw [List.all_eq_true]
    intro c hc
    rcases List.mem_append.mp hc with hzero | hdigit
    · rw [List.eq_of_mem_replicate hzero]
      decide
    · exact isDigit_of_mem_natDigits hdigit

theorem value_padded (width n : Nat) : (padded width n).value = n := by
  have hchars : (padded width n).chars =
      List.replicate (width - (natDigits n).length) '0' ++ natDigits n := rfl
  rw [value, hchars, Nat.ofDigitChars_append, Nat.ofDigitChars_replicate_zero, Nat.mul_zero]
  exact value_ofNat n

theorem length_padded {width n : Nat} (hwidth : 0 < width) (h : n < 10 ^ width) :
    (padded width n).chars.length = width := by
  have hle : (natDigits n).length ≤ width :=
    (Nat.length_toDigits_le_iff (by decide) hwidth).mpr h
  change (List.replicate (width - (natDigits n).length) '0' ++ natDigits n).length = width
  rw [List.length_append, List.length_replicate]
  omega

end Digits

/-! ### Decimals -/

namespace Decimal

/-- A signed decimal as it is written without an exponent. -/
def numeral (negative : Bool) (d : Decimal) : Numeral where
  sign := if negative then .minus else .none
  whole := .ofNat (if d.places = 0 then d.num else d.coefficient / d.den)
  fraction := if d.places = 0 then none else some (.padded d.places (d.coefficient % d.den))
  exponent := none
  someDigit := .inl (Digits.chars_ofNat_ne_nil _)

theorem chars_numeral (negative : Bool) (d : Decimal) :
    (d.numeral negative).chars = if negative then '-' :: d.positional else d.positional := by
  have hbody : (d.numeral negative).whole.chars ++ (d.numeral negative).fractionChars =
      d.positional := by
    unfold numeral Numeral.fractionChars positional
    by_cases h : d.places = 0 <;> simp [h, Digits.ofNat, Digits.padded]
  have hexponent : (d.numeral negative).exponentChars = [] := rfl
  rw [Numeral.chars, hexponent, List.append_nil, hbody]
  cases negative <;> rfl

/-- A decimal has as many digits behind the point as its power of ten asks for. -/
theorem length_fractionDigits_numeral (negative : Bool) (d : Decimal) :
    (d.numeral negative).fractionDigits.length = d.places := by
  unfold numeral Numeral.fractionDigits
  by_cases h : d.places = 0
  · simp [h]
  · have hmod : d.coefficient % d.den < 10 ^ d.places := Nat.mod_lt _ (tenPow_pos _)
    simpa [h] using Digits.length_padded (Nat.pos_of_ne_zero h) hmod

theorem negative_numeral (negative : Bool) (d : Decimal) :
    (d.numeral negative).sign.negative = negative := by
  cases negative <;> rfl

theorem value_numeral (negative : Bool) (d : Decimal) :
    (d.numeral negative).value = signed negative d.value := by
  have hden : (d.den : ℚ) = 10 ^ d.places := cast_tenPow _
  have hne : (10 : ℚ) ^ d.places ≠ 0 := pow_ne_zero _ (by norm_num)
  have hvalue : ((d.numeral negative).whole.value : ℚ) + (d.numeral negative).fractionValue =
      d.value := by
    rw [← d.num_div_den, hden]
    unfold numeral Numeral.fractionValue
    by_cases h : d.places = 0
    · simp [h, Digits.value_ofNat]
    · have hmod : d.coefficient % d.den < 10 ^ d.places := Nat.mod_lt _ (tenPow_pos _)
      have hnum : d.num = d.coefficient := by
        have hexponent : d.exponent.toNat = 0 := by
          unfold places at h
          omega
        rw [num, hexponent]
        exact Nat.mul_one _
      have hsplit : (d.coefficient : ℚ) =
          10 ^ d.places * (d.coefficient / d.den : ℕ) + (d.coefficient % d.den : ℕ) := by
        rw [← hden]
        exact_mod_cast (Nat.div_add_mod d.coefficient d.den).symm
      simp only [h, if_false, Digits.value_ofNat, Digits.value_padded,
        Digits.length_padded (Nat.pos_of_ne_zero h) hmod]
      rw [hnum, hsplit]
      field_simp
  have hexponent : (d.numeral negative).exponentValue = 0 := rfl
  rw [Numeral.value, negative_numeral, hvalue, hexponent, zpow_zero, mul_one]

end Decimal

/-- A finite double is displayed as the numeral of its decimal. -/
theorem Binary64.display_eq {x : Binary64} (h : x.isFinite = true) :
    x.display = (x.decimal.numeral x.negative).text := by
  rw [display, BinaryFloat.isNaN_of_isFinite h, h, Numeral.text, Decimal.chars_numeral]
  rfl

example : Binary64.display (.ofDecimal true ⟨15, -7⟩) = "-0.0000015" := by decide +kernel
example : Binary64.display (.ofDecimal true ⟨0, 0⟩) = "-0" := by decide +kernel

end TenantSql
