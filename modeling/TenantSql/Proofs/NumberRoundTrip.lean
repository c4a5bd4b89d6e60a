import TenantSql.Proofs.NumericText
import TenantSql.Proofs.WholeDoubles
/-!
# TenantSql.Proofs.NumberRoundTrip

The literal of a number is read back as the number.

An integer has one form, and it is read as an integer. A double is displayed without a
point exactly if it is whole (`Binary64.places_decimal_eq_zero_iff`), so whole doubles are
read back as integers as long as these have 64 bits: the number on display need not be
the double, but it is rounded to it. `2 ^ 63` and its opposite are displayed as more than
they are, so the lower one is no integer there either (`Binary64.exists_int64_numeral_iff`).
All other doubles are read as the nearest one to the number on display, which they are
(`Value.parseNumeric_literal`).
-/

namespace TenantSql

/-! ### Whole doubles are displayed without a point -/

namespace BinaryFloat

variable {f : FloatFormat}

/-- Two numbers that are nearest to one compare as equal, whatever the signs of zeros. -/
theorem IsNearest.numericEq {y z : BinaryFloat f} {x : ℚ} (hy : y.IsNearest x)
    (hz : z.IsNearest x) : y.numericEq z = true := by
  have hcode := hy.code_eq hz
  have hsign : y.negative = z.negative ∨ y.code = 0 := by
    by_cases h0 : y.value = 0
    · right
      rw [← abs_eq_zero, y.abs_value, div_eq_zero_iff, Nat.cast_eq_zero, Nat.cast_eq_zero] at h0
      have hunits : y.units = 0 := h0.resolve_right (twoPow_pos _).ne'
      exact f.units_strictMono.injective (hunits.trans f.units_zero.symm)
    · left
      rw [hy.negative_eq h0, hz.negative_eq ((hy.unique hz).symm.trans_ne h0)]
  have hnan : y.isNaN = false := hy.1
  have hnan' : z.isNaN = false := hz.1
  simpa [BinaryFloat.numericEq, hnan, hnan', hcode] using hsign

end BinaryFloat

namespace Binary64

/-- Whole numbers up to `2 ^ 53` are doubles. -/
theorem exists_value_eq_signed (negative : Bool) {n : Nat} (hn : n ≤ 2 ^ 53) :
    ∃ z : Binary64, z.isNaN = false ∧ z.value = signed negative n := by
  have hone : (FloatFormat.double.one : ℚ) ≠ 0 := Nat.cast_ne_zero.mpr (twoPow_pos _).ne'
  obtain ⟨code, hle, hunits⟩ :=
    FloatFormat.double.exists_units_eq FloatFormat.double.unitExponent (q := n) hn
  have hcode : code ≤ FloatFormat.double.infinityCode := by
    have hbits : twoPow FloatFormat.double.fractionBits = 2 ^ 52 := rfl
    have hexponent : FloatFormat.double.unitExponent = 1074 := by decide +kernel
    have hinfinity : FloatFormat.double.infinityCode = 2047 * 2 ^ 52 := by decide +kernel
    rw [hbits, hexponent] at hle
    omega
  refine ⟨.ofCode negative code hcode, (BinaryFloat.isNaN_eq_false_iff _).mpr hcode, ?_⟩
  have hvalue : (BinaryFloat.ofCode negative code hcode : Binary64).value =
      signed negative (FloatFormat.double.units code / FloatFormat.double.one) := rfl
  rw [hvalue, hunits, Nat.cast_mul]
  exact congrArg _ (mul_div_cancel_right₀ _ hone)

/-- A double is displayed without a point exactly if it is whole. -/
theorem places_decimal_eq_zero_iff {x : Binary64} (hx : x.isFinite = true) :
    x.decimal.places = 0 ↔ ∃ n : Int, x.value = n := by
  constructor
  · intro hplaces
    by_contra hfraction
    have hnan := BinaryFloat.isNaN_of_isFinite hx
    have hlt := value_decimal_lt_of_fractional hnan (not_exists.mp hfraction)
    have hvalue : x.decimal.value = x.decimal.num := by
      refine Decimal.value_eq_num ?_
      unfold Decimal.places at hplaces
      omega
    rw [hvalue] at hlt
    obtain ⟨z, hz, hzvalue⟩ :=
      exists_value_eq_signed x.negative (n := x.decimal.num) (by exact_mod_cast hlt.le)
    obtain ⟨m, hm⟩ := exists_intCast_eq_signed x.negative x.decimal.num
    have hnear := isNearest_numeral hnan
    rw [x.value_numeral, hvalue, ← hm] at hnear
    exact hfraction ⟨m, hnear.value_eq hz (hzvalue.trans hm.symm)⟩
  · rintro ⟨n, hn⟩
    have hexponent := exponent_decimal_nonneg hx hn
    unfold Decimal.places
    omega

/-- It is an integer by its digits then. -/
theorem exists_integer?_numeral_iff {x : Binary64} :
    (∃ m, x.numeral.integer? = some m) ↔ x.decimal.places = 0 := by
  unfold numeral Decimal.numeral Numeral.integer?
  by_cases h : x.decimal.places = 0 <;> simp [h]

/-- What is displayed of a double is a 64-bit integer by its digits exactly if the double is whole and
below `2 ^ 63` in magnitude. -/
theorem exists_int64_numeral_iff {x : Binary64} (hx : x.isFinite = true) :
    (∃ i : Int64, x.numeral.integer? = some i.toInt) ↔ ∃ n : Int, x.value = n ∧ |n| < 2 ^ 63 := by
  constructor
  · rintro ⟨i, hi⟩
    obtain ⟨n, hn⟩ := (places_decimal_eq_zero_iff hx).mp (exists_integer?_numeral_iff.mp ⟨_, hi⟩)
    have hdecimal : x.decimal.value ≤ 2 ^ 63 := by
      rw [← x.abs_value_numeral, Numeral.value_of_integer? hi]
      exact Value.abs_toInt_le i
    let power : Binary64 := .ofInt (2 ^ 63)
    have hpower : power.value = (2 ^ 63 : Int) :=
      ((power.toInt?_eq_some_iff _).mp (by decide +kernel)).2
    have hpowerdecimal : power.decimal = ⟨9223372036854776, 3⟩ := by decide +kernel
    have hdisplayed : 2 ^ 63 < power.decimal.value := by
      rw [hpowerdecimal, Decimal.value]
      norm_num
    have hlt := abs_value_lt_two_pow hx (by decide) (by exact_mod_cast hpower) hdisplayed hdecimal
    rw [hn] at hlt
    exact ⟨n, hn, by exact_mod_cast hlt⟩
  · rintro ⟨n, hn, hlt⟩
    obtain ⟨m, hm⟩ := exists_integer?_numeral_iff.mpr ((places_decimal_eq_zero_iff hx).mpr ⟨n, hn⟩)
    have hvalue : |x.value| < 2 ^ 63 := by
      rw [hn]
      exact_mod_cast hlt
    have hdecimal := value_decimal_lt_two_pow hx (by decide) hvalue
    rw [← x.abs_value_numeral, Numeral.value_of_integer? hm] at hdecimal
    have hm' : |m| < 2 ^ 63 := by exact_mod_cast hdecimal
    obtain ⟨i, rfl⟩ := exists_int64_of_range (abs_lt.mp hm').1.le (abs_lt.mp hm').2
    exact ⟨i, hm⟩

end Binary64

/-! ### Literals are read back -/

namespace Value

theorem parseNumeric_literal_int (i : Int64) : parseNumeric (literal (.int i)) = .int i := by
  obtain ⟨n, hn, hi⟩ := readInt?_eq_some_iff.mp (readInt?_intText i.toInt)
  exact parseNumeric_eq_int_iff.mpr ⟨n, Numeral.text_eq_iff.mpr hn, hi⟩

/-- A double that is displayed as a 64-bit integer is read back as an integer that is rounded to
it. -/
theorem parseNumeric_literal_whole {x : Binary64} (hx : x.isFinite = true)
    (h : ∃ i : Int64, x.numeral.integer? = some i.toInt) :
    ∃ i : Int64, parseNumeric (literal (.float x)) = .int i ∧
      (BinaryFloat.ofInt i.toInt == x) = true := by
  obtain ⟨i, hi⟩ := h
  refine ⟨i, parseNumeric_eq_int_iff.mpr ⟨x.numeral, (Binary64.display_eq hx).symm, hi⟩, ?_⟩
  have hnear := Binary64.isNearest_numeral (BinaryFloat.isNaN_of_isFinite hx)
  rw [Numeral.value_of_integer? hi] at hnear
  exact (BinaryFloat.isNearest_ofInt (by decide) i.toInt).numericEq hnear

/-- Any other finite double is read back as it is. -/
theorem parseNumeric_literal_float {x : Binary64} (hx : x.isFinite = true)
    (h : ¬∃ i : Int64, x.numeral.integer? = some i.toInt) :
    parseNumeric (literal (.float x)) = .float x :=
  parseNumeric_eq_float_iff.mpr ⟨x.numeral, (Binary64.display_eq hx).symm, not_exists.mp h,
    Binary64.isNearest_numeral (BinaryFloat.isNaN_of_isFinite hx),
    (Decimal.negative_numeral x.negative x.decimal).symm, hx⟩

/-- **The literal of a number is read back as the number.** An integer is read back as itself. A
finite double is read back as an integer exactly if it is whole and below `2 ^ 63` in magnitude, and
the double is what this integer is rounded to; any other one is read back as itself. -/
theorem parseNumeric_literal :
    (∀ i : Int64, parseNumeric (literal (.int i)) = .int i) ∧
    ∀ x : Binary64, x.isFinite = true →
      ((∃ n : Int, x.value = n ∧ |n| < 2 ^ 63) ∧
        ∃ i : Int64, parseNumeric (literal (.float x)) = .int i ∧
          (BinaryFloat.ofInt i.toInt == x) = true) ∨
      ((¬∃ n : Int, x.value = n ∧ |n| < 2 ^ 63) ∧
        parseNumeric (literal (.float x)) = .float x) := by
  refine ⟨parseNumeric_literal_int, fun x hx => ?_⟩
  rw [← Binary64.exists_int64_numeral_iff hx]
  by_cases h : ∃ i : Int64, x.numeral.integer? = some i.toInt
  · exact .inl ⟨h, parseNumeric_literal_whole hx h⟩
  · exact .inr ⟨h, parseNumeric_literal_float hx h⟩

/-- A zero with a sign is read back without it. The least double above zero, with its 324 digits
behind the point, is read back as it is, as is the one at the low end of the range of integers. -/
theorem parseNumeric_literal_at_ends :
    let zero : Binary64 := .ofDecimal true ⟨0, 0⟩
    let least : Binary64 := .ofDecimal false ⟨5, -324⟩
    let lowest : Binary64 := .ofInt (-2 ^ 63)
    (∃ i : Int64, parseNumeric (literal (.float zero)) = .int i ∧
      (BinaryFloat.ofInt i.toInt == zero) = true) ∧
    parseNumeric (literal (.float least)) = .float least ∧
    parseNumeric (literal (.float lowest)) = .float lowest := by
  intro zero least lowest
  refine ⟨?_, ?_, ?_⟩
  · have hzero : zero.value = (0 : Int) := ((zero.toInt?_eq_some_iff 0).mp (by decide +kernel)).2
    have hwhole : ∃ n : Int, zero.value = n ∧ |n| < 2 ^ 63 := ⟨0, hzero, by decide⟩
    exact ((parseNumeric_literal.2 zero (by decide +kernel)).resolve_right fun h => h.1 hwhole).2
  · have hfinite : least.isFinite = true := by decide +kernel
    have hfraction : least.toInt? = none := by decide +kernel
    refine ((parseNumeric_literal.2 least hfinite).resolve_left ?_).2
    rintro ⟨⟨n, hn, -⟩, -⟩
    rw [(least.toInt?_eq_some_iff n).mpr ⟨hfinite, hn⟩] at hfraction
    cases hfraction
  · have hlowest : lowest.value = (-2 ^ 63 : Int) :=
      ((lowest.toInt?_eq_some_iff _).mp (by decide +kernel)).2
    refine ((parseNumeric_literal.2 lowest (by decide +kernel)).resolve_left ?_).2
    rintro ⟨⟨n, hn, hlt⟩, -⟩
    rw [hlowest, Int.cast_inj] at hn
    rw [← hn] at hlt
    exact absurd hlt (by decide)

end Value

end TenantSql
