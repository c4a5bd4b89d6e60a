import TenantSql.Number.Shortest
import TenantSql.Proofs.Rounding
/-!
# TenantSql.Proofs.ReadBack

The shortest decimal of a number is read back as that number.

Every decimal of the search is tested by reading it (`ofDecimal_of_onGrid?`), and the
exact decimal, which stands at its end, is read back because a code is nearest to its
own number. So a decimal on display differs from its double by no more than any other
number that is rounded to it (`Binary64.isNearest_decimal`).

Rounding keeps the order, so a bound that is a number of the format itself is kept by
the nearest number (`IsNearest.le_of_units_le` and `IsNearest.ge_of_le_units`). The
powers of two are such bounds. From them comes that the fraction of a double is lost
from `2 ^ 53` on, also on display (`Binary64.value_decimal_lt_of_fractional`).
-/

namespace TenantSql

namespace FloatFormat

variable {f : FloatFormat}

/-! ### The order of nearest codes -/

/-- A code is nearest to its own number. -/
theorem isNearest_units {code : Nat} (hcode : code ≤ f.infinityCode) :
    f.IsNearest (f.units code) code := by
  refine ⟨hcode, fun other _ => ?_⟩
  rw [sub_self, abs_zero]
  refine ⟨abs_nonneg _, fun heq => .inl ?_⟩
  have hunits : (f.units code : ℚ) = f.units other := sub_eq_zero.mp (abs_eq_zero.mp heq.symm)
  exact (f.units_strictMono.injective (Nat.cast_injective hunits)).symm

/-- What is above a number of the format is not rounded below it. -/
theorem IsNearest.le_of_units_le {x : ℚ} {code other : Nat} (h : f.IsNearest x code)
    (hother : other ≤ f.infinityCode) (hle : (f.units other : ℚ) ≤ x) : other ≤ code := by
  by_contra hlt
  have hunits : (f.units code : ℚ) < f.units other := cast_units_lt (Nat.not_le.mp hlt)
  have hnear := (h.2 other hother).1
  rw [abs_of_nonneg (by linarith), abs_of_nonneg (by linarith)] at hnear
  linarith

/-- What is below a number of the format is not rounded above it. -/
theorem IsNearest.ge_of_le_units {x : ℚ} {code other : Nat} (h : f.IsNearest x code)
    (hother : other ≤ f.infinityCode) (hle : x ≤ f.units other) : code ≤ other := by
  by_contra hlt
  have hunits : (f.units other : ℚ) < f.units code := cast_units_lt (Nat.not_le.mp hlt)
  have hnear := (h.2 other hother).1
  rw [abs_sub_comm, abs_of_nonneg (by linarith), abs_sub_comm, abs_of_nonneg (by linarith)] at hnear
  linarith

/-! ### Reading back -/

/-- A decimal that is a number of the format is read as that number. -/
theorem ofDecimal_of_value_eq (hf : 0 < f.fractionBits) {code : Nat} (hcode : code ≤ f.infinityCode)
    {d : Decimal} (h : d.value * f.one = f.units code) : f.ofDecimal d = code := by
  have hnear := isNearest_ofDecimal hf d
  rw [h] at hnear
  exact hnear.unique (isNearest_units hcode)

/-- A unit is a power of two, so the exact decimal is no other number. -/
theorem value_exactDecimal (code : Nat) :
    (f.exactDecimal code).value * f.one = f.units code := by
  have hten : (10 : ℚ) ^ f.unitExponent = 5 ^ f.unitExponent * 2 ^ f.unitExponent := by
    rw [← mul_pow]
    norm_num
  have hfive : ((Nat.pow 5 f.unitExponent : Nat) : ℚ) = 5 ^ f.unitExponent := Nat.cast_pow 5 _
  rw [exactDecimal, Decimal.value, Nat.cast_mul, hfive, zpow_neg, zpow_natCast, f.cast_one, hten]
  field_simp

theorem ofDecimal_exactDecimal (hf : 0 < f.fractionBits) {code : Nat}
    (hcode : code ≤ f.infinityCode) : f.ofDecimal (f.exactDecimal code) = code :=
  ofDecimal_of_value_eq hf hcode (value_exactDecimal code)

/-- A hit of the search has been read back. -/
theorem ofDecimal_of_onGrid? {tie : Tie} {code : Nat} {k : Int} {d : Decimal}
    (h : f.onGrid? tie code k = some d) : f.ofDecimal d = code := by
  unfold onGrid? at h
  dsimp only at h
  split at h
  · rename_i hbelow habove
    have hbelow := beq_iff_eq.mp hbelow
    have habove := beq_iff_eq.mp habove
    cases h
    -- Both neighbours read back, so it does not matter which is the nearer one.
    repeat' split
    all_goals assumption
  · rename_i hbelow _
    cases h
    exact beq_iff_eq.mp hbelow
  · rename_i _ habove
    cases h
    exact beq_iff_eq.mp habove
  · cases h

theorem exponent_of_onGrid? {tie : Tie} {code : Nat} {k : Int} {d : Decimal}
    (h : f.onGrid? tie code k = some d) : d.exponent = k := by
  unfold onGrid? at h
  dsimp only at h
  split at h <;> cases h
  · repeat' split
    all_goals rfl
  · rfl
  · rfl

/-- Whatever grid the search stops at, or if it stops at none, the answer is read back. -/
theorem ofDecimal_shortestFrom (hf : 0 < f.fractionBits) (tie : Tie) {code : Nat}
    (hcode : code ≤ f.infinityCode) (k : Int) (fuel : Nat) :
    f.ofDecimal (f.shortestFrom tie code k fuel) = code := by
  induction fuel generalizing k with
  | zero => exact ofDecimal_exactDecimal hf hcode
  | succ fuel ih =>
    rw [shortestFrom]
    cases hgrid : f.onGrid? tie code k with
    | some d => exact ofDecimal_of_onGrid? hgrid
    | none => exact ih (k - 1)

/-- The shortest decimal of a number is read back. -/
theorem ofDecimal_shortest (hf : 0 < f.fractionBits) (tie : Tie) {code : Nat}
    (hcode : code ≤ f.infinityCode) : f.ofDecimal (f.shortest tie code) = code := by
  unfold shortest
  split
  · rename_i hzero
    have hcode0 : code = 0 := f.units_strictMono.injective (hzero.trans f.units_zero.symm)
    rw [hcode0, ofDecimal, if_pos rfl]
  · exact ofDecimal_shortestFrom hf tie hcode _ _

end FloatFormat

/-! ### Powers of two -/

namespace FloatFormat

/-- The powers of two up to the largest exponent are doubles. -/
theorem exists_units_eq_two_pow {k : Nat} (hk : k ≤ 1023) :
    ∃ code < double.infinityCode, (double.units code : ℚ) = 2 ^ k * double.one := by
  have hpos : 0 < twoPow double.fractionBits := twoPow_pos _
  refine ⟨(k + 1022) * twoPow double.fractionBits + twoPow double.fractionBits, ?_, ?_⟩
  · have hinfinity : double.infinityCode = 2047 * twoPow double.fractionBits := by decide +kernel
    rw [hinfinity, ← Nat.succ_mul]
    exact Nat.mul_lt_mul_of_pos_right (by omega) hpos
  · have hexponent : double.unitExponent = 1074 := by decide +kernel
    have hsum : double.fractionBits + (k + 1022) = k + 1074 := by
      rw [show double.fractionBits = 52 from rfl]
      omega
    rw [double.units_eq (.inr le_rfl) (Nat.le_mul_of_pos_left _ Nat.two_pos), Nat.cast_mul,
      cast_twoPow, cast_twoPow, double.cast_one, hexponent, ← pow_add, ← pow_add, hsum]

end FloatFormat

namespace BinaryFloat

variable {f : FloatFormat}

theorem isNaN_of_isFinite {x : BinaryFloat f} (h : x.isFinite = true) : x.isNaN = false :=
  x.isNaN_eq_false_iff.mpr (of_decide_eq_true h).le

/-- A number of the format with a fraction has not used up its digits on the whole part. -/
theorem abs_value_lt_of_fractional {x : BinaryFloat f} (h : ∀ n : Int, x.value ≠ n) :
    |x.value| < 2 ^ (f.fractionBits + 1) := by
  have hone : (0 : ℚ) < f.one := Nat.cast_pos.mpr (twoPow_pos _)
  obtain ⟨s, m, hcode, hs, hm⟩ := f.exists_code_eq x.code
  have hunits : x.units = m * twoPow s := by rw [units, hcode, f.units_eq hs hm.le]
  rcases Nat.lt_or_ge s f.unitExponent with hlt | hge
  · have hbound : x.units < 2 * twoPow f.fractionBits * f.one :=
      hunits ▸ Nat.mul_lt_mul_of_lt_of_le hm (Nat.pow_le_pow_right Nat.two_pos hlt.le)
        (twoPow_pos _)
    rw [abs_value, div_lt_iff₀ hone, pow_succ', ← cast_twoPow]
    exact_mod_cast hbound
  · -- A multiple of one is an integer.
    obtain ⟨k, rfl⟩ := Nat.exists_eq_add_of_le' hge
    have hwhole : x.units = m * twoPow k * f.one := by
      rw [hunits, twoPow_add, ← Nat.mul_assoc, FloatFormat.one]
    have hvalue : x.value = signed x.negative (m * twoPow k : ℕ) := by
      rw [value, hwhole, Nat.cast_mul _ f.one, mul_div_cancel_right₀ _ hone.ne']
    obtain ⟨n, hn⟩ := exists_intCast_eq_signed x.negative (m * twoPow k)
    exact absurd (hvalue.trans hn.symm) (h n)

end BinaryFloat

namespace Binary64

/-- Rounding does not take a number beyond a power of two. -/
theorem abs_value_le_two_pow {y : Binary64} {x : ℚ} {k : Nat} (h : y.IsNearest x) (hk : k ≤ 1023)
    (hle : |x| ≤ 2 ^ k) : y.isFinite = true ∧ |y.value| ≤ 2 ^ k := by
  have hone : (0 : ℚ) < FloatFormat.double.one := Nat.cast_pos.mpr (twoPow_pos _)
  obtain ⟨code, hcode, hunits⟩ := FloatFormat.exists_units_eq_two_pow hk
  rw [← BinaryFloat.signed_abs x] at h
  have hle' : y.code ≤ code := by
    refine (h.code (abs_nonneg x)).ge_of_le_units hcode.le ?_
    rw [hunits]
    exact mul_le_mul_of_nonneg_right hle hone.le
  refine ⟨decide_eq_true (hle'.trans_lt hcode), ?_⟩
  rw [y.abs_value, div_le_iff₀ hone, ← hunits]
  exact FloatFormat.cast_units_le hle'

/-- Rounding does not take a number below a power of two. -/
theorem two_pow_le_abs_value {y : Binary64} {x : ℚ} {k : Nat} (h : y.IsNearest x) (hk : k ≤ 1023)
    (hle : 2 ^ k ≤ |x|) : 2 ^ k ≤ |y.value| := by
  have hone : (0 : ℚ) < FloatFormat.double.one := Nat.cast_pos.mpr (twoPow_pos _)
  obtain ⟨code, hcode, hunits⟩ := FloatFormat.exists_units_eq_two_pow hk
  rw [← BinaryFloat.signed_abs x] at h
  have hle' : code ≤ y.code := by
    refine (h.code (abs_nonneg x)).le_of_units_le hcode.le ?_
    rw [hunits]
    exact mul_le_mul_of_nonneg_right hle hone.le
  rw [y.abs_value, le_div_iff₀ hone, ← hunits]
  exact FloatFormat.cast_units_le hle'

/-! ### The decimal on display -/

/-- The decimal on display is read back as the double it was made of. -/
theorem ofDecimal_decimal {x : Binary64} (h : x.isNaN = false) :
    BinaryFloat.ofDecimal x.negative x.decimal = x := by
  obtain ⟨negative, code, hlt⟩ := x
  have hcode : FloatFormat.double.ofDecimal (FloatFormat.double.shortest .up code) = code :=
    FloatFormat.ofDecimal_shortest (by decide) .up ((BinaryFloat.isNaN_eq_false_iff _).mp h)
  simp only [BinaryFloat.ofDecimal, BinaryFloat.ofCode, decimal, hcode]

/-- A double is the nearest one to its decimal on display. -/
theorem isNearest_decimal {x : Binary64} (h : x.isNaN = false) :
    x.IsNearest (signed x.negative x.decimal.value) := by
  have hnear := BinaryFloat.isNearest_ofDecimal (f := .double) (by decide) x.negative x.decimal
  rw [ofDecimal_decimal h] at hnear
  exact hnear

/-- What is on display of a double with a fraction is as small as the double. -/
theorem value_decimal_lt_of_fractional {x : Binary64} (hnan : x.isNaN = false)
    (h : ∀ n : Int, x.value ≠ n) : x.decimal.value < 2 ^ 53 := by
  by_contra hge
  have hdecimal : 2 ^ 53 ≤ |signed x.negative x.decimal.value| := by
    rw [abs_signed, abs_of_nonneg x.decimal.value_nonneg]
    exact not_lt.mp hge
  have hle := two_pow_le_abs_value (isNearest_decimal hnan) (by decide) hdecimal
  exact absurd (BinaryFloat.abs_value_lt_of_fractional h) (not_lt.mpr hle)

end Binary64

end TenantSql
