import Mathlib.Data.Nat.Cast.Order.Field
import Mathlib.Data.Rat.Floor
import TenantSql.Proofs.ReadBack
/-!
# TenantSql.Proofs.ShortestDecimal

The shortest decimal has the fewest digits behind the point.

The search for it goes from a coarse grid of decimals to finer ones and stops at the
first hit, so three things make it complete. No decimal above the first grid is read
back (`exponent_le_of_reads`). A grid on which any decimal is read back has a hit among
the two neighbours of the number, as what lies between two decimals of one code has this
code too (`onGrid?_ne_none_of_reads`). And the search does not run out of grids: the
numbers of a format stand so far apart that some multiple of the seventeenth digit is
read back (`exists_reads_of_seventeen_digits`).

Together they give `exponent_le_exponent_shortest`: whatever decimal is read back as a
number, its last digit stands no higher than that of the shortest one. So nothing but a
whole number is displayed of a whole double (`Binary64.exists_value_decimal_eq`).
-/

namespace TenantSql

namespace FloatFormat

variable {f : FloatFormat}

/-! ### Rounding keeps the order -/

/-- What is at least as near to `b` as to the smaller `a` is not below the middle. -/
theorem add_le_of_abs_sub_le {x a b : ℚ} (hab : a < b) (h : |x - b| ≤ |x - a|) :
    a + b ≤ 2 * x := by
  rcases abs_cases (x - a) with ⟨ha, _⟩ | ⟨ha, _⟩ <;>
    rcases abs_cases (x - b) with ⟨hb, _⟩ | ⟨hb, _⟩ <;> linarith

theorem le_add_of_abs_sub_le {x a b : ℚ} (hab : a < b) (h : |x - a| ≤ |x - b|) :
    2 * x ≤ a + b := by
  rcases abs_cases (x - a) with ⟨ha, _⟩ | ⟨ha, _⟩ <;>
    rcases abs_cases (x - b) with ⟨hb, _⟩ | ⟨hb, _⟩ <;> linarith

/-- Of two numbers the greater one has no lower nearest code. -/
theorem IsNearest.mono {x y : ℚ} {code other : Nat} (hxy : x ≤ y) (hx : f.IsNearest x code)
    (hy : f.IsNearest y other) : code ≤ other := by
  by_contra hlt
  have hunits : (f.units other : ℚ) < f.units code := cast_units_lt (Nat.not_le.mp hlt)
  have hlow := add_le_of_abs_sub_le hunits (hx.2 other hy.1).1
  have hhigh := le_add_of_abs_sub_le hunits (hy.2 code hx.1).1
  -- Both are in the middle, so they are one number and it has one nearest code.
  obtain rfl : x = y := by linarith
  exact hlt (hx.unique hy).le

/-- What lies between a number and a decimal that is read back as its code is read back too. -/
theorem reads_of_between {code : Nat} {d e : Decimal} (hf : 0 < f.fractionBits)
    (hcode : code ≤ f.infinityCode) (he : f.ofDecimal e = code)
    (h : e.value ≤ d.value ∧ d.value * f.one ≤ f.units code ∨
      f.units code ≤ d.value * f.one ∧ d.value ≤ e.value) : f.ofDecimal d = code := by
  have hone : (0 : ℚ) ≤ f.one := Nat.cast_nonneg _
  have hd := isNearest_ofDecimal hf d
  have he' := isNearest_ofDecimal hf e
  rw [he] at he'
  rcases h with ⟨hle, hle'⟩ | ⟨hle, hle'⟩
  · exact le_antisymm (hd.mono hle' (isNearest_units hcode))
      (he'.mono (mul_le_mul_of_nonneg_right hle hone) hd)
  · exact le_antisymm (hd.mono (mul_le_mul_of_nonneg_right hle' hone) he')
      ((isNearest_units hcode).mono hle hd)

/-! ### The numbers of a format stand apart -/

/-- A number and the next one, by the place of the last digit of the first. -/
theorem exists_units_succ_eq (code : Nat) : ∃ s m, m < 2 * twoPow f.fractionBits ∧
    f.units code = m * twoPow s ∧ f.units (code + 1) = (m + 1) * twoPow s := by
  obtain ⟨s, m, rfl, hs, hm⟩ := f.exists_code_eq code
  refine ⟨s, m, hm, f.units_eq hs hm.le, ?_⟩
  rw [Nat.add_assoc, f.units_eq (hs.imp_right Nat.le_succ_of_le) hm]

theorem units_pos {code : Nat} (h0 : code ≠ 0) : 0 < f.units code := by
  have hlt := f.units_strictMono (Nat.pos_of_ne_zero h0)
  rwa [units_zero] at hlt

theorem units_succ_le_two_mul {code : Nat} (h0 : code ≠ 0) :
    f.units (code + 1) ≤ 2 * f.units code := by
  obtain ⟨s, m, -, hunits, hnext⟩ := f.exists_units_succ_eq code
  have hpos := f.units_pos h0
  rw [hunits] at hpos ⊢
  have hm : 0 < m := Nat.pos_of_mul_pos_right hpos
  rw [hnext, ← Nat.mul_assoc]
  exact Nat.mul_le_mul_right _ (by omega)

/-- The gap below a number is at least its share of `2 ^ -(fractionBits + 1)`. -/
theorem units_succ_div_le (code : Nat) :
    (f.units (code + 1) : ℚ) / 2 ^ (f.fractionBits + 1) ≤ f.units (code + 1) - f.units code := by
  obtain ⟨s, m, hm, hunits, hnext⟩ := f.exists_units_succ_eq code
  have hm' : ((m : ℚ) + 1) ≤ 2 ^ (f.fractionBits + 1) := by
    rw [pow_succ', ← cast_twoPow]
    exact_mod_cast hm
  have hs : (0 : ℚ) ≤ 2 ^ s := by positivity
  rw [hunits, hnext, div_le_iff₀ (by positivity)]
  push_cast [cast_twoPow]
  nlinarith

theorem units_div_le_abs_sub {code other : Nat} (h : other ≠ code) :
    (f.units code : ℚ) / 2 ^ (f.fractionBits + 1) ≤ |(f.units code : ℚ) - f.units other| := by
  rcases Nat.lt_or_gt_of_ne h with hlt | hgt
  · obtain ⟨below, rfl⟩ := Nat.exists_eq_succ_of_ne_zero (Nat.ne_zero_of_lt hlt)
    have hle : (f.units other : ℚ) ≤ f.units below := cast_units_le (Nat.lt_succ_iff.mp hlt)
    exact (units_succ_div_le below).trans ((sub_le_sub_left hle _).trans (le_abs_self _))
  · have hle : (f.units (code + 1) : ℚ) ≤ f.units other := cast_units_le hgt
    have hlt : (f.units code : ℚ) < f.units (code + 1) := cast_units_lt (Nat.lt_succ_self code)
    have hshare : (f.units code : ℚ) / 2 ^ (f.fractionBits + 1) ≤
        f.units (code + 1) / 2 ^ (f.fractionBits + 1) := by gcongr
    rw [abs_sub_comm]
    exact hshare.trans ((units_succ_div_le code).trans
      ((sub_le_sub_right hle _).trans (le_abs_self _)))

/-- What is that much nearer than half a gap to a number is rounded to it. -/
theorem isNearest_of_abs_sub_lt {x : ℚ} {code : Nat} (hcode : code ≤ f.infinityCode)
    (h : |x - f.units code| < f.units code / 2 ^ (f.fractionBits + 1) / 2) :
    f.IsNearest x code := by
  refine ⟨hcode, fun other _ => ?_⟩
  by_cases hother : other = code
  · rw [hother]
    exact ⟨le_rfl, fun _ => .inl rfl⟩
  · have hgap : (f.units code : ℚ) / 2 ^ (f.fractionBits + 1) ≤
        |(f.units code : ℚ) - f.units other| := units_div_le_abs_sub hother
    have htriangle := abs_sub_le (f.units code : ℚ) x (f.units other)
    rw [abs_sub_comm _ x] at htriangle
    have hlt : |x - f.units code| < |x - f.units other| := by linarith
    exact ⟨hlt.le, fun heq => absurd heq hlt.ne⟩

/-! ### Neighbours on a grid -/

/-- The multiple of `10 ^ k` at the number or below it, in steps of the grid. -/
def gridBelow (f : FloatFormat) (code : Nat) (k : Int) : Nat :=
  f.units code * tenPow (-k).toNat / (f.one * tenPow k.toNat)

/-- A grid has no hit exactly if neither neighbour is read back. -/
theorem onGrid?_eq_none_iff {tie : Tie} {code : Nat} {k : Int} :
    f.onGrid? tie code k = none ↔
      f.ofDecimal ⟨f.gridBelow code k, k⟩ ≠ code ∧
        f.ofDecimal ⟨f.gridBelow code k + 1, k⟩ ≠ code := by
  unfold onGrid? gridBelow
  dsimp only
  split <;> simp_all

/-- A number in steps of a grid. -/
theorem steps_eq (code : Nat) (k : Int) :
    ((f.units code * tenPow (-k).toNat : ℕ) : ℚ) / (f.one * tenPow k.toNat : ℕ) * 10 ^ k * f.one =
      f.units code := by
  have hone : (f.one : ℚ) ≠ 0 := Nat.cast_ne_zero.mpr (twoPow_pos _).ne'
  have hpow : (10 : ℚ) ^ (-k).toNat * 10 ^ k = 10 ^ k.toNat := by
    rw [← zpow_natCast, ← zpow_natCast, ← zpow_add₀ (by norm_num)]
    congr 1
    omega
  have hten : (10 : ℚ) ^ k.toNat ≠ 0 := pow_ne_zero _ (by norm_num)
  rw [Nat.cast_mul, Nat.cast_mul, cast_tenPow, cast_tenPow, div_mul_eq_mul_div,
    mul_assoc _ _ (10 ^ k), hpow]
  field_simp

theorem gridBelow_le (code : Nat) (k : Int) :
    (f.gridBelow code k : ℚ) * 10 ^ k * f.one ≤ f.units code := by
  rw [← steps_eq code k, gridBelow]
  have hstep : (0 : ℚ) ≤ 10 ^ k := zpow_nonneg (by norm_num) k
  gcongr
  exact Nat.cast_div_le

theorem lt_gridBelow_succ (code : Nat) (k : Int) :
    (f.units code : ℚ) < (f.gridBelow code k + 1 : ℕ) * 10 ^ k * f.one := by
  have hone : (0 : ℚ) < f.one := Nat.cast_pos.mpr (twoPow_pos _)
  have hstep : (0 : ℚ) < 10 ^ k := zpow_pos (by norm_num) k
  have hden : 0 < f.one * tenPow k.toNat := Nat.mul_pos (twoPow_pos _) (tenPow_pos _)
  rw [← steps_eq code k, gridBelow]
  gcongr
  rw [div_lt_iff₀ (Nat.cast_pos.mpr hden)]
  exact_mod_cast Nat.lt_mul_of_div_lt (Nat.lt_succ_self _) hden

/-- If any decimal of a grid is read back, the grid has a hit. -/
theorem onGrid?_ne_none_of_reads {tie : Tie} {code : Nat} (hf : 0 < f.fractionBits)
    (hcode : code ≤ f.infinityCode) {e : Decimal} (he : f.ofDecimal e = code) :
    f.onGrid? tie code e.exponent ≠ none := by
  have hstep : (0 : ℚ) ≤ 10 ^ e.exponent := zpow_nonneg (by norm_num) _
  intro hnone
  obtain ⟨hbelow, habove⟩ := onGrid?_eq_none_iff.mp hnone
  -- The decimal is one of the two neighbours or lies beyond one of them.
  rcases Nat.lt_or_ge (f.gridBelow code e.exponent) e.coefficient with hlt | hge
  · refine habove (reads_of_between hf hcode he (.inr ⟨(lt_gridBelow_succ code _).le, ?_⟩))
    exact mul_le_mul_of_nonneg_right (Nat.cast_le.mpr hlt) hstep
  · refine hbelow (reads_of_between hf hcode he (.inl ⟨?_, gridBelow_le code _⟩))
    exact mul_le_mul_of_nonneg_right (Nat.cast_le.mpr hge) hstep

/-! ### The leading digit -/

theorem lt_length_natDigits_iff {e n : Nat} (hn : 0 < n) :
    e < (natDigits n).length ↔ 10 ^ e ≤ n := by
  rcases Nat.eq_zero_or_pos e with rfl | hpos
  · exact iff_of_true Nat.length_toDigits_pos hn
  · have hle : (natDigits n).length ≤ e ↔ n < 10 ^ e :=
      Nat.length_toDigits_le_iff (by decide) hpos
    rw [← Nat.not_le, hle, Nat.not_lt]

/-- The leading digit of a quotient counts the greatest power of ten that the quotient reaches. -/
theorem leadingExponent_bounds {num den : Nat} (hnum : 0 < num) (hden : 0 < den) :
    (10 : ℚ) ^ leadingExponent num den ≤ num / den ∧
      (num : ℚ) / den < 10 ^ (leadingExponent num den + 1) := by
  have hten : (10 : ℚ) ≠ 0 := by norm_num
  unfold leadingExponent
  dsimp only
  -- The shift makes a whole number of the quotient.
  obtain ⟨shift, hshift, hwhole⟩ : ∃ shift,
      (if den ≤ num then 0 else (natDigits (den / num)).length) = shift ∧
        den ≤ num * tenPow shift := by
    by_cases hle : den ≤ num
    · exact ⟨0, if_pos hle, hle.trans_eq (Nat.mul_one num).symm⟩
    · refine ⟨_, if_neg hle, ?_⟩
      have hquotient : 0 < den / num := Nat.div_pos (Nat.not_le.mp hle).le hnum
      have hlt : den / num < 10 ^ (natDigits (den / num)).length := by
        rw [← Nat.not_le, ← lt_length_natDigits_iff hquotient]
        exact lt_irrefl _
      exact (Nat.mul_comm num _ ▸ Nat.lt_mul_of_div_lt hlt hnum).le
  rw [hshift]
  have hpos : 0 < num * tenPow shift / den := Nat.div_pos hwhole hden
  obtain ⟨m, hm⟩ : ∃ m, (natDigits (num * tenPow shift / den)).length = m + 1 :=
    Nat.exists_eq_succ_of_ne_zero (Nat.pos_of_ne_zero Nat.length_toDigits_pos.ne').ne'
  have hlow : 10 ^ m ≤ num * tenPow shift / den :=
    (lt_length_natDigits_iff hpos).mp (by omega)
  have hhigh : num * tenPow shift / den < 10 ^ (m + 1) := by
    rw [← Nat.not_le, ← lt_length_natDigits_iff hpos]
    omega
  have hquotient : (num : ℚ) / den * 10 ^ shift = (num * tenPow shift : ℕ) / den := by
    rw [Nat.cast_mul, cast_tenPow, mul_div_right_comm]
  have hexponent : ((m + 1 : ℕ) : Int) - 1 - shift = m - shift := by omega
  have hnext : (m : Int) - shift + 1 = (m + 1 : ℕ) - shift := by omega
  rw [hm, hexponent, hnext, zpow_sub₀ hten, zpow_sub₀ hten, zpow_natCast, zpow_natCast,
    zpow_natCast, div_le_iff₀ (by positivity), lt_div_iff₀ (by positivity), hquotient,
    le_div_iff₀ (Nat.cast_pos.mpr hden), div_lt_iff₀ (Nat.cast_pos.mpr hden)]
  exact ⟨by exact_mod_cast (Nat.le_div_iff_mul_le hden).mp hlow,
    by exact_mod_cast (Nat.div_lt_iff_lt_mul hden).mp hhigh⟩

/-- The bounds of the leading digit of a number, in units. -/
theorem units_bounds {code : Nat} (h0 : code ≠ 0) :
    (10 : ℚ) ^ leadingExponent (f.units code) f.one * f.one ≤ f.units code ∧
      (f.units code : ℚ) < 10 ^ (leadingExponent (f.units code) f.one + 1) * f.one := by
  have hone : 0 < f.one := twoPow_pos _
  obtain ⟨hlow, hhigh⟩ := leadingExponent_bounds (units_pos h0) hone
  rw [le_div_iff₀ (Nat.cast_pos.mpr hone)] at hlow
  rw [div_lt_iff₀ (Nat.cast_pos.mpr hone)] at hhigh
  exact ⟨hlow, hhigh⟩

/-! ### Seventeen digits -/

/-- Some natural number is no farther than a half. -/
theorem exists_nat_abs_sub_le {a : ℚ} (ha : 0 ≤ a) : ∃ c : ℕ, |(c : ℚ) - a| ≤ 1 / 2 := by
  have hle := Nat.floor_le (by linarith : 0 ≤ a + 1 / 2)
  have hlt := Nat.lt_floor_add_one (a + 1 / 2)
  exact ⟨⌊a + 1 / 2⌋₊, abs_le.mpr ⟨by linarith, by linarith⟩⟩

/-- The nearest multiple of the seventeenth digit is read back. -/
theorem exists_reads_of_seventeen_digits (hf : 0 < f.fractionBits)
    (hdigits : 2 ^ (f.fractionBits + 1) < 10 ^ 16) {code : Nat} (h0 : code ≠ 0)
    (hcode : code ≤ f.infinityCode) :
    ∃ c, f.ofDecimal ⟨c, leadingExponent (f.units code) f.one - 16⟩ = code := by
  obtain ⟨hlow, -⟩ := f.units_bounds h0
  have hunits : (0 : ℚ) < f.units code := Nat.cast_pos.mpr (units_pos h0)
  have hone : (0 : ℚ) < f.one := Nat.cast_pos.mpr (twoPow_pos _)
  have hlead : (10 : ℚ) ^ leadingExponent (f.units code) f.one =
      10 ^ (leadingExponent (f.units code) f.one - 16) * 10 ^ 16 := by
    rw [← zpow_natCast, ← zpow_add₀ (by norm_num)]
    congr 1
    omega
  rw [hlead] at hlow
  generalize leadingExponent (f.units code) f.one - 16 = k at hlow
  have hstep : (0 : ℚ) < 10 ^ k * f.one := mul_pos (zpow_pos (by norm_num) k) hone
  obtain ⟨c, hc⟩ := exists_nat_abs_sub_le (div_nonneg hunits.le hstep.le)
  refine ⟨c, (isNearest_ofDecimal hf ⟨c, k⟩).unique (isNearest_of_abs_sub_lt hcode ?_)⟩
  -- Half a step of the grid is less than half of any gap at the number.
  have hdistance : |(c : ℚ) * 10 ^ k * f.one - f.units code| ≤ 10 ^ k * f.one / 2 := by
    have heq : (c : ℚ) * 10 ^ k * f.one - f.units code =
        (c - f.units code / (10 ^ k * f.one)) * (10 ^ k * f.one) := by
      field_simp
    rw [heq, abs_mul, abs_of_pos hstep]
    nlinarith
  have hshare : (f.units code : ℚ) / 10 ^ 16 < f.units code / 2 ^ (f.fractionBits + 1) :=
    div_lt_div_of_pos_left hunits (by positivity) (by exact_mod_cast hdigits)
  have hgrid : 10 ^ k * f.one ≤ (f.units code : ℚ) / 10 ^ 16 := by
    rw [le_div_iff₀ (by positivity)]
    linarith
  rw [Decimal.value]
  linarith

/-! ### No decimal is coarser -/

/-- A decimal that is read back is no multiple of a power of ten far above the number. -/
theorem exponent_le_of_reads (hf : 0 < f.fractionBits) {code : Nat} (h0 : code ≠ 0)
    (hcode : code < f.infinityCode) {e : Decimal} (he : f.ofDecimal e = code) :
    e.exponent ≤ leadingExponent (f.units code) f.one + 1 := by
  obtain ⟨-, hhigh⟩ := f.units_bounds h0
  have hone : (0 : ℚ) < f.one := Nat.cast_pos.mpr (twoPow_pos _)
  have hcoefficient : e.coefficient ≠ 0 := by
    intro hzero
    rw [ofDecimal, if_pos hzero] at he
    exact h0 he.symm
  by_contra hlt
  have hpow : (10 : ℚ) ^ (leadingExponent (f.units code) f.one + 1) * 10 ≤ 10 ^ e.exponent := by
    rw [← zpow_add_one₀ (by norm_num)]
    exact zpow_le_zpow_right₀ (by norm_num) (by omega)
  have hvalue : (10 : ℚ) ^ e.exponent ≤ e.value :=
    le_mul_of_one_le_left (zpow_nonneg (by norm_num) _)
      (Nat.one_le_cast.mpr (Nat.pos_of_ne_zero hcoefficient))
  have hfar : 10 * (f.units code : ℚ) ≤ e.value * f.one := by nlinarith
  -- The next number is at most twice this one, and the decimal is beyond it.
  have hnext : (f.units (code + 1) : ℚ) ≤ e.value * f.one := by
    have hdouble : (f.units (code + 1) : ℚ) ≤ 2 * f.units code := by
      exact_mod_cast f.units_succ_le_two_mul h0
    have hunits : (0 : ℚ) ≤ f.units code := Nat.cast_nonneg _
    linarith
  have hle := (isNearest_ofDecimal hf e).le_of_units_le hcode hnext
  rw [he] at hle
  omega

/-- The search ends at the first grid with a hit, or behind the last one. -/
theorem shortestFrom_cases (tie : Tie) (code : Nat) (k : Int) (fuel : Nat) :
    (∃ j ≤ k, f.onGrid? tie code j = some (f.shortestFrom tie code k fuel) ∧
      ∀ i, j < i → i ≤ k → f.onGrid? tie code i = none) ∨
    ∀ i, k - fuel < i → i ≤ k → f.onGrid? tie code i = none := by
  induction fuel generalizing k with
  | zero => exact .inr fun i hlow hhigh => by omega
  | succ fuel ih =>
    rw [shortestFrom]
    cases hgrid : f.onGrid? tie code k with
    | some d => exact .inl ⟨k, le_rfl, by rw [hgrid]; rfl, fun i hlow hhigh => by omega⟩
    | none =>
      have hfirst : ∀ i, (i ≤ k - 1 → f.onGrid? tie code i = none) → i ≤ k →
          f.onGrid? tie code i = none := by
        intro i hi hle
        by_cases heq : i = k
        · rw [heq, hgrid]
        · exact hi (by omega)
      rcases ih (k - 1) with ⟨j, hj, hhit, hnone⟩ | hnone
      · exact .inl ⟨j, by omega, hhit, fun i hlow => hfirst i (hnone i hlow)⟩
      · exact .inr fun i hlow => hfirst i (hnone i (by omega))

/-- The shortest decimal is a hit on its grid, and no coarser grid has one. -/
theorem onGrid?_shortest (tie : Tie) (hf : 0 < f.fractionBits)
    (hdigits : 2 ^ (f.fractionBits + 1) < 10 ^ 16) {code : Nat} (h0 : code ≠ 0)
    (hcode : code ≤ f.infinityCode) :
    f.onGrid? tie code (f.shortest tie code).exponent = some (f.shortest tie code) ∧
      ∀ i, (f.shortest tie code).exponent < i →
        i ≤ leadingExponent (f.units code) f.one + 1 → f.onGrid? tie code i = none := by
  obtain ⟨c, hc⟩ := exists_reads_of_seventeen_digits hf hdigits h0 hcode
  have hhit : f.onGrid? tie code _ ≠ none := onGrid?_ne_none_of_reads hf hcode hc
  rw [shortest, if_neg (units_pos h0).ne']
  rcases f.shortestFrom_cases tie code (leadingExponent (f.units code) f.one + 1) 18 with
    ⟨j, -, hj, hnone⟩ | hnone
  · rw [exponent_of_onGrid? hj]
    exact ⟨hj, hnone⟩
  · exact absurd (hnone _ (by dsimp only; omega) (by dsimp only; omega)) hhit

/-- Whatever decimal is read back as a number, its last digit stands no higher than that of the
shortest one. -/
theorem exponent_le_exponent_shortest (tie : Tie) (hf : 0 < f.fractionBits)
    (hdigits : 2 ^ (f.fractionBits + 1) < 10 ^ 16) {code : Nat} (h0 : code ≠ 0)
    (hcode : code < f.infinityCode) {e : Decimal} (he : f.ofDecimal e = code) :
    e.exponent ≤ (f.shortest tie code).exponent := by
  by_contra hlt
  obtain ⟨-, hnone⟩ := onGrid?_shortest tie hf hdigits h0 hcode.le
  exact onGrid?_ne_none_of_reads hf hcode.le he
    (hnone _ (not_le.mp hlt) (exponent_le_of_reads hf h0 hcode he))

end FloatFormat

/-! ### Whole numbers -/

theorem Decimal.value_eq_num {d : Decimal} (h : 0 ≤ d.exponent) : d.value = d.num := by
  have hden : d.den = 1 := by
    rw [den, Int.toNat_of_nonpos (by omega)]
    rfl
  rw [← d.num_div_den, hden, Nat.cast_one, div_one]

theorem Decimal.value_of_exponent_zero (n : Nat) : Decimal.value ⟨n, 0⟩ = n := by
  simp [Decimal.value]

theorem BinaryFloat.units_eq_of_value_eq {f : FloatFormat} {x : BinaryFloat f} {n : Int}
    (h : x.value = n) : f.units x.code = n.natAbs * f.one := by
  have hone : (f.one : ℚ) ≠ 0 := Nat.cast_ne_zero.mpr (twoPow_pos _).ne'
  have habs := x.abs_value
  rw [h, ← Int.cast_abs, ← Nat.cast_natAbs, eq_div_iff hone, BinaryFloat.units] at habs
  exact_mod_cast habs.symm

theorem BinaryFloat.value_eq_signed_natAbs {f : FloatFormat} {x : BinaryFloat f} {n : Int}
    (h : x.value = n) : x.value = signed x.negative n.natAbs := by
  have hone : (f.one : ℚ) ≠ 0 := Nat.cast_ne_zero.mpr (twoPow_pos _).ne'
  rw [value, units, units_eq_of_value_eq h, Nat.cast_mul, mul_div_cancel_right₀ _ hone]

namespace Binary64

theorem decimal_of_code_eq_zero {x : Binary64} (h : x.code = 0) : x.decimal = ⟨0, 0⟩ := by
  rw [decimal, h]
  decide

/-- Whatever decimal is read back as a double, it has no fewer digits behind the point than the
shortest one. -/
theorem places_decimal_le {x : Binary64} (hx : x.isFinite = true) {e : Decimal}
    (he : FloatFormat.double.ofDecimal e = x.code) : x.decimal.places ≤ e.places := by
  by_cases h0 : x.code = 0
  · rw [decimal_of_code_eq_zero h0]
    exact Nat.zero_le _
  · have hle : e.exponent ≤ x.decimal.exponent :=
      FloatFormat.exponent_le_exponent_shortest .up (by decide) (by decide) h0
        (of_decide_eq_true hx) he
    unfold Decimal.places
    omega

/-- A whole double is read from a decimal without digits behind the point, so its shortest decimal
has none either. -/
theorem exponent_decimal_nonneg {x : Binary64} (hx : x.isFinite = true) {n : Int}
    (hn : x.value = n) : 0 ≤ x.decimal.exponent := by
  have hreads : FloatFormat.double.ofDecimal ⟨n.natAbs, 0⟩ = x.code := by
    refine FloatFormat.ofDecimal_of_value_eq (by decide) (of_decide_eq_true hx).le ?_
    rw [Decimal.value_of_exponent_zero, BinaryFloat.units_eq_of_value_eq hn, Nat.cast_mul]
  have hplaces : x.decimal.places ≤ 0 := places_decimal_le hx hreads
  unfold Decimal.places at hplaces
  omega

/-- What is on display of a whole double is a whole number. -/
theorem exists_value_decimal_eq {x : Binary64} (hx : x.isFinite = true) {n : Int}
    (hn : x.value = n) : ∃ m : Nat, x.decimal.value = m :=
  ⟨_, Decimal.value_eq_num (exponent_decimal_nonneg hx hn)⟩

/-- What is on display of a large double is a whole number. -/
theorem exists_value_decimal_eq_of_large {x : Binary64} (hx : x.isFinite = true)
    (h : 2 ^ 63 ≤ |x.value|) : ∃ m : Nat, x.decimal.value = m := by
  obtain ⟨n, hn⟩ : ∃ n : Int, x.value = n := by
    by_contra hfraction
    have hlt := BinaryFloat.abs_value_lt_of_fractional (not_exists.mp hfraction)
    have hpow : (2 : ℚ) ^ (FloatFormat.double.fractionBits + 1) < 2 ^ 63 :=
      pow_lt_pow_right₀ (by norm_num) (by decide)
    linarith
  exact exists_value_decimal_eq hx hn

end Binary64

end TenantSql
