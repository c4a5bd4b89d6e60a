import TenantSql.Proofs.IntegerBinding
import TenantSql.Proofs.NumericColumn
/-!
# TenantSql.Proofs.WholeDoubles

A whole double in a column of integers and in a column of decimals.

The column of integers gets the number itself, and the column of decimals the number on
display, which is whole too (`Binary64.exists_value_numeral_eq`).

The two are one number as long as doubles stand no farther apart than two. A decimal that
ends in a zero is even, so it is a double itself there and is displayed for no other one
(`Binary64.value_decimal_of_lt`). From `2 ^ 54` on some doubles are displayed with fewer
digits than they have, and the columns get different numbers of them
(`Value.bind_whole_double_differs`).
-/

namespace TenantSql

namespace FloatFormat

variable {f : FloatFormat}

/-- A multiple of a power of two is a number of the format if the factor has no more digits than
the format, and one more at a carry. -/
theorem exists_units_eq (s : Nat) {q : Nat} (hq : q ≤ 2 * twoPow f.fractionBits) :
    ∃ code ≤ s * twoPow f.fractionBits + q, f.units code = q * twoPow s := by
  induction s generalizing q with
  | zero => exact ⟨_, le_rfl, f.units_eq (.inl rfl) hq⟩
  | succ s ih =>
    by_cases hge : twoPow f.fractionBits ≤ q
    · exact ⟨_, le_rfl, f.units_eq (.inr hge) hq⟩
    · obtain ⟨code, hle, hunits⟩ := ih (q := 2 * q) (by omega)
      refine ⟨code, ?_, ?_⟩
      · rw [Nat.succ_mul]
        omega
      · have htwo : twoPow 1 = 2 := rfl
        rw [hunits, twoPow_add, htwo]
        ring

/-- An even number is one of the format if its half has no more digits than the format. -/
theorem exists_units_eq_two_mul {q : Nat} (hq : q ≤ 2 * twoPow f.fractionBits) :
    ∃ code ≤ (f.unitExponent + 1) * twoPow f.fractionBits + q, f.units code = 2 * q * f.one := by
  obtain ⟨code, hle, hunits⟩ := f.exists_units_eq (f.unitExponent + 1) hq
  have hpow : twoPow (f.unitExponent + 1) = 2 * f.one := by
    rw [Nat.add_comm, twoPow_add]
    rfl
  refine ⟨code, hle, ?_⟩
  rw [hunits, hpow]
  ring

/-- A whole number is the hit on the grid of ones. -/
theorem onGrid?_of_units_eq (tie : Tie) (hf : 0 < f.fractionBits) {code n : Nat}
    (hcode : code ≤ f.infinityCode) (hn : f.units code = n * f.one) :
    f.onGrid? tie code 0 = some ⟨n, 0⟩ := by
  have hone : 0 < f.one := twoPow_pos _
  have hreads : f.ofDecimal ⟨n, 0⟩ = code := by
    refine ofDecimal_of_value_eq hf hcode ?_
    rw [Decimal.value_of_exponent_zero, hn, Nat.cast_mul]
  have hnum : f.units code * tenPow (-0 : Int).toNat = n * f.one := by
    rw [hn]
    exact Nat.mul_one _
  have hden : f.one * tenPow (0 : Int).toNat = f.one := Nat.mul_one _
  unfold onGrid?
  dsimp only
  rw [hnum, hden, Nat.mul_div_cancel _ hone, Nat.mul_mod_left, hreads]
  simp [hone]
  split <;> simp_all

end FloatFormat

/-- A multiple of ten is even. -/
theorem Decimal.exists_value_eq_two_mul {d : Decimal} (h : 0 < d.exponent) :
    ∃ q : Nat, d.value = (2 * q : ℕ) := by
  obtain ⟨k, hk⟩ : ∃ k, d.exponent.toNat = 1 + k := Nat.exists_eq_add_of_le (by omega)
  have hten : tenPow 1 = 2 * 5 := rfl
  refine ⟨d.coefficient * 5 * tenPow k, ?_⟩
  rw [Decimal.value_eq_num h.le, num, hk, tenPow_add, hten]
  congr 1
  ring

namespace Binary64

/-- On the grid of ones a whole double itself is the hit. -/
theorem decimal_eq_of_exponent_zero {x : Binary64} (hx : x.isFinite = true) {n : Int}
    (hn : x.value = n) (h0 : x.code ≠ 0) (hexponent : x.decimal.exponent = 0) :
    x.decimal = ⟨n.natAbs, 0⟩ := by
  have hcode : x.code < FloatFormat.double.infinityCode := of_decide_eq_true hx
  obtain ⟨hhit, -⟩ := FloatFormat.onGrid?_shortest .up (by decide) (by decide) h0 hcode.le
  rw [← decimal, hexponent, FloatFormat.onGrid?_of_units_eq .up (by decide) hcode.le
    (BinaryFloat.units_eq_of_value_eq hn)] at hhit
  exact (Option.some.inj hhit).symm

/-- An even number that is no greater than `2 ^ 54` is a double, so it is displayed for no other
one. -/
theorem units_eq_of_value_decimal_even {x : Binary64} (hx : x.isFinite = true) {q : Nat}
    (hq : x.decimal.value = (2 * q : ℕ)) (hsmall : q ≤ 2 * twoPow 52) :
    FloatFormat.double.units x.code = 2 * q * FloatFormat.double.one := by
  obtain ⟨code, hle, hunits⟩ := FloatFormat.double.exists_units_eq_two_mul hsmall
  have hfinite : code ≤ FloatFormat.double.infinityCode := by
    have hinfinity : FloatFormat.double.infinityCode = 2047 * twoPow 52 := by decide +kernel
    have hexponent : FloatFormat.double.unitExponent = 1074 := by decide +kernel
    have hbits : FloatFormat.double.fractionBits = 52 := rfl
    rw [hexponent, hbits] at hle
    omega
  have hreads : FloatFormat.double.ofDecimal x.decimal = code := by
    refine FloatFormat.ofDecimal_of_value_eq (by decide) hfinite ?_
    rw [hq, hunits, Nat.cast_mul (2 * q)]
  have hreads' : FloatFormat.double.ofDecimal x.decimal = x.code :=
    FloatFormat.ofDecimal_shortest (by decide) .up (of_decide_eq_true hx).le
  rw [← hreads', hreads, hunits]

/-- A whole double below `2 ^ 54` is displayed with all of its digits. -/
theorem value_decimal_of_lt {x : Binary64} (hx : x.isFinite = true) {n : Int} (hn : x.value = n)
    (hlt : |n| < 2 ^ 54) : x.decimal.value = n.natAbs := by
  have hone : 0 < FloatFormat.double.one := twoPow_pos _
  have hunits : FloatFormat.double.units x.code = n.natAbs * FloatFormat.double.one :=
    BinaryFloat.units_eq_of_value_eq hn
  by_cases h0 : x.code = 0
  · rw [h0, FloatFormat.units_zero] at hunits
    have hzero : n.natAbs = 0 := (Nat.mul_eq_zero.mp hunits.symm).resolve_right hone.ne'
    rw [decimal_of_code_eq_zero h0, hzero, Decimal.value_of_exponent_zero]
  rcases (exponent_decimal_nonneg hx hn).eq_or_lt with hgrid | hgrid
  · rw [decimal_eq_of_exponent_zero hx hn h0 hgrid.symm, Decimal.value_of_exponent_zero]
  · -- A decimal that ends with the tens or before is even, and it is no greater than the bound.
    obtain ⟨q, hq⟩ := Decimal.exists_value_eq_two_mul hgrid
    have hsmall : q ≤ 2 * twoPow 52 := by
      by_contra hlarge
      have htwo : 2 * twoPow 52 = 2 ^ 53 := by decide
      have hdecimal : 2 ^ 54 ≤ x.decimal.value := by
        have hle : 2 ^ 54 ≤ 2 * q := by omega
        rw [hq]
        exact_mod_cast hle
      have hle := two_pow_le_abs_value_of_decimal hx (by decide) hdecimal
      rw [hn, ← Int.cast_abs] at hle
      have hle' : 2 ^ 54 ≤ |n| := by exact_mod_cast hle
      omega
    rw [units_eq_of_value_decimal_even hx hq hsmall] at hunits
    rw [hq, Nat.eq_of_mul_eq_mul_right hone hunits]

/-- The number on display of a whole double is an integer, so it is stored as it is. Below `2 ^ 54`
it is the double. -/
theorem exists_value_numeral_eq {x : Binary64} (hx : x.isFinite = true) {n : Int}
    (hn : x.value = n) :
    ∃ m : Int, x.numeral.value = m ∧ Numeric.rounded x.numeral.value = m ∧ x.IsNearest m ∧
      (|n| < 2 ^ 54 → m = n) := by
  obtain ⟨k, hk⟩ := exists_value_decimal_eq hx hn
  obtain ⟨m, hm⟩ := exists_intCast_eq_signed x.negative k
  refine ⟨m, ?_, ?_, ?_, ?_⟩
  · rw [x.value_numeral, hk, hm]
  · rw [x.value_numeral, Numeric.rounded_signed _ x.decimal.value_nonneg,
      Numeric.rounded_of_eq_natCast hk, hk, hm]
  · rw [hm, ← hk]
    exact isNearest_decimal (BinaryFloat.isNaN_of_isFinite hx)
  · intro hlt
    rw [value_decimal_of_lt hx hn hlt, Nat.cast_inj] at hk
    rw [← hk, ← BinaryFloat.value_eq_signed_natAbs hn, hn, Int.cast_inj] at hm
    exact hm

end Binary64

namespace Value

/-- **A whole double in a column of integers and in a column of decimals.** The column of integers
gets the number itself, and the column of decimals the integer on display, of which the double is
the nearest one. Below `2 ^ 54` both columns get the same number. Left out is the double one above
the greatest 64-bit integer. -/
theorem bind_whole_double {x : Binary64} {small large : Option (List UInt8)}
    (hsmall : bind (.float x) (.builtin .int8) = .ok small)
    (hlarge : bind (.float x) (.builtin .numeric) = .ok large) (hx : x.value ≠ 2 ^ 63) :
    ∃ n m : Int,
      (∃ word, small = some word ∧ word.length = 8 ∧ ofTwosComplement word = n) ∧ x.value = n ∧
      (∃ word, large = some word ∧ Numeric.read? word = some (m : ℚ)) ∧
      (x.display = x.numeral.text ∧ x.numeral.value = m ∧ x.IsNearest m) ∧
      (|n| < 2 ^ 54 → m = n) := by
  obtain ⟨hfinite, -⟩ := bind_float_numeric_eq_ok_iff.mp hlarge
  obtain ⟨i, hi, hword⟩ := (bindsAs_float hfinite hx small).mp hsmall
  obtain ⟨m, hvalue, hrounded, hnear, hsame⟩ := Binary64.exists_value_numeral_eq hfinite hi
  obtain ⟨word, n, hword', hstored⟩ := stored_of_bind_float hlarge
  rw [hrounded] at hstored
  exact ⟨i.toInt, m, ⟨_, hword, length_twosComplement _ _, ofTwosComplement_int64 i⟩, hi,
    ⟨word, hword', hstored.read?_eq⟩, ⟨Binary64.display_eq hfinite, hvalue, hnear⟩, hsame⟩

/-- The double next to `-2 ^ 54`, which stands two above it. -/
theorem bind_whole_double_below_two_pow :
    let x : Binary64 := .ofInt (2 - 2 ^ 54)
    ∃ word word', bind (.float x) (.builtin .int8) = .ok (some word) ∧
      ofTwosComplement word = 2 - 2 ^ 54 ∧
      bind (.float x) (.builtin .numeric) = .ok (some word') ∧
      Numeric.read? word' = some (2 - 2 ^ 54) := by
  intro x
  have hint : integerOfFloat? x = some (2 - 2 ^ 54 : Int64).toInt := by decide +kernel
  have hvalue : x.value = ((2 - 2 ^ 54 : Int) : ℚ) :=
    ((x.toInt?_eq_some_iff _).mp (by decide +kernel)).2
  have hlarge : bind (.float x) (.builtin .numeric) =
      .ok (some (Numeric.bytes ⟨[1, 8014, 3985, 948, 1982], 4, true, 0⟩)) :=
    bind_float_numeric_eq_ok_iff.mpr ⟨by decide +kernel, _, by decide +kernel, rfl⟩
  obtain ⟨n, m, ⟨word, hword, -, hn⟩, hx, ⟨word', hword', hread⟩, -, hsame⟩ :=
    bind_whole_double (bind_float_int8 hint) hlarge (by rw [hvalue]; norm_num)
  rw [hvalue, Int.cast_inj] at hx
  rw [← hx] at hn hsame
  rw [hsame (by decide)] at hread
  exact ⟨word, word', by rw [bind_float_int8 hint, hword], hn, by rw [hlarge, hword'],
    by exact_mod_cast hread⟩

/-- Not all doubles from `2 ^ 54` on are displayed with all of their digits, and so the columns get
different numbers. -/
theorem bind_whole_double_differs :
    let x : Binary64 := .ofInt (2 ^ 54 + 8)
    x.value = (2 ^ 54 + 8 : Int) ∧
      (∃ word, bind (.float x) (.builtin .int8) = .ok (some word) ∧
        ofTwosComplement word = 2 ^ 54 + 8) ∧
      ∃ word, bind (.float x) (.builtin .numeric) = .ok (some word) ∧
        Numeric.read? word = some (2 ^ 54 + 6) := by
  intro x
  have hint : integerOfFloat? x = some (2 ^ 54 + 8 : Int64).toInt := by decide +kernel
  have hlarge : bind (.float x) (.builtin .numeric) =
      .ok (some (Numeric.bytes ⟨[1, 8014, 3985, 948, 1990], 4, false, 0⟩)) :=
    bind_float_numeric_eq_ok_iff.mpr ⟨by decide +kernel, _, by decide +kernel, rfl⟩
  refine ⟨((x.toInt?_eq_some_iff _).mp (by decide +kernel)).2,
    ⟨_, bind_float_int8 hint, by decide +kernel⟩, _, hlarge, ?_⟩
  rw [Numeric.read?, Numeric.ofBytes?_bytes ⟨by simp, by decide, by decide, by decide, by decide⟩]
  norm_num [Numeric.value, Numeric.magnitude, signed]

end Value

end TenantSql
