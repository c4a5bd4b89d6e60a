import TenantSql.Proofs.NumericCast
/-!
# TenantSql.Proofs.Fraction

Which numbers count as fractions.

A double has a fraction if anything but zero is left of it behind its whole part
(`Value.isFractional_float`). For a finite one that is so exactly if it is no integer, and a
double that is none is small enough to be stored as a decimal
(`Value.fractional_iff_not_whole`). Of an infinity, and of what is no number, something is left
that is no number either. That differs from zero, so these count as fractions, and they have no
stored form (`Value.bind_of_not_finite`).
-/

namespace TenantSql

namespace FloatFormat

/-- Only zero is rounded to zero, among whole numbers of units. -/
theorem nearest_eq_zero_iff {f : FloatFormat} (hf : 0 < f.infinityCode) (num : Nat) :
    f.nearest num 1 = 0 ↔ num = 0 := by
  have hround : roundHalfEven num 1 = num := by simp [roundHalfEven, Nat.mod_one]
  have hfraction : 0 < twoPow f.fractionBits := twoPow_pos _
  unfold nearest
  dsimp only
  rw [Nat.div_one, Nat.one_mul]
  cases hshift : num.log2 - f.fractionBits with
  | zero =>
    have hone : twoPow 0 = 1 := rfl
    rw [hone, hround, Nat.zero_mul, Nat.zero_add]
    omega
  | succ shift =>
    -- A number that is shifted has more digits than a fraction, so it is not zero either.
    have hcode : 0 < (shift + 1) * twoPow f.fractionBits := Nat.mul_pos shift.succ_pos hfraction
    have hnum : num ≠ 0 := by
      intro hzero
      simp [hzero] at hshift
    omega

end FloatFormat

namespace Binary64

/-- What is left of a number behind its whole part, rounded to a double. An infinity less itself is
no number. -/
def fraction (x : Binary64) : Binary64 :=
  if x.isFinite then
    let rest := x.units % FloatFormat.double.one
    .ofCode (x.negative && rest != 0) (FloatFormat.double.nearest rest 1)
      (FloatFormat.double.nearest_le rest 1)
  else .nan false

/-- The zeros are the doubles of code zero. -/
theorem beq_zero (x : Binary64) : (x == .ofInt 0) = (x.code == 0) := by
  have hcode : (BinaryFloat.ofInt 0 : Binary64).code = 0 := by decide +kernel
  have hnan : (BinaryFloat.ofInt 0 : Binary64).isNaN = false := by decide +kernel
  show x.numericEq (.ofInt 0) = (x.code == 0)
  rw [BinaryFloat.numericEq, hcode, hnan]
  cases hzero : x.code == 0 with
  | false => simp
  | true =>
    have hx : x.isNaN = false := by simp_all [BinaryFloat.isNaN]
    simp [hx]

theorem fraction_beq_zero {x : Binary64} (hx : x.isFinite = true) :
    (x.fraction == .ofInt 0) = (x.units % FloatFormat.double.one == 0) := by
  have hcode : x.fraction.code =
      FloatFormat.double.nearest (x.units % FloatFormat.double.one) 1 := by
    rw [fraction, if_pos hx]
    rfl
  rw [beq_zero, hcode, Bool.eq_iff_iff, beq_iff_eq, beq_iff_eq]
  exact FloatFormat.nearest_eq_zero_iff (by decide) _

theorem fraction_bne_zero_of_not_finite {x : Binary64} (hx : x.isFinite = false) :
    (x.fraction != .ofInt 0) = true := by
  have hnan : x.fraction = .nan false := if_neg (by simp [hx])
  rw [hnan, bne, beq_zero]
  decide

end Binary64

namespace Value

/-- A double counts as a fraction if what is left behind its whole part is not equal to zero. -/
theorem isFractional_float (x : Binary64) :
    (float x).isFractional = (x.fraction != .ofInt 0) := by
  show x.toInt?.isNone = _
  unfold BinaryFloat.toInt?
  cases hx : x.isFinite with
  | false =>
    rw [Binary64.fraction_bne_zero_of_not_finite hx]
    rfl
  | true =>
    rw [bne, Binary64.fraction_beq_zero hx]
    cases x.units % FloatFormat.double.one == 0 <;> rfl

/-- A value that is no double counts as no fraction. -/
theorem exists_float_of_isFractional {v : Value} (h : v.isFractional = true) :
    ∃ x, v = .float x := by
  cases v with
  | float x => exact ⟨x, rfl⟩
  | _ => simp [isFractional] at h

/-- An infinity, or what is no number, counts as a fraction and has no stored form. -/
theorem bind_of_not_finite {x : Binary64} (hx : x.isFinite = false) :
    (float x).isFractional = true ∧ (float x).number? = none ∧
      (float x).bind (.builtin .numeric) = .error .notADecimal := by
  refine ⟨?_, ?_, ?_⟩
  · rw [isFractional_float]
    exact Binary64.fraction_bne_zero_of_not_finite hx
  · simp [number?, hx]
  · simp [bind, bindFloat, bindNumeric, hx, Except.map]

end Value

/-- **A fraction is a number that is no integer.** A value that is neither infinite nor a double that
is no number counts as a fraction exactly if it is a number, and no integer. For a double, of
whatever bits, this is told by what is left of it behind its whole part, compared with zero. All that
counts as a fraction can be bound to `numeric`. -/
theorem Value.fractional_iff_not_whole {v : Value}
    (hv : ∀ x, v = .float x → x.isFinite = true) :
    (v.isFractional = true ↔ ∃ q, v.number? = some q ∧ ∀ n : Int, q ≠ n) ∧
    (∀ x, v = .float x → v.isFractional = (x.fraction != .ofInt 0)) ∧
    (v.isFractional = true → ∃ word, v.bind (.builtin .numeric) = .ok (some word)) := by
  have hfraction : v.isFractional = true ↔ ∃ q, v.number? = some q ∧ ∀ n : Int, q ≠ n := by
    constructor
    · intro h
      obtain ⟨x, rfl⟩ := exists_float_of_isFractional h
      have hnumber := number?_eq_some_iff.mpr (.inr ⟨x, rfl, hv x rfl, rfl⟩)
      exact ⟨x.value, hnumber, (isFractional_iff hnumber).mp h⟩
    · intro h
      obtain ⟨q, hq, hne⟩ := h
      exact (isFractional_iff hq).mpr hne
  refine ⟨hfraction, ?_, ?_⟩
  · intro x hx
    rw [hx]
    exact isFractional_float x
  · intro h
    obtain ⟨q, hq, hne⟩ := hfraction.mp h
    exact exists_bind_numeric hq hne

/-- The least double above zero, the greatest one that is no integer, a zero with a sign, and a whole
number of three hundred digits. -/
theorem Value.fractional_iff_not_whole_at_ends :
    (let v : Value := .float ⟨false, 1, by decide⟩
    (∃ q, v.number? = some q ∧ ∀ n : Int, q ≠ n) ∧
      ∃ word, v.bind (.builtin .numeric) = .ok (some word)) ∧
    (let v : Value := .float (.ofDecimal true ⟨45035996273704955, -1⟩)
    (∃ q, v.number? = some q ∧ ∀ n : Int, q ≠ n) ∧
      ∃ word, v.bind (.builtin .numeric) = .ok (some word)) ∧
    (¬∃ q, number? (.float (.ofDecimal true ⟨0, 0⟩)) = some q ∧ ∀ n : Int, q ≠ n) ∧
    ¬∃ q, number? (.float (.ofDecimal false ⟨1, 300⟩)) = some q ∧ ∀ n : Int, q ≠ n := by
  have hfinite : ∀ {x : Binary64}, x.isFinite = true →
      ∀ y, Value.float x = .float y → y.isFinite = true := by
    intro x hx y hy
    cases hy
    exact hx
  have hfraction : ∀ {x : Binary64}, x.isFinite = true → (float x).isFractional = true →
      (∃ q, (float x).number? = some q ∧ ∀ n : Int, q ≠ n) ∧
        ∃ word, (float x).bind (.builtin .numeric) = .ok (some word) := by
    intro x hx h
    obtain ⟨hiff, -, hbind⟩ := fractional_iff_not_whole (hfinite hx)
    exact ⟨hiff.mp h, hbind h⟩
  refine ⟨?_, ?_, ?_, ?_⟩
  · exact hfraction (by decide +kernel) (by decide +kernel)
  · exact hfraction (by decide +kernel) (by decide +kernel)
  · rw [← (fractional_iff_not_whole (hfinite (by decide +kernel))).1]
    decide +kernel
  · rw [← (fractional_iff_not_whole (hfinite (by decide +kernel))).1]
    decide +kernel

/-- Infinity is no number with a fraction, and counts as one. No column of decimals takes it. -/
theorem Value.infinity_isFractional :
    let v : Value := .float (.infinity false)
    v.isFractional = true ∧ v.number? = none ∧
      v.bind (.builtin .numeric) = .error .notADecimal :=
  bind_of_not_finite (by decide)

end TenantSql
