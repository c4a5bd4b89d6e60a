import Mathlib.Tactic.FieldSimp
import Mathlib.Tactic.Linarith
import Mathlib.Tactic.Positivity
import Mathlib.Tactic.Ring
import TenantSql.Number.Binary
/-!
# TenantSql.Proofs.Rounding

Decimals are rounded to the nearest number of a binary format, ties to even.

The codes of a format stand for growing magnitudes (`units_strictMono`), so a
magnitude lies between the numbers of two successive codes, and these are the only
ones that can be nearest to it (`isNearest_of_between`). Infinity takes part as the
number that its code would stand for if codes went on: a magnitude rounds to
infinity when that number is the nearest.
-/

namespace TenantSql

@[simp] theorem cast_twoPow (n : Nat) : ((twoPow n : Nat) : ℚ) = 2 ^ n := Nat.cast_pow 2 n

@[simp] theorem cast_tenPow (n : Nat) : ((tenPow n : Nat) : ℚ) = 10 ^ n := Nat.cast_pow 10 n

/-- The number that a decimal stands for. -/
def Decimal.value (d : Decimal) : ℚ := d.coefficient * 10 ^ d.exponent

theorem Decimal.num_div_den (d : Decimal) : (d.num : ℚ) / d.den = d.value := by
  obtain ⟨coefficient, exponent⟩ := d
  unfold num den value
  rw [Nat.cast_mul, cast_tenPow, cast_tenPow]
  cases exponent with
  | ofNat n =>
    have hden : (-Int.ofNat n).toNat = 0 := by simp
    rw [hden, pow_zero, div_one, Int.ofNat_eq_natCast, zpow_natCast]
    rfl
  | negSucc n =>
    have hden : (-Int.negSucc n).toNat = n + 1 := rfl
    rw [hden, zpow_negSucc, ← div_eq_mul_inv]
    simp

theorem Decimal.value_nonneg (d : Decimal) : 0 ≤ d.value := by
  exact mul_nonneg (Nat.cast_nonneg _) (zpow_nonneg (by norm_num) _)

namespace FloatFormat

variable (f : FloatFormat)

/-! ### Codes grow with their magnitudes -/

/-- A fraction `m` that starts `s` places above the unit has its leading one at the top, or stands
at the unit. A carry into the next power of two is allowed. -/
theorem units_eq {s m : Nat} (h : s = 0 ∨ twoPow f.fractionBits ≤ m)
    (hm : m ≤ 2 * twoPow f.fractionBits) :
    f.units (s * twoPow f.fractionBits + m) = m * twoPow s := by
  have hpos : 0 < twoPow f.fractionBits := twoPow_pos _
  unfold units
  generalize twoPow f.fractionBits = P at h hm hpos
  rcases Nat.lt_or_ge m P with hlt | hge
  · obtain rfl : s = 0 := h.resolve_right (Nat.not_le.mpr hlt)
    rw [Nat.zero_mul, Nat.zero_add]
    simp only [Nat.div_eq_of_lt hlt, if_true, Nat.mod_eq_of_lt hlt]
    exact (Nat.mul_one m).symm
  · rcases Nat.lt_or_eq_of_le hm with hlt | rfl
    · have hcode : s * P + m = (m - P) + P * (s + 1) := by
        rw [Nat.mul_add, Nat.mul_comm s P]
        omega
      have hfield : (s * P + m) / P = s + 1 := by
        rw [hcode, Nat.add_mul_div_left _ _ hpos, Nat.div_eq_of_lt (by omega), Nat.zero_add]
      have hfraction : (s * P + m) % P = m - P := by
        rw [hcode, Nat.add_mul_mod_self_left, Nat.mod_eq_of_lt (by omega)]
      simp only [hfield, hfraction, Nat.succ_ne_zero, if_false, Nat.add_sub_cancel]
      rw [Nat.add_sub_cancel' hge]
    · have hcode : s * P + 2 * P = P * (s + 2) := by ring
      have hfield : (s * P + 2 * P) / P = s + 2 := by
        rw [hcode, Nat.mul_div_cancel_left _ hpos]
      have hfraction : (s * P + 2 * P) % P = 0 := by rw [hcode, Nat.mul_mod_right]
      have hpow : twoPow (s + 2 - 1) = 2 * twoPow s := by
        rw [show s + 2 - 1 = s + 1 from rfl, twoPow_add, Nat.mul_comm]
        rfl
      simp only [hfield, hfraction, hpow]
      rw [if_neg (by omega)]
      ring

/-- Every code has a fraction and a number of places that `units_eq` speaks of. -/
theorem exists_code_eq (code : Nat) : ∃ s m, code = s * twoPow f.fractionBits + m ∧
    (s = 0 ∨ twoPow f.fractionBits ≤ m) ∧ m < 2 * twoPow f.fractionBits := by
  have hpos : 0 < twoPow f.fractionBits := twoPow_pos _
  generalize twoPow f.fractionBits = P at hpos
  have hdiv := Nat.div_add_mod code P
  have hmod := Nat.mod_lt code hpos
  rcases Nat.eq_zero_or_pos (code / P) with h0 | h0
  · refine ⟨0, code, by omega, .inl rfl, ?_⟩
    rw [h0, Nat.mul_zero] at hdiv
    omega
  · obtain ⟨s, hs⟩ := Nat.exists_eq_succ_of_ne_zero h0.ne'
    refine ⟨s, P + code % P, ?_, .inr (Nat.le_add_right _ _), by omega⟩
    rw [hs, Nat.mul_succ, Nat.mul_comm P s] at hdiv
    omega

theorem units_strictMono : StrictMono f.units := by
  refine strictMono_nat_of_lt_succ fun code => ?_
  obtain ⟨s, m, rfl, hs, hm⟩ := f.exists_code_eq code
  have hs' : s = 0 ∨ twoPow f.fractionBits ≤ m + 1 := hs.imp_right Nat.le_succ_of_le
  rw [Nat.add_assoc, f.units_eq hs hm.le, f.units_eq hs' hm]
  exact Nat.mul_lt_mul_of_pos_right (Nat.lt_succ_self m) (twoPow_pos s)

@[simp] theorem units_zero : f.units 0 = 0 := by
  simp [units, Nat.zero_div]

theorem units_infinityCode_le :
    f.units f.infinityCode ≤ twoPow (twoPow f.exponentBits) * twoPow f.fractionBits := by
  have hpos : 0 < twoPow f.fractionBits := twoPow_pos _
  unfold units infinityCode
  rw [Nat.mul_div_cancel _ hpos, Nat.mul_mod_left]
  dsimp only
  split
  · exact Nat.zero_le _
  · rw [Nat.add_zero, Nat.mul_comm]
    exact Nat.mul_le_mul_right _ (Nat.pow_le_pow_right Nat.two_pos (by omega))

/-! ### Nearest codes -/

/-- The code stands for the number nearest to `x` units. Of two that are equally near it is the
even one. -/
def IsNearest (x : ℚ) (code : Nat) : Prop :=
  code ≤ f.infinityCode ∧ ∀ other ≤ f.infinityCode,
    |x - f.units code| ≤ |x - f.units other| ∧
      (|x - f.units code| = |x - f.units other| → other = code ∨ Even code)

variable {f}

theorem cast_units_le {code other : Nat} (h : code ≤ other) :
    (f.units code : ℚ) ≤ f.units other :=
  Nat.cast_le.mpr (f.units_strictMono.monotone h)

theorem cast_units_lt {code other : Nat} (h : code < other) :
    (f.units code : ℚ) < f.units other :=
  Nat.cast_lt.mpr (f.units_strictMono h)

/-- A magnitude at infinity's number or above it is infinity. -/
theorem isNearest_infinityCode {x : ℚ} (h : (f.units f.infinityCode : ℚ) ≤ x) :
    f.IsNearest x f.infinityCode := by
  refine ⟨le_rfl, fun other hother => ?_⟩
  have hle : (f.units other : ℚ) ≤ f.units f.infinityCode := cast_units_le hother
  rw [abs_of_nonneg (sub_nonneg.mpr h), abs_of_nonneg (sub_nonneg.mpr (hle.trans h))]
  refine ⟨by linarith, fun heq => ?_⟩
  have hunits : (f.units other : ℚ) = f.units f.infinityCode := by linarith
  exact .inl (f.units_strictMono.injective (Nat.cast_injective hunits))

/-- Of two successive codes with the magnitude between, the nearer one is nearest of all: any other
code is beyond one of them. -/
theorem isNearest_of_between {x : ℚ} {lo code : Nat} (hbound : lo < f.infinityCode)
    (hlo : (f.units lo : ℚ) ≤ x) (hhi : x < f.units (lo + 1))
    (h : code = lo ∧ x - f.units lo ≤ f.units (lo + 1) - x ∧
          (x - f.units lo = f.units (lo + 1) - x → Even lo) ∨
      code = lo + 1 ∧ f.units (lo + 1) - x ≤ x - f.units lo ∧
          (f.units (lo + 1) - x = x - f.units lo → Even (lo + 1))) :
    f.IsNearest x code := by
  have hdlo : |x - f.units lo| = x - f.units lo := abs_of_nonneg (sub_nonneg.mpr hlo)
  have hdhi : |x - f.units (lo + 1)| = f.units (lo + 1) - x := by
    rw [abs_sub_comm, abs_of_pos (sub_pos.mpr hhi)]
  -- What is below `lo` is farther than `lo`, and what is above `lo + 1` farther than that.
  have hbelow : ∀ other < lo, x - f.units lo < |x - f.units other| := by
    intro other hother
    have hlt : (f.units other : ℚ) < f.units lo := cast_units_lt hother
    have hle := le_abs_self (x - f.units other)
    linarith
  have habove : ∀ other, lo + 1 < other → f.units (lo + 1) - x < |x - f.units other| := by
    intro other hother
    have hlt : (f.units (lo + 1) : ℚ) < f.units other := cast_units_lt hother
    have hle := neg_abs_le (x - f.units other)
    linarith
  have hcases : ∀ other, other < lo ∨ other = lo ∨ other = lo + 1 ∨ lo + 1 < other := by omega
  rcases h with ⟨rfl, hnear, htie⟩ | ⟨rfl, hnear, htie⟩
  · refine ⟨hbound.le, fun other _ => ?_⟩
    rw [hdlo]
    rcases hcases other with ho | rfl | rfl | ho
    · exact ⟨(hbelow other ho).le, fun heq => absurd heq (hbelow other ho).ne⟩
    · exact ⟨hdlo.ge, fun _ => .inl rfl⟩
    · rw [hdhi]
      exact ⟨hnear, fun heq => .inr (htie heq)⟩
    · have hlt := hnear.trans_lt (habove other ho)
      exact ⟨hlt.le, fun heq => absurd heq hlt.ne⟩
  · refine ⟨hbound, fun other _ => ?_⟩
    rw [hdhi]
    rcases hcases other with ho | rfl | rfl | ho
    · have hlt := hnear.trans_lt (hbelow other ho)
      exact ⟨hlt.le, fun heq => absurd heq hlt.ne⟩
    · rw [hdlo]
      exact ⟨hnear, fun heq => .inr (htie heq)⟩
    · exact ⟨hdhi.ge, fun _ => .inl rfl⟩
    · exact ⟨(habove other ho).le, fun heq => absurd heq (habove other ho).ne⟩

/-- A magnitude that is `t` above the lower end of a gap between successive codes goes to the nearer
end, and half way to the even one. When the gap is beyond infinity's number, it goes to infinity. -/
theorem isNearest_of_gap {x t gap : ℚ} {lo code : Nat} (hx : x = f.units lo + t)
    (hhi : (f.units (lo + 1) : ℚ) = f.units lo + gap) (h0 : 0 ≤ t) (hlt : t < gap)
    (h : 2 * t < gap ∧ code = lo ∨ gap < 2 * t ∧ code = lo + 1 ∨
      2 * t = gap ∧ code = lo + lo % 2) : f.IsNearest x (min f.infinityCode code) := by
  rcases Nat.lt_or_ge lo f.infinityCode with hbound | hbound
  · have hcode : code ≤ f.infinityCode := by omega
    rw [Nat.min_eq_right hcode]
    refine isNearest_of_between hbound (by linarith) (by linarith) ?_
    rcases h with ⟨h, rfl⟩ | ⟨h, rfl⟩ | ⟨h, rfl⟩
    · exact .inl ⟨rfl, by linarith, fun heq => by linarith⟩
    · exact .inr ⟨rfl, by linarith, fun heq => by linarith⟩
    · rcases Nat.mod_two_eq_zero_or_one lo with heven | hodd
      · exact .inl ⟨by rw [heven, Nat.add_zero], by linarith, fun _ => Nat.even_iff.mpr heven⟩
      · have hsucc : Even (lo + 1) := (Nat.odd_iff.mpr hodd).add_one
        exact .inr ⟨by rw [hodd], by linarith, fun _ => hsucc⟩
  · rw [Nat.min_eq_left (by omega)]
    have hle : (f.units f.infinityCode : ℚ) ≤ f.units lo := cast_units_le hbound
    exact isNearest_infinityCode (by linarith)

/-- Less than half a unit is zero. -/
theorem isNearest_zero {x : ℚ} (h0 : 0 ≤ x) (h : x < 1 / 2) : f.IsNearest x 0 := by
  refine ⟨Nat.zero_le _, fun other _ => ?_⟩
  rw [units_zero, Nat.cast_zero, sub_zero, abs_of_nonneg h0]
  cases other with
  | zero => simp [abs_of_nonneg h0]
  | succ n =>
    have hone : f.units 1 = 1 := by
      have hpos := twoPow_pos f.fractionBits
      have hfits : 1 ≤ 2 * twoPow f.fractionBits := by omega
      have hunits := f.units_eq (.inl rfl : (0 : Nat) = 0 ∨ _) hfits
      simpa [twoPow] using hunits
    have hle : (f.units 1 : ℚ) ≤ f.units (n + 1) := cast_units_le (Nat.le_add_left 1 n)
    rw [hone, Nat.cast_one] at hle
    have habs := neg_abs_le (x - f.units (n + 1))
    exact ⟨by linarith, fun heq => by linarith⟩

theorem IsNearest.not_lt {x : ℚ} {code other : Nat} (h : f.IsNearest x code)
    (h' : f.IsNearest x other) : ¬ code < other := by
  intro hlt
  obtain ⟨hcode, hnear⟩ := h
  obtain ⟨hother, hnear'⟩ := h'
  have heq := le_antisymm (hnear other hother).1 (hnear' code hcode).1
  have heven : Even code := ((hnear other hother).2 heq).resolve_left hlt.ne'
  have heven' : Even other := ((hnear' code hcode).2 heq.symm).resolve_left hlt.ne
  -- The code between two even ones is nearer than both.
  have hstep : code + 1 < other := by
    obtain ⟨m, rfl⟩ := heven
    obtain ⟨n, rfl⟩ := heven'
    omega
  have hlow : (f.units code : ℚ) < f.units (code + 1) := cast_units_lt (Nat.lt_succ_self code)
  have hhigh : (f.units (code + 1) : ℚ) < f.units other := cast_units_lt hstep
  have hmiddle := (hnear (code + 1) (by omega)).1
  rcases abs_eq_abs.mp heq with h | h
  · linarith
  · have hdist : |x - f.units code| = x - f.units code := abs_of_pos (by linarith)
    have hcloser : |x - f.units (code + 1)| < x - f.units code :=
      abs_lt.mpr ⟨by linarith, by linarith⟩
    rw [hdist] at hmiddle
    linarith

/-- There is only one nearest code. -/
theorem IsNearest.unique {x : ℚ} {code other : Nat} (h : f.IsNearest x code)
    (h' : f.IsNearest x other) : code = other :=
  Nat.le_antisymm (Nat.not_lt.mp (h'.not_lt h)) (Nat.not_lt.mp (h.not_lt h'))

/-! ### Rounding finds the nearest code -/

/-- The three ways a quotient is rounded: it is nearer to the whole number below, nearer to the one
above, or half way. -/
theorem roundHalfEven_cases (num den : Nat) :
    (2 * (num % den) < den ∧ roundHalfEven num den = num / den) ∨
    (den < 2 * (num % den) ∧ roundHalfEven num den = num / den + 1) ∨
    (2 * (num % den) = den ∧ roundHalfEven num den = num / den + num / den % 2) := by
  unfold roundHalfEven
  dsimp only
  split
  · exact .inl ⟨‹_›, rfl⟩
  · split
    · exact .inr (.inl ⟨‹_›, rfl⟩)
    · exact .inr (.inr ⟨by omega, rfl⟩)

/-- A whole number cut off at the place where its fraction starts is a fraction that `units_eq`
speaks of. -/
theorem div_fits (q : Nat) :
    (q.log2 - f.fractionBits = 0 ∨
      twoPow f.fractionBits ≤ q / twoPow (q.log2 - f.fractionBits)) ∧
    q / twoPow (q.log2 - f.fractionBits) < 2 * twoPow f.fractionBits := by
  generalize hshift : q.log2 - f.fractionBits = shift
  have hpos : 0 < twoPow shift := twoPow_pos shift
  constructor
  · rcases Nat.eq_zero_or_pos shift with h0 | h0
    · exact .inl h0
    · refine .inr ((Nat.le_div_iff_mul_le hpos).mpr ?_)
      have hq : q ≠ 0 := by
        rintro rfl
        rw [Nat.log2_zero] at hshift
        omega
      have hlog : f.fractionBits + shift = q.log2 := by omega
      rw [← twoPow_add, hlog]
      exact Nat.log2_self_le hq
  · have hdouble : 2 * twoPow f.fractionBits * twoPow shift =
        2 ^ (f.fractionBits + shift + 1) := by
      rw [Nat.mul_assoc, ← twoPow_add, pow_succ, Nat.mul_comm]
      rfl
    refine (Nat.div_lt_iff_lt_mul hpos).mpr ?_
    rw [hdouble]
    exact Nat.lt_log2_self.trans_le (Nat.pow_le_pow_right Nat.two_pos (by omega))

/-- Codes are as even as their fractions. -/
theorem code_mod_two (hf : 0 < f.fractionBits) (s m : Nat) :
    (s * twoPow f.fractionBits + m) % 2 = m % 2 := by
  obtain ⟨n, hn⟩ := Nat.exists_eq_succ_of_ne_zero hf.ne'
  have heven : s * twoPow f.fractionBits = 2 * (s * twoPow n) := by
    rw [hn, Nat.succ_eq_add_one, twoPow_add]
    change s * (twoPow n * 2) = _
    ring
  rw [heven, Nat.mul_add_mod]

/-- A quotient is a multiple of `2 ^ shift` and a rest. -/
theorem div_eq_add_rest (num shift : Nat) {den : Nat} (hden : 0 < den) :
    (num : ℚ) / den = (num / (den * twoPow shift) : ℕ) * 2 ^ shift +
      (num % (den * twoPow shift) : ℕ) / den := by
  have hD : (den : ℚ) ≠ 0 := Nat.cast_ne_zero.mpr hden.ne'
  have hsplit : (num : ℚ) = den * 2 ^ shift * (num / (den * twoPow shift) : ℕ) +
      (num % (den * twoPow shift) : ℕ) := by
    rw [← cast_twoPow, ← Nat.cast_mul, ← Nat.cast_mul, ← Nat.cast_add, Nat.div_add_mod]
  rw [hsplit]
  field_simp

theorem rest_lt (num shift : Nat) {den : Nat} (hden : 0 < den) :
    ((num % (den * twoPow shift) : ℕ) : ℚ) / den < 2 ^ shift := by
  have hmod := Nat.mod_lt num (Nat.mul_pos hden (twoPow_pos shift))
  rw [div_lt_iff₀ (Nat.cast_pos.mpr hden), ← cast_twoPow, ← Nat.cast_mul, Nat.cast_lt,
    Nat.mul_comm (twoPow shift)]
  exact hmod

/-- Whether a rest is less than half of `2 ^ shift`, more, or just half of it. -/
theorem half_rest (r shift : Nat) {den : Nat} (hden : 0 < den) :
    (2 * r < den * twoPow shift → 2 * ((r : ℚ) / den) < 2 ^ shift) ∧
    (den * twoPow shift < 2 * r → (2 : ℚ) ^ shift < 2 * (r / den)) ∧
    (2 * r = den * twoPow shift → 2 * ((r : ℚ) / den) = 2 ^ shift) := by
  have hD : (0 : ℚ) < den := Nat.cast_pos.mpr hden
  have hdouble : 2 * ((r : ℚ) / den) = (2 * r : ℕ) / den := by
    push_cast
    ring
  have hpower : (2 : ℚ) ^ shift = (den * twoPow shift : ℕ) / den := by
    rw [Nat.cast_mul, cast_twoPow, mul_div_cancel_left₀ _ hD.ne']
  rw [hdouble, hpower]
  refine ⟨fun h => ?_, fun h => ?_, fun h => by rw [h]⟩
  · exact div_lt_div_of_pos_right (Nat.cast_lt.mpr h) hD
  · exact div_lt_div_of_pos_right (Nat.cast_lt.mpr h) hD

/-- A quotient of units is rounded to the nearest code. -/
theorem isNearest_nearest (hf : 0 < f.fractionBits) (num : Nat) {den : Nat} (hden : 0 < den) :
    f.IsNearest ((num : ℚ) / den) (f.nearest num den) := by
  obtain ⟨hleft, hright⟩ := f.div_fits (num / den)
  rw [Nat.div_div_eq_div_mul] at hleft hright
  unfold nearest
  dsimp only
  generalize (num / den).log2 - f.fractionBits = shift at hleft hright ⊢
  have hquotient := div_eq_add_rest num shift hden
  have hrest := rest_lt num shift hden
  obtain ⟨hless, hmore, hhalf⟩ := half_rest (num % (den * twoPow shift)) shift hden
  have hcases := roundHalfEven_cases num (den * twoPow shift)
  generalize num % (den * twoPow shift) = r at hquotient hrest hless hmore hhalf hcases
  generalize num / (den * twoPow shift) = m at hleft hright hquotient hcases
  have hlo : (f.units (shift * twoPow f.fractionBits + m) : ℚ) = m * 2 ^ shift := by
    rw [f.units_eq hleft hright.le, Nat.cast_mul, cast_twoPow]
  have hhi : (f.units (shift * twoPow f.fractionBits + m + 1) : ℚ) =
      m * 2 ^ shift + 2 ^ shift := by
    rw [Nat.add_assoc, f.units_eq (hleft.imp_right Nat.le_succ_of_le) hright, Nat.cast_mul,
      cast_twoPow, Nat.cast_succ, add_mul, one_mul]
  rw [← hlo] at hquotient hhi
  refine isNearest_of_gap hquotient hhi (by positivity) hrest ?_
  rcases hcases with ⟨h, hround⟩ | ⟨h, hround⟩ | ⟨h, hround⟩
  · exact .inl ⟨hless h, by rw [hround]⟩
  · exact .inr (.inl ⟨hmore h, by rw [hround, Nat.add_assoc]⟩)
  · exact .inr (.inr ⟨hhalf h, by rw [hround, code_mod_two hf, Nat.add_assoc]⟩)

variable (f) in
theorem cast_one : (f.one : ℚ) = 2 ^ f.unitExponent := cast_twoPow _

/-- A power of ten above every number of the format is at infinity's number or above it. -/
theorem units_infinityCode_le_of_exponent {d : Decimal} (h0 : d.coefficient ≠ 0)
    (h : (twoPow f.exponentBits : Int) < d.exponent) :
    (f.units f.infinityCode : ℚ) ≤ d.value * f.one := by
  obtain ⟨n, hn⟩ := Int.eq_ofNat_of_zero_le ((Int.natCast_nonneg _).trans h.le)
  rw [hn, Nat.cast_lt] at h
  have hcoefficient : (1 : ℚ) ≤ d.coefficient := Nat.one_le_cast.mpr (Nat.pos_of_ne_zero h0)
  have hpow : (2 : ℚ) ^ twoPow f.exponentBits ≤ 10 ^ n :=
    (pow_le_pow_right₀ (by norm_num) h.le).trans (pow_le_pow_left₀ (by norm_num) (by norm_num) n)
  have hunit : (2 : ℚ) ^ f.fractionBits ≤ 2 ^ f.unitExponent :=
    pow_le_pow_right₀ (by norm_num) (Nat.le_add_left _ _)
  calc (f.units f.infinityCode : ℚ)
      ≤ (twoPow (twoPow f.exponentBits) * twoPow f.fractionBits : ℕ) :=
        Nat.cast_le.mpr f.units_infinityCode_le
    _ = 1 * 2 ^ twoPow f.exponentBits * 2 ^ f.fractionBits := by
        rw [Nat.cast_mul, cast_twoPow, cast_twoPow, one_mul]
    _ ≤ d.coefficient * 10 ^ n * 2 ^ f.unitExponent := by gcongr
    _ = d.value * f.one := by rw [Decimal.value, hn, zpow_natCast, f.cast_one]

/-- A coefficient of `b` bits over a power of ten with three bits or more for each of its zeros. -/
theorem value_lt_half_of_exponent {d : Decimal}
    (h : (d.coefficient.log2 + f.unitExponent + 2 : Int) ≤ -3 * d.exponent) :
    d.value * f.one < 1 / 2 := by
  obtain ⟨n, hn⟩ := Int.eq_ofNat_of_zero_le (a := -d.exponent) (by omega)
  have hexponent : d.exponent = -(n : Int) := by omega
  have hbits : d.coefficient.log2 + 1 + (f.unitExponent + 1) ≤ 3 * n := by omega
  have hcoefficient : (d.coefficient : ℚ) < 2 ^ (d.coefficient.log2 + 1) := by
    rw [← Nat.cast_ofNat, ← Nat.cast_pow, Nat.cast_lt]
    exact Nat.lt_log2_self
  have hten : (0 : ℚ) < 10 ^ n := by positivity
  rw [Decimal.value, hexponent, zpow_neg, zpow_natCast, f.cast_one, mul_right_comm,
    ← div_eq_mul_inv, div_lt_iff₀ hten]
  have hlt : (d.coefficient : ℚ) * 2 ^ (f.unitExponent + 1) < 10 ^ n :=
    calc (d.coefficient : ℚ) * 2 ^ (f.unitExponent + 1)
        < 2 ^ (d.coefficient.log2 + 1) * 2 ^ (f.unitExponent + 1) := by gcongr
      _ = 2 ^ (d.coefficient.log2 + 1 + (f.unitExponent + 1)) := (pow_add _ _ _).symm
      _ ≤ 2 ^ (3 * n) := pow_le_pow_right₀ (by norm_num) hbits
      _ = 8 ^ n := by rw [pow_mul]; norm_num
      _ ≤ 10 ^ n := pow_le_pow_left₀ (by norm_num) (by norm_num) n
  rw [pow_succ, ← mul_assoc] at hlt
  linarith

/-- Distances of numbers are those of their units. -/
theorem abs_sub_units_div (a : ℚ) (code : Nat) :
    |a - f.units code / f.one| = |a * f.one - f.units code| / f.one := by
  have hone : (0 : ℚ) < f.one := Nat.cast_pos.mpr (twoPow_pos _)
  rw [← abs_of_pos hone, ← abs_div, abs_of_pos hone, sub_div, mul_div_cancel_right₀ _ hone.ne']

/-- A decimal is rounded to the nearest code, whichever way the answer is found. -/
theorem isNearest_ofDecimal (hf : 0 < f.fractionBits) (d : Decimal) :
    f.IsNearest (d.value * f.one) (f.ofDecimal d) := by
  have hnonneg : 0 ≤ d.value * f.one := mul_nonneg d.value_nonneg (Nat.cast_nonneg _)
  unfold ofDecimal
  split
  · rename_i h0
    rw [Decimal.value, h0, Nat.cast_zero, zero_mul, zero_mul]
    exact isNearest_zero le_rfl (by norm_num)
  split
  · rename_i h0 hlarge
    exact isNearest_infinityCode (units_infinityCode_le_of_exponent h0 hlarge)
  split
  · rename_i hsmall
    exact isNearest_zero hnonneg (value_lt_half_of_exponent hsmall)
  · have hden : 0 < d.den := tenPow_pos _
    have h := isNearest_nearest hf (d.num * f.one) hden
    rw [Nat.cast_mul, mul_div_right_comm, d.num_div_den] at h
    exact h

end FloatFormat

/-! ### Signed numbers -/

/-- A magnitude with a sign. -/
def signed (negative : Bool) (magnitude : ℚ) : ℚ := if negative then -magnitude else magnitude

@[simp] theorem signed_zero (negative : Bool) : signed negative 0 = 0 := by
  cases negative
  · rfl
  · exact neg_zero

/-- A natural number with a sign is an integer. -/
theorem exists_intCast_eq_signed (negative : Bool) (k : Nat) :
    ∃ m : Int, (m : ℚ) = signed negative k := by
  cases negative
  · exact ⟨k, rfl⟩
  · exact ⟨-k, by simp [signed]⟩

theorem abs_signed (negative : Bool) (a : ℚ) : |signed negative a| = |a| := by
  cases negative
  · rfl
  · exact abs_neg a

theorem abs_signed_sub_signed (negative : Bool) (a b : ℚ) :
    |signed negative a - signed negative b| = |a - b| := by
  cases negative
  · rfl
  · exact (congrArg abs (neg_sub_neg a b)).trans (abs_sub_comm b a)

theorem abs_signed_sub_signed_not {negative other : Bool} (h : other ≠ negative) {a b : ℚ}
    (ha : 0 ≤ a) (hb : 0 ≤ b) : |signed negative a - signed other b| = a + b := by
  obtain rfl : other = !negative := by cases other <;> cases negative <;> simp_all
  cases negative
  · have heq : signed false a - signed (!false) b = a + b := sub_neg_eq_add a b
    rw [heq, abs_of_nonneg (add_nonneg ha hb)]
  · have heq : signed true a - signed (!true) b = -(a + b) := by
      rw [neg_add]
      exact sub_eq_add_neg (-a) b
    rw [heq, abs_neg, abs_of_nonneg (add_nonneg ha hb)]

namespace BinaryFloat

variable {f : FloatFormat}

/-- The number of the bits. For an infinity it is the one that its code would stand for if codes
went on. -/
def value (x : BinaryFloat f) : ℚ := signed x.negative (x.units / f.one)

/-- No number is nearer to `x`, infinities included, and of two that are equally near this is the
one with the even code. -/
def IsNearest (y : BinaryFloat f) (x : ℚ) : Prop :=
  y.isNaN = false ∧ ∀ z : BinaryFloat f, z.isNaN = false →
    |x - y.value| ≤ |x - z.value| ∧
      (|x - y.value| = |x - z.value| → z.value = y.value ∨ Even y.code)

theorem isNaN_eq_false_iff (x : BinaryFloat f) : x.isNaN = false ↔ x.code ≤ f.infinityCode := by
  unfold isNaN
  rw [decide_eq_false_iff_not, Nat.not_lt]

theorem abs_value (x : BinaryFloat f) : |x.value| = x.units / f.one := by
  have hnonneg : (0 : ℚ) ≤ x.units / f.one := by positivity
  rw [value, abs_signed, abs_of_nonneg hnonneg]

/-- A number is an integer exactly if it is read as one. -/
theorem toInt?_eq_some_iff (x : BinaryFloat f) (n : Int) :
    x.toInt? = some n ↔ x.isFinite = true ∧ x.value = n := by
  have hone : 0 < f.one := twoPow_pos _
  have hone' : (f.one : ℚ) ≠ 0 := Nat.cast_ne_zero.mpr hone.ne'
  unfold toInt?
  by_cases hdvd : f.one ∣ x.units
  · obtain ⟨k, hk⟩ := hdvd
    have hvalue : x.value = ((if x.negative then -(k : Int) else k : Int) : ℚ) := by
      rw [value, hk, Nat.cast_mul, mul_div_cancel_left₀ _ hone', signed]
      split <;> simp
    have hmod : f.one * k % f.one = 0 := Nat.mul_mod_right _ _
    have hdiv : f.one * k / f.one = k := Nat.mul_div_cancel_left _ hone
    rw [hvalue, hk, hmod, hdiv, Int.cast_inj]
    cases x.isFinite <;> simp
  · have hmod : (x.units % f.one == 0) = false :=
      beq_eq_false_iff_ne.mpr fun h => hdvd (Nat.dvd_of_mod_eq_zero h)
    have hvalue : x.value ≠ n := by
      intro h
      have hquotient : (x.units : ℚ) / f.one = (n.natAbs : ℕ) := by
        rw [← x.abs_value, h, Nat.cast_natAbs, Int.cast_abs]
      rw [div_eq_iff hone', ← Nat.cast_mul, Nat.cast_inj] at hquotient
      exact hdvd ⟨n.natAbs, hquotient.trans (Nat.mul_comm _ _)⟩
    simp [hmod, hvalue]

/-- What is nearest to a number of the format is that number. -/
theorem IsNearest.value_eq {y z : BinaryFloat f} {x : ℚ} (h : y.IsNearest x)
    (hz : z.isNaN = false) (hx : z.value = x) : y.value = x := by
  have hle := (h.2 z hz).1
  rw [hx, sub_self, abs_zero] at hle
  exact (sub_eq_zero.mp (abs_nonpos_iff.mp hle)).symm

/-- The nearest number has the sign of the number it is near to. -/
theorem IsNearest.value_eq_signed {y : BinaryFloat f} {negative : Bool} {a : ℚ} (ha : 0 ≤ a)
    (h : y.IsNearest (signed negative a)) : y.value = signed negative (y.units / f.one) := by
  by_cases hsign : y.negative = negative
  · rw [value, hsign]
  have hcode : y.code ≤ f.infinityCode := y.isNaN_eq_false_iff.mp h.1
  have hunits : (0 : ℚ) ≤ y.units / f.one := by positivity
  -- The number of the same code with the sign of `a` is not nearer.
  have hle := (h.2 (ofCode negative y.code hcode) ((isNaN_eq_false_iff _).mpr hcode)).1
  have hother : (ofCode negative y.code hcode).value = signed negative (y.units / f.one) := rfl
  rw [hother, abs_signed_sub_signed, value, abs_signed_sub_signed_not hsign ha hunits] at hle
  have hzero : (y.units : ℚ) / f.one = 0 := by
    rcases le_abs.mp hle with hle | hle
    · linarith
    · obtain rfl : a = 0 := by linarith
      have hnan : (ofCode false 0 (Nat.zero_le _) : BinaryFloat f).isNaN = false :=
        (isNaN_eq_false_iff _).mpr (Nat.zero_le _)
      have h0 : (ofCode false 0 (Nat.zero_le _) : BinaryFloat f).value = signed negative 0 := by
        simp [value, units, ofCode]
      rw [← y.abs_value, h.value_eq hnan h0, signed_zero, abs_zero]
  rw [value, hzero, signed_zero, signed_zero]

/-- The code of the nearest number is nearest among codes. -/
theorem IsNearest.code {y : BinaryFloat f} {negative : Bool} {a : ℚ} (ha : 0 ≤ a)
    (h : y.IsNearest (signed negative a)) : f.IsNearest (a * f.one) y.code := by
  have hone : (0 : ℚ) < f.one := Nat.cast_pos.mpr (twoPow_pos _)
  have hcode : y.code ≤ f.infinityCode := y.isNaN_eq_false_iff.mp h.1
  refine ⟨hcode, fun other hother => ?_⟩
  obtain ⟨hle, htie⟩ :=
    h.2 (ofCode negative other hother) ((isNaN_eq_false_iff _).mpr hother)
  have hvalue : (ofCode negative other hother).value =
      signed negative (f.units other / f.one) := rfl
  rw [h.value_eq_signed ha, hvalue, abs_signed_sub_signed, abs_signed_sub_signed, units,
    FloatFormat.abs_sub_units_div, FloatFormat.abs_sub_units_div] at hle htie
  refine ⟨(div_le_div_iff_of_pos_right hone).mp hle, fun heq => ?_⟩
  refine (htie (congrArg (· / (f.one : ℚ)) heq)).imp_left fun hsame => ?_
  have habs := congrArg abs hsame
  have hunits : ∀ code, (0 : ℚ) ≤ f.units code / f.one := fun code => by positivity
  rw [abs_signed, abs_signed, abs_of_nonneg (hunits _), abs_of_nonneg (hunits _),
    div_left_inj' hone.ne', Nat.cast_inj] at habs
  exact f.units_strictMono.injective habs

theorem signed_abs (x : ℚ) : signed (decide (x < 0)) |x| = x := by
  rcases lt_or_ge x 0 with h | h
  · rw [decide_eq_true h, abs_of_neg h]
    exact neg_neg x
  · rw [decide_eq_false (not_lt.mpr h), abs_of_nonneg h]
    rfl

/-- There is only one nearest magnitude. -/
theorem IsNearest.code_eq {y z : BinaryFloat f} {x : ℚ} (hy : y.IsNearest x) (hz : z.IsNearest x) :
    y.code = z.code := by
  have ha : 0 ≤ |x| := abs_nonneg x
  rw [← signed_abs x] at hy hz
  exact (hy.code ha).unique (hz.code ha)

/-- There is only one nearest number. -/
theorem IsNearest.unique {y z : BinaryFloat f} {x : ℚ} (hy : y.IsNearest x) (hz : z.IsNearest x) :
    y.value = z.value := by
  have ha : 0 ≤ |x| := abs_nonneg x
  have hcode := hy.code_eq hz
  rw [← signed_abs x] at hy hz
  rw [hy.value_eq_signed ha, hz.value_eq_signed ha, units, units, hcode]

/-- The nearest code with the sign of a number is the nearest number. -/
theorem isNearest_ofCode {negative : Bool} {a : ℚ} (ha : 0 ≤ a) {code : Nat}
    (h : f.IsNearest (a * f.one) code) :
    (ofCode negative code h.1).IsNearest (signed negative a) := by
  obtain ⟨hcode, hnear⟩ := h
  have hone : (0 : ℚ) < f.one := Nat.cast_pos.mpr (twoPow_pos _)
  refine ⟨(isNaN_eq_false_iff _).mpr hcode, fun z hz => ?_⟩
  have hz' : z.code ≤ f.infinityCode := (isNaN_eq_false_iff z).mp hz
  have hy : (ofCode negative code hcode).value = signed negative (f.units code / f.one) := rfl
  rw [hy, abs_signed_sub_signed, FloatFormat.abs_sub_units_div]
  by_cases hsign : z.negative = negative
  · rw [value, units, hsign, abs_signed_sub_signed, FloatFormat.abs_sub_units_div]
    obtain ⟨hle, htie⟩ := hnear z.code hz'
    refine ⟨div_le_div_of_nonneg_right hle hone.le, fun heq => ?_⟩
    have heq' := (div_left_inj' hone.ne').mp heq
    exact (htie heq').imp_left fun h => by rw [h]
  · have hunits : (0 : ℚ) ≤ z.units / f.one := by positivity
    obtain ⟨hle, htie⟩ := hnear 0 (Nat.zero_le _)
    rw [FloatFormat.units_zero, Nat.cast_zero, sub_zero,
      abs_of_nonneg (mul_nonneg ha hone.le)] at hle htie
    have hle' := div_le_div_of_nonneg_right hle hone.le
    rw [mul_div_cancel_right₀ _ hone.ne'] at hle'
    rw [value, abs_signed_sub_signed_not hsign ha hunits]
    refine ⟨by linarith, fun heq => ?_⟩
    -- Equally near numbers of both signs are the two zeros.
    have hzero : (z.units : ℚ) / f.one = 0 := by linarith
    rw [hzero, add_zero, div_eq_iff hone.ne'] at heq
    refine (htie heq).imp_left fun h => ?_
    rw [hzero, ← h, FloatFormat.units_zero, Nat.cast_zero, zero_div, signed_zero, signed_zero]

/-- A signed decimal is rounded to the nearest number. -/
theorem isNearest_ofDecimal (hf : 0 < f.fractionBits) (negative : Bool) (d : Decimal) :
    (ofDecimal negative d : BinaryFloat f).IsNearest (signed negative d.value) :=
  isNearest_ofCode d.value_nonneg (FloatFormat.isNearest_ofDecimal hf d)

end BinaryFloat

end TenantSql
