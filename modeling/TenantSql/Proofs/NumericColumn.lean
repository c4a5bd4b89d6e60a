import Mathlib.Algebra.BigOperators.Fin
import Mathlib.Algebra.Order.Round
import TenantSql.Proofs.DisplayedDecimal
import TenantSql.Proofs.NumericWire
import TenantSql.Proofs.ShortestDecimal
/-!
# TenantSql.Proofs.NumericColumn

What a column of stored decimals gets of a number.

An integer is stored as it is. Of a double the decimal on display is stored, with
twenty-eight digits behind the point and no more (`Numeric.rounded`). That its whole part
is too large shows before rounding, as no double of this size has digits behind the
point (`Value.exists_bind_float_numeric_iff`).

A double is lost exactly if more digits are displayed of it: no decimal of fewer digits
than the shortest one is read back, so none of twenty-eight is
(`Binary64.isNearest_rounded_iff`).
-/

namespace TenantSql

/-! ### The form of what is stored -/

namespace Numeric

/-- What groups count, as a sum: group `i` counts in `10000 ^ (weight - i)`. -/
theorem magnitude_eq_sum (weight : Int) (gs : List Nat) :
    magnitude weight gs = ∑ i : Fin gs.length, (gs[i] : ℚ) * 10000 ^ (weight - i) := by
  induction gs generalizing weight with
  | nil => rfl
  | cons g gs ih =>
    have hstep : ∀ i : Nat, weight - 1 - (i : Int) = weight - (i + 1) := fun i => by omega
    rw [magnitude, ih]
    simp [Fin.sum_univ_succ, hstep]

/-- Bytes hold a stored number, in the form that is asked for: two bytes say how many groups there
are, and there are as many; every group is below ten thousand, and the first one of a number other
than zero is not zero. What they store is the number of the groups. -/
structure Stored (word : List UInt8) (n : Numeric) (q : ℚ) : Prop where
  read : ofBytes? word = some n
  count : ofBigEndian (word.take 2) = n.groups.length
  length : word.length = 8 + 2 * n.groups.length
  group_lt : ∀ g ∈ n.groups, g < 10000
  head : q ≠ 0 → ∃ g ∈ n.groups.head?, g ≠ 0
  value : q = signed n.negative (∑ i : Fin n.groups.length,
    (n.groups[i] : ℚ) * 10000 ^ (n.weight - i))

/-- No group stands in front that counts nothing. -/
theorem head?_ofScaled (negative : Bool) (mantissa scale : Nat) :
    (ofScaled negative mantissa scale).groups.head? ≠ some 0 := by
  by_cases hzero : mantissa = 0
  · simp [ofScaled, hzero]
  · obtain ⟨gs, zeros, hgroups, -, heq⟩ := ofScaled_eq negative hzero scale
    have hpos : mantissa * tenPow (4 * ((scale + 3) / 4) - scale) ≠ 0 :=
      Nat.mul_ne_zero hzero (tenPow_pos _).ne'
    rw [heq]
    intro hhead
    -- The first group is the last digit of the number in base ten thousand.
    have hlast : (Nat.digits 10000 (mantissa * tenPow (4 * ((scale + 3) / 4) - scale))).getLast? =
        some 0 := by
      rw [← List.head?_reverse, ← groupsOf_eq, hgroups, List.head?_append, hhead]
      rfl
    obtain ⟨hne, hzero'⟩ := List.mem_getLast?_eq_getLast hlast
    exact Nat.getLast_digit_ne_zero 10000 hpos hzero'.symm

theorem head?_of_ofDecimal? {negative : Bool} {d : Decimal} {n : Numeric}
    (h : ofDecimal? negative d = some n) : n.groups.head? ≠ some 0 := by
  unfold ofDecimal? at h
  dsimp only at h
  split at h
  · cases h
    exact head?_ofScaled _ _ _
  · cases h

theorem length_bytes (n : Numeric) : n.bytes.length = 8 + 2 * n.groups.length := by
  simp [bytes, List.length_flatMap]
  omega

theorem stored_bytes {n : Numeric} (hfits : n.Fits) (hhead : n.groups.head? ≠ some 0) :
    Stored n.bytes n n.value where
  read := ofBytes?_bytes hfits
  count := ofBigEndian_two hfits.length_lt
  length := n.length_bytes
  group_lt := hfits.group_lt
  head hvalue := by
    cases hgroups : n.groups with
    | nil =>
      refine absurd ?_ hvalue
      rw [value, hgroups, magnitude, signed_zero]
    | cons g gs =>
      rw [hgroups] at hhead
      exact ⟨g, rfl, fun hzero => hhead (congrArg some hzero)⟩
  value := by rw [value, magnitude_eq_sum]

theorem stored_ofInt (i : Int64) : Stored (ofInt i.toInt).bytes (ofInt i.toInt) i.toInt := by
  have hstored := stored_bytes (fits_ofInt i) (head?_ofScaled _ _ _)
  rwa [value_ofInt] at hstored

theorem Stored.read?_eq {word : List UInt8} {n : Numeric} {q : ℚ} (h : Stored word n q) :
    read? word = some q := by
  rw [read?, h.read, Option.map_some, Numeric.value, magnitude_eq_sum, ← h.value]

/-! ### Rounding to the digits that are stored -/

/-- A number with the digits behind the point that are stored; half of the last place goes away from
zero. -/
def rounded (q : ℚ) : ℚ := signed (decide (q < 0)) (round (|q| * 10 ^ maxScale) / 10 ^ maxScale)

theorem rounded_of_nonneg {a : ℚ} (ha : 0 ≤ a) :
    rounded a = round (a * 10 ^ maxScale) / 10 ^ maxScale := by
  rw [rounded, decide_eq_false (not_lt.mpr ha), abs_of_nonneg ha]
  rfl

/-- A number and its opposite are rounded alike. -/
theorem rounded_signed (negative : Bool) {a : ℚ} (ha : 0 ≤ a) :
    rounded (signed negative a) = signed negative (rounded a) := by
  rw [rounded_of_nonneg ha, rounded, abs_signed, abs_of_nonneg ha]
  rcases ha.eq_or_lt with rfl | hpos
  · simp
  · cases negative <;> simp [signed, hpos, hpos.le]

/-- All digits of a decimal are stored if there are few enough behind the point. -/
theorem rounded_of_places_le {d : Decimal} (h : d.places ≤ maxScale) :
    rounded d.value = d.value := by
  have hwhole : d.value * 10 ^ maxScale = (d.num * 10 ^ (maxScale - d.places) : ℕ) := by
    have hpower : (10 : ℚ) ^ maxScale = 10 ^ d.places * 10 ^ (maxScale - d.places) := by
      rw [← pow_add, Nat.add_sub_cancel' h]
    have hden : (d.den : ℚ) = 10 ^ d.places := cast_tenPow _
    rw [← d.num_div_den, hden, hpower]
    push_cast
    field_simp
  rw [rounded_of_nonneg d.value_nonneg, hwhole, round_natCast, Int.cast_natCast, ← hwhole]
  field_simp

/-- The mantissa and the scale stand for the rounded decimal. -/
theorem scaled_div_eq (d : Decimal) :
    ((scaled d).1 : ℚ) / 10 ^ (scaled d).2 = rounded d.value := by
  by_cases h : d.places ≤ maxScale
  · have hscaled : scaled d = (d.num, d.places) := if_pos h
    have hden : (d.den : ℚ) = 10 ^ d.places := cast_tenPow _
    rw [rounded_of_places_le h, hscaled, ← d.num_div_den, hden]
  · have hscale : (scaled d).2 = maxScale := by
      unfold scaled
      rw [if_neg h]
    have hnonneg : 0 ≤ d.value * 10 ^ maxScale + 1 / 2 := by
      have := d.value_nonneg
      positivity
    rw [rounded_of_nonneg d.value_nonneg, round_eq, ← natCast_floor_eq_intCast_floor hnonneg,
      scaled_eq_floor, hscale]

/-- Nothing is lost of a whole number. -/
theorem rounded_of_eq_natCast {d : Decimal} {n : Nat} (h : d.value = n) :
    rounded d.value = d.value := by
  rw [← scaled_div_eq, scaled_of_integer h, h]

theorem stored_of_ofDecimal? {negative : Bool} {d : Decimal} {n : Numeric}
    (h : ofDecimal? negative d = some n) :
    Stored n.bytes n (rounded (signed negative d.value)) := by
  have hstored := stored_bytes (fits_of_ofDecimal? h) (head?_of_ofDecimal? h)
  rwa [value_of_ofDecimal? h, scaled_div_eq, ← rounded_signed _ d.value_nonneg] at hstored

theorem exists_ofDecimal?_iff (negative : Bool) (d : Decimal) :
    (∃ n, ofDecimal? negative d = some n) ↔ ⌊rounded d.value⌋₊ < 2 ^ 96 := by
  have hquotient : (scaled d).1 / tenPow (scaled d).2 = ⌊rounded d.value⌋₊ := by
    rw [← scaled_div_eq, ← cast_tenPow, Nat.floor_div_eq_div]
  have hwhole : twoPow wholeBits = 2 ^ 96 := rfl
  unfold ofDecimal?
  dsimp only
  rw [hquotient, hwhole]
  simp

end Numeric

/-! ### Doubles in a column of decimals -/

namespace Binary64

/-- The number as it is displayed, if it is one. -/
def numeral (x : Binary64) : Numeral := x.decimal.numeral x.negative

theorem value_numeral (x : Binary64) : x.numeral.value = signed x.negative x.decimal.value :=
  Decimal.value_numeral _ _

theorem abs_value_numeral (x : Binary64) : |x.numeral.value| = x.decimal.value := by
  rw [x.value_numeral, abs_signed, abs_of_nonneg x.decimal.value_nonneg]

/-- A double is the nearest one to the number on display. -/
theorem isNearest_numeral {x : Binary64} (h : x.isNaN = false) : x.IsNearest x.numeral.value := by
  rw [x.value_numeral]
  exact isNearest_decimal h

theorem length_fractionDigits_numeral (x : Binary64) :
    x.numeral.fractionDigits.length = x.decimal.places :=
  Decimal.length_fractionDigits_numeral _ _

/-- What is displayed of a double that is not below a power of two is not below it either. -/
theorem two_pow_le_abs_value_of_decimal {x : Binary64} {k : Nat} (hx : x.isFinite = true)
    (hk : k ≤ 1023) (h : 2 ^ k ≤ x.decimal.value) : 2 ^ k ≤ |x.value| := by
  refine two_pow_le_abs_value (isNearest_numeral (BinaryFloat.isNaN_of_isFinite hx)) hk ?_
  rwa [x.abs_value_numeral]

theorem value_decimal_lt_two_pow {x : Binary64} {k : Nat} (hx : x.isFinite = true) (hk : k ≤ 1023)
    (h : |x.value| < 2 ^ k) : x.decimal.value < 2 ^ k :=
  not_le.mp fun hle => not_le.mpr h (two_pow_le_abs_value_of_decimal hx hk hle)

/-- **A double survives rounding exactly if no digit is rounded away.** -/
theorem isNearest_rounded_iff {x : Binary64} (hx : x.isFinite = true) :
    x.IsNearest (Numeric.rounded x.numeral.value) ↔ x.decimal.places ≤ Numeric.maxScale := by
  rw [value_numeral, Numeric.rounded_signed _ x.decimal.value_nonneg]
  constructor
  · intro hnear
    -- The rounded decimal is read back, and the shortest one has no more digits than it.
    have hrounded : Numeric.rounded x.decimal.value =
        Decimal.value ⟨(Numeric.scaled x.decimal).1, -((Numeric.scaled x.decimal).2 : Int)⟩ := by
      rw [← Numeric.scaled_div_eq, Decimal.value, zpow_neg, zpow_natCast, div_eq_mul_inv]
    rw [hrounded] at hnear
    have hreads : FloatFormat.double.ofDecimal _ = x.code :=
      (FloatFormat.isNearest_ofDecimal (by decide) _).unique (hnear.code (Decimal.value_nonneg _))
    refine (places_decimal_le hx hreads).trans ?_
    simpa [Decimal.places] using Numeric.scale_le x.decimal
  · intro hplaces
    rw [Numeric.rounded_of_places_le hplaces]
    exact isNearest_decimal (BinaryFloat.isNaN_of_isFinite hx)

end Binary64

namespace Value

/-- A double is bound exactly if it is finite and the whole part on display is small enough. -/
theorem exists_bind_float_numeric_iff {x : Binary64} :
    (∃ result, bind (.float x) (.builtin .numeric) = .ok result) ↔
      x.isFinite = true ∧ ⌊|x.numeral.value|⌋₊ < 2 ^ 96 := by
  have hbind : (∃ result, bind (.float x) (.builtin .numeric) = .ok result) ↔
      x.isFinite = true ∧ ∃ n, Numeric.ofDecimal? x.negative x.decimal = some n := by
    simp only [bind_float_numeric_eq_ok_iff]
    constructor
    · intro h
      obtain ⟨-, hx, n, hn, -⟩ := h
      exact ⟨hx, n, hn⟩
    · intro h
      obtain ⟨hx, n, hn⟩ := h
      exact ⟨_, hx, n, hn, rfl⟩
  rw [hbind, x.abs_value_numeral]
  refine and_congr_right fun hx => ?_
  by_cases hlarge : 2 ^ 63 ≤ x.decimal.value
  · -- Large doubles have nothing behind the point, so nothing is rounded.
    obtain ⟨m, hm⟩ := Binary64.exists_value_decimal_eq_of_large hx
      (Binary64.two_pow_le_abs_value_of_decimal hx (by decide) hlarge)
    rw [Numeric.exists_ofDecimal?_iff, Numeric.rounded_of_eq_natCast hm]
  · have hsmall : x.decimal.value < 2 ^ 63 := not_le.mp hlarge
    refine iff_of_true (Numeric.exists_ofDecimal? _ (hsmall.trans (by norm_num))) ?_
    rw [Nat.floor_lt x.decimal.value_nonneg]
    exact hsmall.trans (by norm_num)

theorem stored_of_bind_float {x : Binary64} {result : Option (List UInt8)}
    (h : bind (.float x) (.builtin .numeric) = .ok result) :
    ∃ word n, result = some word ∧ Numeric.Stored word n (Numeric.rounded x.numeral.value) := by
  obtain ⟨-, n, hn, hresult⟩ := bind_float_numeric_eq_ok_iff.mp h
  rw [x.value_numeral]
  exact ⟨n.bytes, n, hresult, Numeric.stored_of_ofDecimal? hn⟩

/-- **What a column of decimals gets of a number.** A 64-bit integer is stored as it is. A double is
bound exactly if it is finite and the whole part of the number on display is below `2 ^ 96`, and
then this number is stored, rounded half away from zero to twenty-eight digits behind the point.
Both times the bytes say how many groups there are, the groups are below ten thousand, and the first
one of a number other than zero is not zero. -/
theorem bind_numeric_stores :
    (∀ i : Int64, ∃ word n, bind (.int i) (.builtin .numeric) = .ok (some word) ∧
      Numeric.Stored word n i.toInt) ∧
    ∀ x : Binary64, (x.isFinite = true → x.display = x.numeral.text) ∧
      ((∃ result, bind (.float x) (.builtin .numeric) = .ok result) ↔
        x.isFinite = true ∧ ⌊|x.numeral.value|⌋₊ < 2 ^ 96) ∧
      ∀ result, bind (.float x) (.builtin .numeric) = .ok result →
        ∃ word n, result = some word ∧
          Numeric.Stored word n (Numeric.rounded x.numeral.value) := by
  constructor
  · intro i
    exact ⟨_, _, rfl, Numeric.stored_ofInt i⟩
  · intro x
    exact ⟨Binary64.display_eq, exists_bind_float_numeric_iff, fun _ => stored_of_bind_float⟩

/-- The least integer, a double with just half of the last place behind the digits that are stored,
and the least double that is too large. -/
theorem bind_numeric_stores_at_limits :
    (∃ word n, bind (.int Int64.minValue) (.builtin .numeric) = .ok (some word) ∧
      Numeric.Stored word n (-2 ^ 63)) ∧
    (let x : Binary64 := .ofDecimal true ⟨12345678901241995, -29⟩
    x.display = "-0.00000000000012345678901241995" ∧
      ∃ word n, bind (.float x) (.builtin .numeric) = .ok (some word) ∧
        Numeric.Stored word n (-1234567890124200 / 10 ^ 28)) ∧
    ¬∃ result, bind (.float (.ofInt (2 ^ 96))) (.builtin .numeric) = .ok result := by
  refine ⟨?_, ?_, ?_⟩
  · obtain ⟨word, n, hbind, hstored⟩ := bind_numeric_stores.1 Int64.minValue
    have hmin : Int64.minValue.toInt = -2 ^ 63 := Int64.toInt_minValue
    rw [hmin] at hstored
    exact ⟨word, n, hbind, by exact_mod_cast hstored⟩
  · intro x
    have hdecimal : x.decimal = ⟨12345678901241995, -29⟩ := by decide +kernel
    have hvalue : x.decimal.value = 12345678901241995 / 10 ^ 29 := by
      rw [hdecimal, Decimal.value]
      norm_num
    have hnumeral : x.numeral.value = -(12345678901241995 / 10 ^ 29) := by
      rw [x.value_numeral, hvalue]
      rfl
    have hround : round ((12345678901241995 / 10 ^ 29 : ℚ) * 10 ^ Numeric.maxScale) =
        1234567890124200 := by
      rw [round_eq, Int.floor_eq_iff, Numeric.maxScale]
      norm_num
    have hrounded : Numeric.rounded x.numeral.value = -1234567890124200 / 10 ^ 28 := by
      rw [x.value_numeral, Numeric.rounded_signed _ x.decimal.value_nonneg, hvalue,
        Numeric.rounded_of_nonneg (by norm_num), hround]
      have hnegative : x.negative = true := rfl
      rw [hnegative, signed, if_pos rfl, Numeric.maxScale]
      norm_num
    obtain ⟨-, hbinds, hstores⟩ := bind_numeric_stores.2 x
    obtain ⟨result, hresult⟩ := hbinds.mpr ⟨by decide +kernel, by
      rw [hnumeral, Nat.floor_lt (abs_nonneg _)]
      norm_num⟩
    obtain ⟨word, n, rfl, hstored⟩ := hstores result hresult
    rw [hrounded] at hstored
    exact ⟨by decide +kernel, word, n, hresult, hstored⟩
  · intro h
    have hdecimal : Binary64.decimal (.ofInt (2 ^ 96)) = ⟨7922816251426434, 13⟩ := by
      decide +kernel
    have hlt := (((bind_numeric_stores.2 _).2.1).mp h).2
    rw [Binary64.value_numeral, hdecimal, abs_signed, Nat.floor_lt (abs_nonneg _),
      Decimal.value] at hlt
    norm_num at hlt

/-- **A double survives a column of decimals exactly if few enough digits of it are displayed.**
What is stored is the number on display, rounded half away from zero to twenty-eight digits behind
the point. The double that is nearest to it is the old one, up to the sign of zero, if and only if
there are no more digits than that on display. -/
theorem bind_numeric_survives_iff {x : Binary64} {result : Option (List UInt8)}
    (h : bind (.float x) (.builtin .numeric) = .ok result) :
    x.display = x.numeral.text ∧
      ∃ word q, result = some word ∧ Numeric.read? word = some q ∧
        q = Numeric.rounded x.numeral.value ∧
        (x.IsNearest q ↔ x.numeral.fractionDigits.length ≤ 28) := by
  obtain ⟨hfinite, -⟩ := bind_float_numeric_eq_ok_iff.mp h
  obtain ⟨word, n, hresult, hstored⟩ := stored_of_bind_float h
  refine ⟨Binary64.display_eq hfinite, word, _, hresult, hstored.read?_eq, rfl, ?_⟩
  rw [x.length_fractionDigits_numeral]
  exact Binary64.isNearest_rounded_iff hfinite

/-- A double that is displayed with all the digits that are stored. -/
theorem bind_numeric_survives_last_digit :
    let x : Binary64 := .ofDecimal true ⟨1234567890123457, -28⟩
    ∃ word q, bind (.float x) (.builtin .numeric) = .ok (some word) ∧
      Numeric.read? word = some q ∧ x.IsNearest q := by
  intro x
  have hbind : bind (.float x) (.builtin .numeric) = .ok (some (Numeric.bytes
      ⟨[1234, 5678, 9012, 3457], -4, true, 28⟩)) :=
    bind_float_numeric_eq_ok_iff.mpr ⟨by decide +kernel, _, by decide +kernel, rfl⟩
  obtain ⟨-, word, q, hword, hread, -, hiff⟩ := bind_numeric_survives_iff hbind
  exact ⟨word, q, by rw [hbind, hword], hread, hiff.mpr (by decide +kernel)⟩

/-- Nothing is stored of a double that is displayed with nothing but zeros among these digits. -/
theorem bind_numeric_vanishes :
    let x : Binary64 := .ofDecimal false ⟨1, -30⟩
    x.isFinite = true ∧ ∃ word, bind (.float x) (.builtin .numeric) = .ok (some word) ∧
      Numeric.read? word = some 0 ∧ ¬x.IsNearest 0 := by
  intro x
  have hbind : bind (.float x) (.builtin .numeric) = .ok (some (Numeric.bytes ⟨[], 0, false, 0⟩)) :=
    bind_float_numeric_eq_ok_iff.mpr ⟨by decide +kernel, _, by decide +kernel, rfl⟩
  have hread : Numeric.read? (Numeric.bytes ⟨[], 0, false, 0⟩) = some 0 := by
    rw [Numeric.read?, Numeric.ofBytes?_bytes ⟨by simp, by decide, by decide, by decide, by decide⟩]
    rfl
  refine ⟨by decide +kernel, _, hbind, hread, ?_⟩
  intro hnear
  have hsigned : x.IsNearest (signed false 0) := hnear
  have hcode : FloatFormat.double.IsNearest (0 * FloatFormat.double.one) x.code :=
    hsigned.code le_rfl
  have hzero : FloatFormat.double.IsNearest (0 * FloatFormat.double.one) 0 :=
    FloatFormat.isNearest_zero (zero_mul _).ge ((zero_mul _).trans_lt one_half_pos)
  have hne : x.code ≠ 0 := by decide +kernel
  exact hne (hcode.unique hzero)

end Value

end TenantSql
