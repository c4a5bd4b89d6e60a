import Mathlib.Algebra.Order.Floor.Semifield
import Mathlib.Data.List.TakeWhile
import Mathlib.Data.Nat.Digits.Lemmas
import Mathlib.Data.Rat.Floor
import TenantSql.Proofs.IntegerBytes
import TenantSql.Proofs.Rounding
/-!
# TenantSql.Proofs.NumericWire

Stored numbers are read back from their bytes.

`Numeric.ofBytes?` reads the header and the groups, and refuses bytes that do not hold
together; `Numeric.value` is the number that groups, weight and sign stand for. Filling
up the last group and dropping groups of zeros change no number (`value_ofScaled`), so
what is lost on the way is lost in `Numeric.scaled` alone, which rounds to the number of
digits that are stored (`scaled_eq_floor`).
-/

namespace TenantSql

namespace Numeric

/-! ### The number that groups stand for -/

/-- What groups count, the first one in a power of ten thousand and each further one in the power
below. -/
def magnitude (weight : Int) : List Nat → ℚ
  | [] => 0
  | g :: gs => g * 10000 ^ weight + magnitude (weight - 1) gs

/-- The number that is stored. -/
def value (n : Numeric) : ℚ := signed n.negative (magnitude n.weight n.groups)

theorem magnitude_append (weight : Int) (gs hs : List Nat) :
    magnitude weight (gs ++ hs) = magnitude weight gs + magnitude (weight - gs.length) hs := by
  induction gs generalizing weight with
  | nil => simp [magnitude]
  | cons g gs ih =>
    have hweight : weight - 1 - gs.length = weight - (g :: gs).length := by
      rw [List.length_cons]
      omega
    rw [List.cons_append, magnitude, magnitude, ih, hweight, add_assoc]

theorem magnitude_of_zeros (weight : Int) {gs : List Nat} (h : ∀ g ∈ gs, g = 0) :
    magnitude weight gs = 0 := by
  induction gs generalizing weight with
  | nil => rfl
  | cons g gs ih =>
    obtain ⟨rfl, hrest⟩ := List.forall_mem_cons.mp h
    rw [magnitude, ih (weight - 1) hrest, Nat.cast_zero, zero_mul, zero_add]

/-- Digits in base ten thousand, most significant first, are groups. -/
theorem magnitude_reverse (weight : Int) (ds : List Nat) :
    magnitude weight ds.reverse =
      (Nat.ofDigits 10000 ds : ℕ) * 10000 ^ (weight + 1 - ds.length) := by
  have hbase : (10000 : ℚ) ≠ 0 := by norm_num
  induction ds with
  | nil => simp [magnitude]
  | cons d ds ih =>
    have hstep : weight + 1 - (ds.length : Int) = 1 + (weight - ds.length) := by omega
    have hlength : weight + 1 - ((d :: ds).length : Int) = weight - ds.length := by
      rw [List.length_cons]
      omega
    rw [List.reverse_cons, magnitude_append, ih, List.length_reverse, hlength, hstep,
      zpow_add₀ hbase, zpow_one, Nat.ofDigits_cons, magnitude, magnitude]
    push_cast
    ring

theorem groupsWithin_eq {limit n : Nat} (h : n ≤ limit) :
    groupsWithin limit n = (Nat.digits 10000 n).reverse := by
  induction limit generalizing n with
  | zero =>
    rw [Nat.le_zero.mp h]
    simp [groupsWithin]
  | succ limit ih =>
    rw [groupsWithin]
    split
    · rename_i hzero
      simp [hzero]
    · rename_i hpos
      rw [Nat.digits_def' (by decide) (Nat.pos_of_ne_zero hpos), List.reverse_cons,
        ih (by omega)]

/-- The groups of a number are its digits in base ten thousand. -/
theorem groupsOf_eq (n : Nat) : groupsOf n = (Nat.digits 10000 n).reverse :=
  groupsWithin_eq le_rfl

theorem magnitude_groupsOf (weight : Int) (n : Nat) :
    magnitude weight (groupsOf n) = n * 10000 ^ (weight + 1 - (groupsOf n).length) := by
  rw [groupsOf_eq, magnitude_reverse, Nat.ofDigits_digits, List.length_reverse]

/-- Only zeros are dropped from the end. -/
theorem dropTrailingZeros_append_zeros (limit : Nat) (gs : List Nat) :
    ∃ zeros, gs = dropTrailingZeros limit gs ++ zeros ∧ ∀ g ∈ zeros, g = 0 := by
  refine ⟨_, (List.take_append_drop _ gs).symm, fun g hg => ?_⟩
  have hlength := (List.takeWhile_prefix (l := gs.reverse) (· == 0)).length_le
  rw [List.length_reverse] at hlength
  -- What is dropped is a part of the zeros that the reversed list begins with.
  have hg' := List.mem_reverse.mpr hg
  rw [List.reverse_drop] at hg'
  have hmem : g ∈ gs.reverse.take (gs.reverse.takeWhile (· == 0)).length :=
    List.take_subset_take_left gs.reverse (by omega) hg'
  rw [← List.prefix_iff_eq_take.mp (List.takeWhile_prefix _)] at hmem
  have hzero : (g == 0) = true := List.mem_takeWhile_imp (p := (· == 0)) hmem
  exact beq_iff_eq.mp hzero

/-- The stored form of a scaled number has the groups of the number filled up to whole groups, all
of them or without zeros at the end. -/
theorem ofScaled_eq (negative : Bool) {mantissa : Nat} (h : mantissa ≠ 0) (scale : Nat) :
    ∃ gs zeros, groupsOf (mantissa * tenPow (4 * ((scale + 3) / 4) - scale)) = gs ++ zeros ∧
      (∀ g ∈ zeros, g = 0) ∧ ofScaled negative mantissa scale =
        ⟨gs, ((gs ++ zeros).length : Int) - ((scale + 3) / 4 : ℕ) - 1, negative, scale⟩ := by
  unfold ofScaled
  rw [if_neg h]
  dsimp only
  generalize groupsOf (mantissa * tenPow (4 * ((scale + 3) / 4) - scale)) = all
  split
  · obtain ⟨zeros, hall, hzeros⟩ := dropTrailingZeros_append_zeros ((scale + 3) / 4) all
    exact ⟨_, zeros, hall, hzeros, by rw [← hall]⟩
  · exact ⟨all, [], (List.append_nil all).symm, by simp, by rw [List.append_nil]⟩

/-- The groups of a scaled number stand for it, whatever is filled up and dropped. -/
theorem value_ofScaled (negative : Bool) (mantissa scale : Nat) :
    (ofScaled negative mantissa scale).value = signed negative (mantissa / 10 ^ scale) := by
  by_cases hzero : mantissa = 0
  · rw [hzero, Nat.cast_zero, zero_div, signed_zero]
    rfl
  obtain ⟨gs, zeros, hgroups, hzeros, heq⟩ := ofScaled_eq negative hzero scale
  have hall := magnitude_append (((gs ++ zeros).length : Int) - ((scale + 3) / 4 : ℕ) - 1) gs zeros
  rw [magnitude_of_zeros _ hzeros, add_zero, ← hgroups, magnitude_groupsOf, hgroups] at hall
  have hweight : ((gs ++ zeros).length : Int) - ((scale + 3) / 4 : ℕ) - 1 + 1 -
      (gs ++ zeros).length = -((scale + 3) / 4 : ℕ) := by omega
  have hpower : (10000 : ℚ) ^ ((scale + 3) / 4) =
      10 ^ (4 * ((scale + 3) / 4) - scale) * 10 ^ scale := by
    rw [← pow_add, Nat.sub_add_cancel (by omega), pow_mul]
    norm_num
  rw [heq, value, ← hall, hweight, zpow_neg, zpow_natCast, hpower, Nat.cast_mul, cast_tenPow]
  congr 1
  field_simp

/-- An integer is stored as it is. -/
theorem value_ofInt (n : Int) : (ofInt n).value = n := by
  rw [ofInt, value_ofScaled, pow_zero, div_one, Nat.cast_natAbs, Int.cast_abs]
  have hsign : decide (n < 0) = decide ((n : ℚ) < 0) := by simp
  rw [hsign, BinaryFloat.signed_abs]

/-! ### Rounding to the digits that are stored -/

theorem floor_add_half (n : Nat) : ⌊(n : ℚ) + 1 / 2⌋₊ = n :=
  (Nat.floor_eq_iff (by positivity)).mpr ⟨by linarith, by linarith⟩

/-- A decimal is rounded half up at the last place that is stored, and has no digits behind it if
they all are. -/
theorem scaled_eq_floor (d : Decimal) :
    (scaled d).1 = ⌊d.value * 10 ^ (scaled d).2 + 1 / 2⌋₊ := by
  unfold scaled
  split
  · have hden : ((10 : ℚ) ^ d.places) ≠ 0 := pow_ne_zero _ (by norm_num)
    have hnum : d.value * 10 ^ d.places = d.num := by
      rw [← d.num_div_den, Decimal.den, cast_tenPow, ← Decimal.places, div_mul_cancel₀ _ hden]
    rw [hnum, floor_add_half]
  · rename_i hplaces
    dsimp only
    have hexponent : d.exponent = -(d.places : Int) := by
      unfold Decimal.places at hplaces ⊢
      omega
    have hpower : (10 : ℚ) ^ d.places = tenPow (d.places - maxScale) * 10 ^ maxScale := by
      rw [cast_tenPow, ← pow_add, Nat.sub_add_cancel (by omega)]
    have hpos := tenPow_pos (d.places - maxScale)
    generalize tenPow (d.places - maxScale) = cut at hpower hpos
    have hcut : (cut : ℚ) ≠ 0 := Nat.cast_ne_zero.mpr hpos.ne'
    have hquotient : d.value * 10 ^ maxScale + 1 / 2 =
        ((2 * d.coefficient + cut : ℕ) : ℚ) / (2 * cut : ℕ) := by
      rw [Decimal.value, hexponent, zpow_neg, zpow_natCast, hpower]
      push_cast
      field_simp
    rw [hquotient, Nat.floor_div_eq_div]

theorem scale_le (d : Decimal) : (scaled d).2 ≤ maxScale := by
  unfold scaled
  split
  · assumption
  · exact le_rfl

/-- What is lost is at most half of the last place. -/
theorem abs_scaled_sub_le (d : Decimal) :
    |((scaled d).1 : ℚ) - d.value * 10 ^ (scaled d).2| ≤ 1 / 2 := by
  have hnonneg : 0 ≤ d.value * 10 ^ (scaled d).2 + 1 / 2 := by
    have := d.value_nonneg
    positivity
  have hle := Nat.floor_le hnonneg
  have hlt := Nat.lt_floor_add_one (d.value * 10 ^ (scaled d).2 + 1 / 2)
  rw [← scaled_eq_floor] at hle hlt
  exact abs_le.mpr ⟨by linarith, by linarith⟩

/-- Nothing is lost of an integer. -/
theorem scaled_of_integer {d : Decimal} {n : Nat} (h : d.value = n) :
    ((scaled d).1 : ℚ) / 10 ^ (scaled d).2 = n := by
  have hpos : (10 : ℚ) ^ (scaled d).2 ≠ 0 := pow_ne_zero _ (by norm_num)
  have hwhole : d.value * 10 ^ (scaled d).2 = (n * 10 ^ (scaled d).2 : ℕ) := by
    rw [h]
    push_cast
    ring
  rw [scaled_eq_floor, hwhole, floor_add_half, ← hwhole, h, mul_div_cancel_right₀ _ hpos]

/-- The stored form of a signed decimal is the decimal rounded to the digits that are stored. -/
theorem value_of_ofDecimal? {negative : Bool} {d : Decimal} {n : Numeric}
    (h : ofDecimal? negative d = some n) :
    n.value = signed negative ((scaled d).1 / 10 ^ (scaled d).2) := by
  unfold ofDecimal? at h
  dsimp only at h
  split at h
  · cases h
    exact value_ofScaled _ _ _
  · cases h

/-- A decimal that is small enough after rounding has a stored form. -/
theorem exists_ofDecimal? (negative : Bool) {d : Decimal} (h : d.value < 2 ^ 96 - 1) :
    ∃ n, ofDecimal? negative d = some n := by
  have hfits : (scaled d).1 / tenPow (scaled d).2 < twoPow wholeBits := by
    have hten : (1 : ℚ) ≤ 10 ^ (scaled d).2 := one_le_pow₀ (by norm_num)
    have hmantissa := (abs_le.mp (abs_scaled_sub_le d)).2
    have hbound : d.value * 10 ^ (scaled d).2 ≤ (2 ^ 96 - 1) * 10 ^ (scaled d).2 := by gcongr
    have hlt : ((scaled d).1 : ℚ) < (twoPow wholeBits * tenPow (scaled d).2 : ℕ) := by
      rw [Nat.cast_mul, cast_tenPow, cast_twoPow, wholeBits]
      linarith
    exact (Nat.div_lt_iff_lt_mul (tenPow_pos _)).mpr (Nat.cast_lt.mp hlt)
  exact ⟨_, if_pos hfits⟩

/-! ### Bytes -/

/-- The numbers of two bytes each that bytes make up; none may be left over. -/
def words? : List UInt8 → Option (List Nat)
  | [] => some []
  | [_] => none
  | high :: low :: rest => (words? rest).map (ofBigEndian [high, low] :: ·)

/-- Reads a stored number: how many groups there are, the weight of the first one, the sign, the
number of digits behind the point, and then the groups. -/
def ofBytes? : List UInt8 → Option Numeric
  | c :: c' :: w :: w' :: s :: s' :: p :: p' :: rest =>
    (words? rest).bind fun groups =>
      let sign := ofBigEndian [s, s']
      if groups.length = ofBigEndian [c, c'] ∧ (∀ g ∈ groups, g < 10000) ∧
          (sign = 0 ∨ sign = 0x4000) then
        some ⟨groups, ofTwosComplement [w, w'], sign = 0x4000, ofBigEndian [p, p']⟩
      else none
  | _ => none

/-- The number that bytes store. -/
def read? (bytes : List UInt8) : Option ℚ :=
  (ofBytes? bytes).map value

/-- The parts of a stored number have room in the two bytes that each of them gets. -/
structure Fits (n : Numeric) : Prop where
  group_lt : ∀ g ∈ n.groups, g < 10000
  length_lt : n.groups.length < 2 ^ 16
  le_weight : -(2 ^ 15) ≤ n.weight
  weight_lt : n.weight < 2 ^ 15
  scale_lt : n.scale < 2 ^ 16

theorem ofBigEndian_two {n : Nat} (h : n < 2 ^ 16) : ofBigEndian (bigEndian 2 n) = n := by
  rw [ofBigEndian_bigEndian]
  exact Nat.mod_eq_of_lt h

theorem words?_flatMap {gs : List Nat} (h : ∀ g ∈ gs, g < 10000) :
    words? (gs.flatMap (bigEndian 2)) = some gs := by
  induction gs with
  | nil => rfl
  | cons g gs ih =>
    obtain ⟨hg, hgs⟩ := List.forall_mem_cons.mp h
    have hword : words? (bigEndian 2 g ++ gs.flatMap (bigEndian 2)) =
        (words? (gs.flatMap (bigEndian 2))).map (ofBigEndian (bigEndian 2 g) :: ·) := rfl
    rw [List.flatMap_cons, hword, ih hgs, ofBigEndian_two (by omega)]
    rfl

/-- A stored number that has room in its bytes is read back from them. -/
theorem ofBytes?_bytes {n : Numeric} (h : n.Fits) : ofBytes? n.bytes = some n := by
  obtain ⟨groups, weight, negative, scale⟩ := n
  have hweight : ofTwosComplement (twosComplement 2 weight) = weight := by
    have hpow : (twoPow (8 * 2) : Int) = 2 * 2 ^ 15 := by decide
    have hlow : -(2 ^ 15) ≤ weight := h.le_weight
    have hhigh : weight < 2 ^ 15 := h.weight_lt
    exact ofTwosComplement_twosComplement (by omega) (by omega)
  have hsign : ofBigEndian (bigEndian 2 (if negative then 0x4000 else 0)) =
      if negative then 0x4000 else 0 := by
    cases negative <;> decide
  -- The header is the first eight bytes, two for each of its parts.
  have hheader : ofBytes? (bytes ⟨groups, weight, negative, scale⟩) =
      (words? (groups.flatMap (bigEndian 2))).bind fun read =>
        let sign := ofBigEndian (bigEndian 2 (if negative then 0x4000 else 0))
        if read.length = ofBigEndian (bigEndian 2 groups.length) ∧ (∀ g ∈ read, g < 10000) ∧
            (sign = 0 ∨ sign = 0x4000) then
          some ⟨read, ofTwosComplement (twosComplement 2 weight), sign = 0x4000,
            ofBigEndian (bigEndian 2 scale)⟩
        else none := rfl
  rw [hheader, words?_flatMap h.group_lt, hweight, hsign, ofBigEndian_two h.length_lt,
    ofBigEndian_two h.scale_lt, Option.bind_some]
  cases negative <;> simpa using h.group_lt

/-- A scaled number of at most sixty digits has room in its bytes. -/
theorem fits_ofScaled (negative : Bool) {mantissa scale : Nat} (hmantissa : mantissa < 10 ^ 60)
    (hscale : scale ≤ maxScale) : (ofScaled negative mantissa scale).Fits := by
  have hsmall : scale ≤ 28 := hscale
  by_cases hzero : mantissa = 0
  · have heq : ofScaled negative mantissa scale = ⟨[], 0, false, 0⟩ := if_pos hzero
    rw [heq]
    exact ⟨nofun, by decide, by decide, by decide, by decide⟩
  obtain ⟨gs, zeros, hgroups, -, heq⟩ := ofScaled_eq negative hzero scale
  have hfilled : mantissa * tenPow (4 * ((scale + 3) / 4) - scale) < 10000 ^ 16 := by
    have hfill : tenPow (4 * ((scale + 3) / 4) - scale) ≤ 10 ^ 3 :=
      Nat.pow_le_pow_right (by decide) (by omega)
    calc mantissa * tenPow (4 * ((scale + 3) / 4) - scale)
        ≤ mantissa * 10 ^ 3 := Nat.mul_le_mul_left _ hfill
      _ < 10 ^ 60 * 10 ^ 3 := Nat.mul_lt_mul_of_pos_right hmantissa (by norm_num)
      _ ≤ 10000 ^ 16 := by norm_num
  rw [groupsOf_eq] at hgroups
  have hlength : (gs ++ zeros).length ≤ 16 := by
    rw [← hgroups, List.length_reverse, Nat.digits_length_le_iff (by decide)]
    exact hfilled
  have hlt : ∀ g ∈ gs, g < 10000 := by
    intro g hg
    have hmem := List.mem_append_left zeros hg
    rw [← hgroups, List.mem_reverse] at hmem
    exact Nat.digits_lt_base (by decide) hmem
  have hkept : gs.length ≤ (gs ++ zeros).length := by
    rw [List.length_append]
    omega
  rw [heq]
  exact ⟨hlt, by dsimp only; omega, by dsimp only; omega, by dsimp only; omega,
    by dsimp only; omega⟩

theorem fits_ofInt (i : Int64) : (ofInt i.toInt).Fits := by
  have hlow := i.le_toInt
  have hhigh := i.toInt_lt
  exact fits_ofScaled _ (by norm_num; omega) (by decide)

theorem fits_of_ofDecimal? {negative : Bool} {d : Decimal} {n : Numeric}
    (h : ofDecimal? negative d = some n) : n.Fits := by
  unfold ofDecimal? at h
  dsimp only at h
  split at h
  · rename_i hwhole
    cases h
    have hscale := scale_le d
    have hten : tenPow (scaled d).2 ≤ 10 ^ 28 := Nat.pow_le_pow_right (by decide) hscale
    refine fits_ofScaled _ ?_ hscale
    calc (scaled d).1
        < twoPow wholeBits * tenPow (scaled d).2 := (Nat.div_lt_iff_lt_mul (tenPow_pos _)).mp hwhole
      _ ≤ twoPow wholeBits * 10 ^ 28 := Nat.mul_le_mul_left _ hten
      _ < 10 ^ 60 := by decide
  · cases h

/-- The bytes of a signed decimal store the decimal rounded to the digits that are stored. -/
theorem read?_bytes_of_ofDecimal? {negative : Bool} {d : Decimal} {n : Numeric}
    (h : ofDecimal? negative d = some n) :
    read? n.bytes = some (signed negative ((scaled d).1 / 10 ^ (scaled d).2)) := by
  rw [read?, ofBytes?_bytes (fits_of_ofDecimal? h), Option.map_some, value_of_ofDecimal? h]

end Numeric

/-! ### Binding to stored numbers -/

namespace Value

/-- A 64-bit integer is bound as the number it is. -/
theorem read?_bind_int (i : Int64) : ∃ word, bind (.int i) (.builtin .numeric) = .ok (some word) ∧
    Numeric.read? word = some (i.toInt : ℚ) := by
  refine ⟨(Numeric.ofInt i.toInt).bytes, rfl, ?_⟩
  rw [Numeric.read?, Numeric.ofBytes?_bytes (Numeric.fits_ofInt i), Option.map_some,
    Numeric.value_ofInt]

/-- A double is bound exactly if it is finite and its decimal has a stored form. -/
theorem bind_float_numeric_eq_ok_iff {x : Binary64} {bytes : Option (List UInt8)} :
    bind (.float x) (.builtin .numeric) = .ok bytes ↔
      x.isFinite = true ∧ ∃ n, Numeric.ofDecimal? x.negative x.decimal = some n ∧
        bytes = some n.bytes := by
  have hbind : bind (.float x) (.builtin .numeric) = (bindNumeric x).map some := rfl
  rw [hbind, bindNumeric]
  cases x.isFinite with
  | false => simp [Except.map]
  | true =>
    cases Numeric.ofDecimal? x.negative x.decimal with
    | none => simp [Except.map]
    | some n => simp [Except.map, eq_comm]

end Value

end TenantSql
