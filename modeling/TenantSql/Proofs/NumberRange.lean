import TenantSql.Proofs.IntegerBinding
import TenantSql.Proofs.NumericColumn
/-!
# TenantSql.Proofs.NumberRange

Which numbers are beyond a type of numbers, and what a column of the type reads of the
others.

Bytes of a floating-point type may say that there is an infinity, or no number at all, so
what is read of bytes is a `Reading`. A nearest number is infinite exactly from the middle
between the largest number of the format and the one above it on, as a tie goes to the
even code, which is infinity's (`BinaryFloat.IsNearest.isFinite_iff`). Integers and
doubles never get that far in double precision.

All types but single precision refuse what is beyond them. There a double is rounded, and
from `2 ^ 128 - 2 ^ 103` on its column reads an infinity
(`Value.bind_double_beyond_single`).
-/

namespace TenantSql

/-! ### From where on numbers are rounded to infinity -/

theorem signed_left_injective {a : ℚ} (ha : a ≠ 0) {negative other : Bool}
    (h : signed negative a = signed other a) : negative = other := by
  cases negative <;> cases other
  · rfl
  · exact absurd (self_eq_neg.mp h) ha
  · exact absurd (neg_eq_self.mp h) ha
  · rfl

namespace FloatFormat

variable {f : FloatFormat}

variable (f) in
/-- Half way between the largest number and the one that the code of infinity would stand for. -/
def overflow : ℚ := (f.units (f.infinityCode - 1) + f.units f.infinityCode) / (2 * f.one)

theorem infinityCode_pos (he : 0 < f.exponentBits) : 0 < f.infinityCode := by
  have hone : 1 < twoPow f.exponentBits := Nat.one_lt_two_pow he.ne'
  exact Nat.mul_pos (Nat.sub_pos_of_lt hone) (twoPow_pos _)

theorem even_infinityCode (hf : 0 < f.fractionBits) : Even f.infinityCode :=
  Nat.even_iff.mpr (code_mod_two hf (twoPow f.exponentBits - 1) 0)

/-- The code of infinity is the nearest one from half way on. It is even, so it gets the tie. -/
theorem IsNearest.eq_infinityCode_iff {x : ℚ} {code : Nat} (h : f.IsNearest x code)
    (hf : 0 < f.fractionBits) (he : 0 < f.exponentBits) :
    code = f.infinityCode ↔ f.overflow * f.one ≤ x := by
  have hpos := infinityCode_pos he
  have heven := even_infinityCode hf
  have hone : (f.one : ℚ) ≠ 0 := Nat.cast_ne_zero.mpr (twoPow_pos _).ne'
  have hmiddle : f.overflow * f.one =
      (f.units (f.infinityCode - 1) + f.units f.infinityCode) / 2 := by
    rw [overflow]
    field_simp
  rw [hmiddle]
  obtain ⟨hcode, hnear⟩ := h
  have hgap : (f.units (f.infinityCode - 1) : ℚ) < f.units f.infinityCode :=
    cast_units_lt (Nat.sub_lt hpos Nat.one_pos)
  constructor
  · rintro rfl
    -- Below the middle the largest number would be nearer.
    have hle := (hnear (f.infinityCode - 1) (Nat.sub_le _ _)).1
    by_contra hlt
    rw [abs_sub_comm, abs_of_pos (by linarith)] at hle
    rcases le_abs.mp hle with hle | hle <;> linarith
  · intro hx
    by_contra hne
    have hbelow : code ≤ f.infinityCode - 1 :=
      Nat.le_sub_one_of_lt (Nat.lt_of_le_of_ne hcode hne)
    have hunits : (f.units code : ℚ) ≤ f.units (f.infinityCode - 1) := cast_units_le hbelow
    obtain ⟨hle, htie⟩ := hnear f.infinityCode le_rfl
    have hdist : |x - f.units code| = x - f.units code := abs_of_nonneg (by linarith)
    have hdist' : |x - f.units f.infinityCode| ≤ x - f.units (f.infinityCode - 1) :=
      abs_le.mpr ⟨by linarith, by linarith⟩
    rw [hdist] at hle htie
    -- Only the largest number is as near, and its code is odd.
    have hsame : (f.units code : ℚ) = f.units (f.infinityCode - 1) := by linarith
    have hodd : code = f.infinityCode - 1 :=
      f.units_strictMono.injective (Nat.cast_injective hsame)
    rcases htie (by linarith) with heq | hcode
    · exact hne heq.symm
    · rw [hodd] at hcode
      obtain ⟨m, hm⟩ := heven
      obtain ⟨n, hn⟩ := hcode
      omega

/-- The middle as a power of two less half of the last place. -/
theorem overflow_eq {t : Nat} (ht : f.unitExponent + t + 4 = twoPow f.exponentBits) :
    f.overflow = 2 ^ (f.fractionBits + t + 2) - 2 ^ t := by
  have hpos : 0 < twoPow f.fractionBits := twoPow_pos _
  have hcode : f.infinityCode =
      (f.unitExponent + t + 1) * twoPow f.fractionBits + 2 * twoPow f.fractionBits := by
    have hfield : twoPow f.exponentBits - 1 = f.unitExponent + t + 1 + 2 := by omega
    rw [infinityCode, hfield, Nat.add_mul]
  have hbelow : f.infinityCode - 1 =
      (f.unitExponent + t + 1) * twoPow f.fractionBits + (2 * twoPow f.fractionBits - 1) := by
    omega
  have hlargest := f.units_eq (s := f.unitExponent + t + 1) (m := 2 * twoPow f.fractionBits - 1)
    (.inr (by omega)) (Nat.sub_le _ _)
  have hinfinity := f.units_eq (s := f.unitExponent + t + 1) (.inr (by omega)) le_rfl
  have htwo : (1 : Nat) ≤ 2 * twoPow f.fractionBits := by omega
  rw [overflow, hbelow, hlargest, hcode, hinfinity, f.cast_one]
  push_cast [htwo]
  rw [cast_twoPow, cast_twoPow]
  field_simp
  ring

theorem overflow_single : single.overflow = 2 ^ 128 - 2 ^ 103 := by
  have ht : single.unitExponent + 103 + 4 = twoPow single.exponentBits := by decide +kernel
  have hbits : single.fractionBits + 103 + 2 = 128 := rfl
  rw [overflow_eq ht, hbits]

theorem overflow_double : double.overflow = 2 ^ 1024 - 2 ^ 970 := by
  have ht : double.unitExponent + 970 + 4 = twoPow double.exponentBits := by decide +kernel
  have hbits : double.fractionBits + 970 + 2 = 1024 := rfl
  rw [overflow_eq ht, hbits]

end FloatFormat

namespace BinaryFloat

variable {f : FloatFormat}

/-- A number is the nearest one to itself. -/
theorem isNearest_value {x : BinaryFloat f} (hx : x.isNaN = false) : x.IsNearest x.value := by
  refine ⟨hx, fun z _ => ?_⟩
  rw [sub_self, abs_zero]
  exact ⟨abs_nonneg _, fun heq => .inl (sub_eq_zero.mp (abs_eq_zero.mp heq.symm)).symm⟩

theorem IsNearest.isFinite_iff {y : BinaryFloat f} {x : ℚ} (h : y.IsNearest x)
    (hf : 0 < f.fractionBits) (he : 0 < f.exponentBits) :
    y.isFinite = true ↔ |x| < f.overflow := by
  have hone : (0 : ℚ) < f.one := Nat.cast_pos.mpr (twoPow_pos _)
  rw [← signed_abs x] at h
  have hcode := h.code (abs_nonneg x)
  rw [isFinite, decide_eq_true_eq, hcode.1.lt_iff_ne, ne_eq, hcode.eq_infinityCode_iff hf he,
    not_le, mul_lt_mul_iff_left₀ hone]

/-- The nearest number has the sign of the number it is near to, unless it is a zero. -/
theorem IsNearest.negative_eq {y : BinaryFloat f} {x : ℚ} (h : y.IsNearest x) (h0 : y.value ≠ 0) :
    y.negative = decide (x < 0) := by
  have habs : (0 : ℚ) ≤ |x| := abs_nonneg x
  rw [← signed_abs x] at h
  have hvalue : signed y.negative (y.units / f.one) =
      signed (decide (x < 0)) (y.units / f.one) := h.value_eq_signed habs
  refine signed_left_injective (fun hzero => h0 ?_) hvalue
  rw [value, hzero, signed_zero]

/-- An integer is rounded to the nearest number. -/
theorem isNearest_ofInt (hf : 0 < f.fractionBits) (n : Int) :
    (ofInt n : BinaryFloat f).IsNearest n := by
  have hnear := FloatFormat.isNearest_nearest hf (n.natAbs * f.one) Nat.one_pos
  rw [Nat.cast_one, div_one, Nat.cast_mul, Nat.cast_natAbs, Int.cast_abs] at hnear
  have hsigned : (ofCode (decide ((n : ℚ) < 0)) _ hnear.1 : BinaryFloat f).IsNearest
      (signed (decide ((n : ℚ) < 0)) |(n : ℚ)|) := isNearest_ofCode (abs_nonneg _) hnear
  rw [signed_abs] at hsigned
  have hsign : decide (n < 0) = decide ((n : ℚ) < 0) := by simp
  rw [ofInt]
  simpa only [hsign] using hsigned

end BinaryFloat

/-- A double is rounded to the nearest number of single precision. -/
theorem Binary64.isNearest_toSingle {x : Binary64} (hx : x.isFinite = true) :
    x.toSingle.IsNearest x.value := by
  have hnan : x.isNaN = false := BinaryFloat.isNaN_of_isFinite hx
  have hone : 0 < FloatFormat.double.one := twoPow_pos _
  have hbits : 0 < FloatFormat.single.fractionBits := by decide
  have hnear := FloatFormat.isNearest_nearest hbits (x.units * FloatFormat.single.one) hone
  rw [Nat.cast_mul, mul_div_right_comm] at hnear
  have hsigned : (BinaryFloat.ofCode x.negative _ hnear.1 : Binary32).IsNearest
      (signed x.negative (x.units / FloatFormat.double.one)) :=
    BinaryFloat.isNearest_ofCode (div_nonneg (Nat.cast_nonneg _) (Nat.cast_nonneg _)) hnear
  unfold toSingle BinaryFloat.value
  simpa only [hnan, hx, Bool.false_eq_true, if_true, if_false, dite_false] using hsigned

/-! ### Reading bytes -/

/-- What bytes say in a column of numbers. -/
inductive Reading where
  | number (q : ℚ)
  | infinity (negative : Bool)
  | notANumber

namespace BinaryFloat

variable {f : FloatFormat}

/-- The float of bits: the top one is the sign, and the others are the code. -/
def ofBits (bits : Nat) : BinaryFloat f :=
  ⟨twoPow f.codeBits ≤ bits, bits % twoPow f.codeBits, Nat.mod_lt _ (twoPow_pos _)⟩

/-- The float of bytes, most significant first. -/
def ofBytes? (f : FloatFormat) (bytes : List UInt8) : Option (BinaryFloat f) :=
  if 8 * bytes.length = f.codeBits + 1 then some (ofBits (ofBigEndian bytes)) else none

/-- What a float says. -/
def reading (x : BinaryFloat f) : Reading :=
  if x.isNaN then .notANumber
  else if x.isFinite then .number x.value
  else .infinity x.negative

theorem ofBits_bits (x : BinaryFloat f) : ofBits x.bits = x := by
  obtain ⟨negative, code, hcode⟩ := x
  cases negative
  · simp [ofBits, bits, Nat.mod_eq_of_lt hcode, hcode]
  · simp [ofBits, bits, Nat.mod_eq_of_lt hcode]

theorem bits_lt (x : BinaryFloat f) : x.bits < twoPow (f.codeBits + 1) := by
  have htop : twoPow (f.codeBits + 1) = twoPow f.codeBits * 2 := twoPow_add _ 1
  have hcode := x.code_lt
  unfold bits
  split <;> omega

/-- A float of whole bytes is read back from them. -/
theorem ofBytes?_bytes (hf : 8 ∣ f.codeBits + 1) (x : BinaryFloat f) :
    ofBytes? f x.bytes = some x := by
  have hwidth : 8 * ((f.codeBits + 1) / 8) = f.codeBits + 1 := Nat.mul_div_cancel' hf
  unfold ofBytes? bytes
  rw [length_bigEndian, if_pos hwidth, ofBigEndian_bigEndian, hwidth, Nat.mod_eq_of_lt x.bits_lt,
    ofBits_bits]

/-- A nearest number below the middle is read as a number. -/
theorem IsNearest.reading_of_lt {y : BinaryFloat f} {x : ℚ} (h : y.IsNearest x)
    (hf : 0 < f.fractionBits) (he : 0 < f.exponentBits) (hx : |x| < f.overflow) :
    y.reading = .number y.value := by
  simp [reading, h.1, (h.isFinite_iff hf he).mpr hx]

/-- From the middle on it is read as an infinity. -/
theorem IsNearest.reading_of_le {y : BinaryFloat f} {x : ℚ} (h : y.IsNearest x)
    (hf : 0 < f.fractionBits) (he : 0 < f.exponentBits) (hx : f.overflow ≤ |x|) :
    y.reading = .infinity (x < 0) := by
  have hinfinite : y.isFinite = false :=
    Bool.eq_false_iff.mpr fun hfinite => absurd ((h.isFinite_iff hf he).mp hfinite) (not_lt.mpr hx)
  have hcode : f.infinityCode ≤ y.code := Nat.not_lt.mp (of_decide_eq_false hinfinite)
  have hunits : (0 : ℚ) < y.units := by
    have hlt := f.units_strictMono ((FloatFormat.infinityCode_pos he).trans_le hcode)
    rw [f.units_zero] at hlt
    exact Nat.cast_pos.mpr hlt
  have hvalue : y.value ≠ 0 := by
    rw [← abs_pos, y.abs_value]
    exact div_pos hunits (Nat.cast_pos.mpr (twoPow_pos _))
  simp [reading, h.1, hinfinite, h.negative_eq hvalue]

end BinaryFloat

namespace BuiltinType

/-- What a column of a type of numbers reads of bytes, if they are bytes of the type. -/
def read? (type : BuiltinType) (word : List UInt8) : Option Reading :=
  match type with
  | .float4 => (BinaryFloat.ofBytes? .single word).map BinaryFloat.reading
  | .float8 => (BinaryFloat.ofBytes? .double word).map BinaryFloat.reading
  | .numeric => (Numeric.read? word).map .number
  | type =>
    if type.integerWidth? = some word.length then some (.number (ofTwosComplement word)) else none

/-- The number is too large for a type of numbers, or too small: it is outside of the range of the
integers, it is rounded to an infinity, or its whole part has too many bits. -/
def Beyond (type : BuiltinType) (q : ℚ) : Prop :=
  match type with
  | .float4 => 2 ^ 128 - 2 ^ 103 ≤ |q|
  | .float8 => 2 ^ 1024 - 2 ^ 970 ≤ |q|
  | .numeric => 2 ^ 96 ≤ |q|
  | type => ∃ width, type.integerWidth? = some width ∧
      (q < -2 ^ (8 * width - 1) ∨ 2 ^ (8 * width - 1) ≤ q)

variable {type : BuiltinType} {width : Nat}

theorem takesNumbers_iff : (PgType.builtin type).takesNumbers = true ↔
    type = .float4 ∨ type = .float8 ∨ type = .numeric ∨
      ∃ width, type.integerWidth? = some width := by
  cases type <;> simp [PgType.takesNumbers, integerWidth?]

theorem read?_of_integerWidth? {word : List UInt8} (h : type.integerWidth? = some word.length) :
    type.read? word = some (.number (ofTwosComplement word)) := by
  rcases integerWidth?_eq_some_iff.mp h with ⟨rfl, -⟩ | ⟨rfl, -⟩ | ⟨rfl, -⟩
  · exact if_pos h
  · exact if_pos h
  · exact if_pos h

/-- An integer is beyond a type of integers exactly if it has no place in it. -/
theorem beyond_intCast_iff (hwidth : type.integerWidth? = some width) (n : Int) :
    type.Beyond n ↔ ¬FitsWidth width n := by
  have hends : type.Beyond n ↔
      ((n : ℚ) < -2 ^ (8 * width - 1) ∨ 2 ^ (8 * width - 1) ≤ (n : ℚ)) := by
    rcases integerWidth?_eq_some_iff.mp hwidth with ⟨rfl, rfl⟩ | ⟨rfl, rfl⟩ | ⟨rfl, rfl⟩ <;>
      simp [Beyond, integerWidth?]
  rw [hends, FitsWidth, not_and_or, not_le, not_lt]
  exact or_congr (by norm_cast) (by norm_cast)

end BuiltinType

/-! ### What is bound to each type -/

namespace Binary64

/-- Doubles of one magnitude are displayed with one decimal. -/
theorem decimal_eq_of_abs_value_eq {x y : Binary64} (h : |x.value| = |y.value|) :
    x.decimal = y.decimal := by
  have hone : (FloatFormat.double.one : ℚ) ≠ 0 := Nat.cast_ne_zero.mpr (twoPow_pos _).ne'
  rw [x.abs_value, y.abs_value, div_left_inj' hone, Nat.cast_inj] at h
  have hcode : x.code = y.code := FloatFormat.double.units_strictMono.injective h
  rw [decimal, decimal, hcode]

/-- A double is below a power of two if what is displayed of it is not above, as long as the power
itself is displayed above: it is the only other double that could be near enough. -/
theorem abs_value_lt_two_pow {x power : Binary64} {k : Nat} (hx : x.isFinite = true)
    (hk : k ≤ 1023) (hpower : power.value = 2 ^ k) (hdisplayed : 2 ^ k < power.decimal.value)
    (h : x.decimal.value ≤ 2 ^ k) : |x.value| < 2 ^ k := by
  have hnear := isNearest_numeral (BinaryFloat.isNaN_of_isFinite hx)
  have hle := (abs_value_le_two_pow hnear hk (x.abs_value_numeral.trans_le h)).2
  refine lt_of_le_of_ne hle fun heq => ?_
  have hsame : |x.value| = |power.value| := by rw [heq, hpower, abs_of_nonneg (by positivity)]
  rw [decimal_eq_of_abs_value_eq hsame] at h
  exact absurd h (not_le.mpr hdisplayed)

/-- The number on display has as many bits in front of the point as the stored form takes exactly
if the double has. -/
theorem floor_abs_numeral_lt_iff {x : Binary64} (hx : x.isFinite = true) :
    ⌊|x.numeral.value|⌋₊ < 2 ^ 96 ↔ |x.value| < 2 ^ 96 := by
  let power : Binary64 := .ofInt (2 ^ 96)
  have hpower : power.value = (2 ^ 96 : Int) :=
    ((power.toInt?_eq_some_iff _).mp (by decide +kernel)).2
  have hdecimal : power.decimal = ⟨7922816251426434, 13⟩ := by decide +kernel
  have hdisplayed : 2 ^ 96 < power.decimal.value := by
    rw [hdecimal, Decimal.value]
    norm_num
  rw [x.abs_value_numeral, Nat.floor_lt x.decimal.value_nonneg, Nat.cast_pow, Nat.cast_ofNat]
  constructor
  · intro hlt
    exact abs_value_lt_two_pow hx (by decide) (by exact_mod_cast hpower) hdisplayed hlt.le
  · intro hlt
    exact value_decimal_lt_two_pow hx (by decide) hlt

end Binary64

namespace Value

variable {v : Value} {q : ℚ} {type : BuiltinType} {width : Nat}

/-- Single precision gets the nearest number, be it an infinity. -/
theorem exists_bind_float4 (h : v.number? = some q) :
    ∃ y : Binary32, v.bind (.builtin .float4) = .ok (some y.bytes) ∧ y.IsNearest q := by
  rcases number?_eq_some_iff.mp h with ⟨i, rfl, rfl⟩ | ⟨x, rfl, hfinite, rfl⟩
  · exact ⟨_, rfl, BinaryFloat.isNearest_ofInt (by decide) _⟩
  · exact ⟨_, rfl, Binary64.isNearest_toSingle hfinite⟩

theorem exists_bind_float8 (h : v.number? = some q) :
    ∃ y : Binary64, v.bind (.builtin .float8) = .ok (some y.bytes) ∧ y.IsNearest q := by
  rcases number?_eq_some_iff.mp h with ⟨i, rfl, rfl⟩ | ⟨x, rfl, hfinite, rfl⟩
  · exact ⟨_, rfl, BinaryFloat.isNearest_ofInt (by decide) _⟩
  · exact ⟨x, rfl, BinaryFloat.isNearest_value (BinaryFloat.isNaN_of_isFinite hfinite)⟩

theorem abs_toInt_le (i : Int64) : |(i.toInt : ℚ)| ≤ 2 ^ 63 := by
  rw [← Int.cast_abs]
  exact_mod_cast abs_le.mpr ⟨i.le_toInt, i.toInt_lt.le⟩

/-- No value is rounded to an infinity in double precision. -/
theorem abs_lt_overflow_double (h : v.number? = some q) : |q| < FloatFormat.double.overflow := by
  rcases number?_eq_some_iff.mp h with ⟨i, rfl, rfl⟩ | ⟨x, rfl, hfinite, rfl⟩
  · have hnear := BinaryFloat.isNearest_ofInt (f := .double) (by decide) i.toInt
    exact (hnear.isFinite_iff (by decide) (by decide)).mp
      (Binary64.abs_value_le_two_pow hnear (by decide) (abs_toInt_le i)).1
  · exact ((BinaryFloat.isNearest_value (BinaryFloat.isNaN_of_isFinite hfinite)).isFinite_iff
      (by decide) (by decide)).mp hfinite

/-- Single precision reads an infinity of what is beyond it, and a number of everything else. -/
theorem read?_of_bind_float4 (h : v.number? = some q) {result : Option (List UInt8)}
    (hbind : v.bind (.builtin .float4) = .ok result) :
    ∃ word, result = some word ∧
      (¬BuiltinType.float4.Beyond q → ∃ r, BuiltinType.float4.read? word = some (.number r)) ∧
      (BuiltinType.float4.Beyond q →
        BuiltinType.float4.read? word = some (.infinity (q < 0))) := by
  obtain ⟨y, hy, hnear⟩ := exists_bind_float4 h
  obtain rfl := Except.ok.inj (hy.symm.trans hbind)
  have hread : BuiltinType.float4.read? y.bytes = some y.reading :=
    congrArg (Option.map BinaryFloat.reading) (y.ofBytes?_bytes (by decide))
  have hbeyond : BuiltinType.float4.Beyond q ↔ FloatFormat.single.overflow ≤ |q| := by
    rw [FloatFormat.overflow_single]
    rfl
  refine ⟨_, rfl, fun hwithin => ⟨y.value, ?_⟩, fun hq => ?_⟩
  · have hlt : |q| < FloatFormat.single.overflow := not_le.mp (mt hbeyond.mpr hwithin)
    rw [hread, hnear.reading_of_lt (by decide) (by decide) hlt]
  · rw [hread, hnear.reading_of_le (by decide) (by decide) (hbeyond.mp hq)]

theorem read?_of_bind_float8 (h : v.number? = some q) {result : Option (List UInt8)}
    (hbind : v.bind (.builtin .float8) = .ok result) :
    ∃ word r, result = some word ∧ BuiltinType.float8.read? word = some (.number r) := by
  obtain ⟨y, hy, hnear⟩ := exists_bind_float8 h
  obtain rfl := Except.ok.inj (hy.symm.trans hbind)
  have hread : BuiltinType.float8.read? y.bytes = some y.reading :=
    congrArg (Option.map BinaryFloat.reading) (y.ofBytes?_bytes (by decide))
  refine ⟨_, y.value, rfl, ?_⟩
  rw [hread, hnear.reading_of_lt (by decide) (by decide) (abs_lt_overflow_double h)]

/-- A type of integers takes whole numbers in its range, and the widest one also the number one
above. -/
theorem exists_bind_integer_iff (h : v.number? = some q)
    (hwidth : type.integerWidth? = some width) :
    (∃ result, v.bind (.builtin type) = .ok result) ↔
      ∃ n : Int, q = n ∧ (FitsWidth width n ∨ type = .int8 ∧ q = 2 ^ 63) := by
  by_cases hmax : type = .int8 ∧ q = 2 ^ 63
  · obtain ⟨rfl, rfl⟩ := hmax
    have hwhole : (2 ^ 63 : ℚ) = (2 ^ 63 : Int) := by norm_num
    obtain ⟨word, hword⟩ := exists_bind_int8 h ⟨_, hwhole⟩ (by norm_num) le_rfl
    exact iff_of_true ⟨_, hword⟩ ⟨_, hwhole, .inr ⟨rfl, rfl⟩⟩
  · have hv : (∃ i, v = .int i) ∨ ∃ x, v = .float x :=
      (number?_eq_some_iff.mp h).imp (fun ⟨i, hi, _⟩ => ⟨i, hi⟩) fun ⟨x, hx, _⟩ => ⟨x, hx⟩
    have hmax' : type = .int8 → v.number? ≠ some (2 ^ 63) := by
      intro htype hq
      exact hmax ⟨htype, Option.some.inj (h.symm.trans hq)⟩
    simp only [bind_eq_ok_iff_fitsWidth hv hwidth hmax', h, Option.some_inj, hmax, or_false]
    constructor
    · intro hbind
      obtain ⟨_, n, hn, -⟩ := hbind
      exact ⟨n, hn⟩
    · intro hbind
      obtain ⟨n, hn⟩ := hbind
      exact ⟨_, n, hn, rfl⟩

/-- Whatever a column of integers got, it reads an integer. -/
theorem read?_of_bind_integer (h : v.number? = some q) (hwidth : type.integerWidth? = some width)
    {result : Option (List UInt8)} (hbind : v.bind (.builtin type) = .ok result) :
    ∃ word n, result = some word ∧ type.read? word = some (.number n) := by
  have hwords : ∃ n, result = some (twosComplement width n) := by
    rcases number?_eq_some_iff.mp h with ⟨i, rfl, -⟩ | ⟨x, rfl, -, -⟩
    · simp only [bind, map_some_eq_ok_iff, bindInt_of_integerWidth? hwidth,
        bindInteger_eq_ok_iff_fitsWidth] at hbind
      obtain ⟨word, ⟨-, hword⟩, hresult⟩ := hbind
      exact ⟨_, by rw [hresult, hword]⟩
    · simp only [bind, map_some_eq_ok_iff, bindFloat_eq_ok_iff hwidth,
        bindInteger_eq_ok_iff_fitsWidth] at hbind
      obtain ⟨word, ⟨n, -, -, hword⟩, hresult⟩ := hbind
      exact ⟨n, by rw [hresult, hword]⟩
  obtain ⟨n, hresult⟩ := hwords
  refine ⟨_, _, hresult, BuiltinType.read?_of_integerWidth? ?_⟩
  rw [hwidth, length_twosComplement]

theorem exists_bind_numeric_iff (h : v.number? = some q) :
    (∃ result, v.bind (.builtin .numeric) = .ok result) ↔ |q| < 2 ^ 96 := by
  rcases number?_eq_some_iff.mp h with ⟨i, rfl, rfl⟩ | ⟨x, rfl, hfinite, rfl⟩
  · exact iff_of_true ⟨_, rfl⟩ ((abs_toInt_le i).trans_lt (by norm_num))
  · rw [exists_bind_float_numeric_iff, and_iff_right hfinite,
      Binary64.floor_abs_numeral_lt_iff hfinite]

theorem read?_of_bind_numeric (h : v.number? = some q) {result : Option (List UInt8)}
    (hbind : v.bind (.builtin .numeric) = .ok result) :
    ∃ word r, result = some word ∧ BuiltinType.numeric.read? word = some (.number r) := by
  have hread : ∃ word r, result = some word ∧ Numeric.read? word = some r := by
    rcases number?_eq_some_iff.mp h with ⟨i, rfl, -⟩ | ⟨x, rfl, -, -⟩
    · obtain ⟨word, hword, hread⟩ := read?_bind_int i
      exact ⟨word, _, Except.ok.inj (hbind.symm.trans hword), hread⟩
    · obtain ⟨word, n, hresult, hstored⟩ := stored_of_bind_float hbind
      exact ⟨word, _, hresult, hstored.read?_eq⟩
  obtain ⟨word, r, hresult, hr⟩ := hread
  exact ⟨word, r, hresult, congrArg (Option.map Reading.number) hr⟩

/-- A type of integers refuses fractions and what is beyond it, but for the number one above the
greatest 64-bit integer. -/
theorem exists_error_integer_iff (h : v.number? = some q)
    (hwidth : type.integerWidth? = some width) :
    (∃ e, v.bind (.builtin type) = .error e) ↔
      type.Beyond q ∧ ¬(type = .int8 ∧ q = 2 ^ 63) ∨ ∀ n : Int, q ≠ n := by
  rw [exists_error_iff, exists_bind_integer_iff h hwidth]
  by_cases hwhole : ∃ n : Int, q = n
  · obtain ⟨n, rfl⟩ := hwhole
    simp [BuiltinType.beyond_intCast_iff hwidth, not_or]
  · have hne : ∀ n : Int, q ≠ n := not_exists.mp hwhole
    exact iff_of_true (fun hbind => hwhole (hbind.imp fun _ => And.left)) (.inr hne)

theorem not_exists_error_float4 (h : v.number? = some q) :
    ¬∃ e, v.bind (.builtin .float4) = .error e := by
  obtain ⟨y, hbind, -⟩ := exists_bind_float4 h
  rw [exists_error_iff, not_not]
  exact ⟨_, hbind⟩

theorem exists_error_float8_iff (h : v.number? = some q) :
    (∃ e, v.bind (.builtin .float8) = .error e) ↔ BuiltinType.float8.Beyond q := by
  obtain ⟨y, hbind, -⟩ := exists_bind_float8 h
  have hlt := abs_lt_overflow_double h
  rw [FloatFormat.overflow_double] at hlt
  rw [exists_error_iff]
  exact iff_of_false (not_not.mpr ⟨_, hbind⟩) (not_le.mpr hlt)

theorem exists_error_numeric_iff (h : v.number? = some q) :
    (∃ e, v.bind (.builtin .numeric) = .error e) ↔ BuiltinType.numeric.Beyond q := by
  rw [exists_error_iff, exists_bind_numeric_iff h, not_lt]
  rfl

/-- **A number is read back as a number, unless single precision is too narrow for it.** An integer
or a finite double is bound to a type of numbers as bytes of which its column reads a number. Only
what is beyond single precision is read as the infinity of its sign there. Every other type refuses
what is beyond it, and nothing else but that types of integers refuse fractions. Left out of this
is the number one above the greatest 64-bit integer, in eight bytes. -/
theorem bind_infinite_only_beyond_single (h : v.number? = some q)
    (htype : (PgType.builtin type).takesNumbers = true) :
    (∀ result, v.bind (.builtin type) = .ok result → ∃ word, result = some word ∧
      (¬(type = .float4 ∧ type.Beyond q) → ∃ r, type.read? word = some (.number r)) ∧
      (type = .float4 ∧ type.Beyond q → type.read? word = some (.infinity (q < 0)))) ∧
    ((∃ e, v.bind (.builtin type) = .error e) ↔
      (type.Beyond q ∧ type ≠ .float4 ∧ ¬(type = .int8 ∧ q = 2 ^ 63)) ∨
        (∃ width, type.integerWidth? = some width) ∧ ∀ n : Int, q ≠ n) := by
  rcases BuiltinType.takesNumbers_iff.mp htype with rfl | rfl | rfl | ⟨width, hwidth⟩
  · constructor
    · intro result hresult
      obtain ⟨word, hword, hnumber, hinfinity⟩ := read?_of_bind_float4 h hresult
      exact ⟨word, hword, by simpa using hnumber, by simpa using hinfinity⟩
    · simp [not_exists_error_float4 h, BuiltinType.integerWidth?]
  · constructor
    · intro result hresult
      obtain ⟨word, r, hword, hread⟩ := read?_of_bind_float8 h hresult
      exact ⟨word, hword, fun _ => ⟨r, hread⟩, by simp⟩
    · simp [exists_error_float8_iff h, BuiltinType.integerWidth?]
  · constructor
    · intro result hresult
      obtain ⟨word, r, hword, hread⟩ := read?_of_bind_numeric h hresult
      exact ⟨word, hword, fun _ => ⟨r, hread⟩, by simp⟩
    · simp [exists_error_numeric_iff h, BuiltinType.integerWidth?]
  · have hfloat : type ≠ .float4 := by
      intro htype
      simp [htype, BuiltinType.integerWidth?] at hwidth
    constructor
    · intro result hresult
      obtain ⟨word, n, hword, hread⟩ := read?_of_bind_integer h hwidth hresult
      exact ⟨word, hword, fun _ => ⟨n, hread⟩, fun hbeyond => absurd hbeyond.1 hfloat⟩
    · simp [exists_error_integer_iff h hwidth, hfloat, hwidth]

/-- The last double before single precision overflows and the first one after it with the other
sign, and what decimals and integers refuse. -/
theorem bind_infinite_only_beyond_single_at_overflow :
    (∃ word r, bind (.float (.ofInt (2 ^ 128 - 2 ^ 103 - 2 ^ 75))) (.builtin .float4) =
        .ok (some word) ∧ BuiltinType.float4.read? word = some (.number r)) ∧
      (∃ word, bind (.float (.ofInt (2 ^ 103 - 2 ^ 128))) (.builtin .float4) = .ok (some word) ∧
        BuiltinType.float4.read? word = some (.infinity true)) ∧
      (∃ e, bind (.float (.ofInt (2 ^ 96))) (.builtin .numeric) = .error e) ∧
      ∃ e, bind (.int Int64.minValue) (.builtin .int4) = .error e := by
  have hbelow : number? (.float (.ofInt (2 ^ 128 - 2 ^ 103 - 2 ^ 75))) =
      some ((2 ^ 128 - 2 ^ 103 - 2 ^ 75 : Int) : ℚ) :=
    number?_float_eq_some_iff.mpr (by decide +kernel)
  have habove : number? (.float (.ofInt (2 ^ 103 - 2 ^ 128))) =
      some ((2 ^ 103 - 2 ^ 128 : Int) : ℚ) :=
    number?_float_eq_some_iff.mpr (by decide +kernel)
  have hnumeric : number? (.float (.ofInt (2 ^ 96))) = some ((2 ^ 96 : Int) : ℚ) :=
    number?_float_eq_some_iff.mpr (by decide +kernel)
  have hint : number? (.int Int64.minValue) = some ((-2 ^ 63 : Int) : ℚ) := by
    rw [number?, Int64.toInt_minValue]
  refine ⟨?_, ?_, ?_, ?_⟩
  · obtain ⟨y, hbind, -⟩ := exists_bind_float4 hbelow
    obtain ⟨word, hword, hread, -⟩ := (bind_infinite_only_beyond_single hbelow rfl).1 _ hbind
    obtain ⟨r, hr⟩ := hread fun hbeyond => by
      have hle := hbeyond.2
      norm_num [BuiltinType.Beyond, abs_le] at hle
    exact ⟨word, r, by rw [hbind, hword], hr⟩
  · obtain ⟨y, hbind, -⟩ := exists_bind_float4 habove
    obtain ⟨word, hword, -, hread⟩ := (bind_infinite_only_beyond_single habove rfl).1 _ hbind
    refine ⟨word, by rw [hbind, hword], (hread ⟨rfl, ?_⟩).trans ?_⟩
    · norm_num [BuiltinType.Beyond]
    · norm_num
  · refine (bind_infinite_only_beyond_single hnumeric rfl).2.mpr (.inl ⟨?_, by decide, by simp⟩)
    norm_num [BuiltinType.Beyond]
  · refine (bind_infinite_only_beyond_single hint rfl).2.mpr (.inl ⟨?_, by decide, by simp⟩)
    rw [BuiltinType.beyond_intCast_iff rfl]
    decide

/-- The first double beyond single precision is finite, and integers refuse it. It is bound all the
same, as infinity. -/
theorem bind_double_beyond_single :
    let x : Binary64 := .ofInt (2 ^ 128 - 2 ^ 103)
    number? (.float x) = some ((2 ^ 128 - 2 ^ 103 : Int) : ℚ) ∧
      BuiltinType.float4.Beyond ((2 ^ 128 - 2 ^ 103 : Int) : ℚ) ∧
      bind (.float x) (.builtin .float4) = .ok (some [0x7F, 0x80, 0x00, 0x00]) ∧
      BuiltinType.float4.read? [0x7F, 0x80, 0x00, 0x00] = some (.infinity false) ∧
      ∃ e, bind (.float x) (.builtin .int8) = .error e := by
  intro x
  have hint : integerOfFloat? x = none := by decide +kernel
  have hbytes : x.toSingle.bytes = [0x7F, 0x80, 0x00, 0x00] := by decide +kernel
  refine ⟨number?_float_eq_some_iff.mpr (by decide +kernel), ?_, ?_, rfl,
    .mismatch (.float x) (.builtin .int8), ?_⟩
  · norm_num [BuiltinType.Beyond]
  · simp only [bind, bindFloat, hbytes]
    rfl
  · simp only [bind, bindFloat, hint]
    rfl

end Value

end TenantSql
