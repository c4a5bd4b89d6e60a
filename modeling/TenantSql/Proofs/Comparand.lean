import TenantSql.Filter
import TenantSql.Proofs.IntegerBytes
import TenantSql.Proofs.Numeral
/-!
# TenantSql.Proofs.Comparand

The number that a written comparand is compared as when the statement runs.

A numeral that is a 64-bit integer by its digits is that integer. Any other numeral is
the double nearest to it, so a fraction that no double tells from a whole number is
dropped, and so are digits below the precision of doubles. From there on nothing is
rounded: bound to 64-bit integers, the number is written exactly or refused
(`bind_comparand`). The one number about which this says nothing is `2 ^ 63`.
-/

namespace TenantSql

/-! ### Reading a comparand -/

/-- A numeral is read as the integer it is by its digits, else as the nearest double, with its sign,
unless this one is infinite. -/
theorem Value.parseNumeric_numeral (n : Numeral) :
    (∃ i : Int64, n.integer? = some i.toInt ∧ parseNumeric n.text = .int i) ∨
    ((∀ i : Int64, n.integer? ≠ some i.toInt) ∧ ∃ x : Binary64, x.IsNearest n.value ∧
      x.negative = n.sign.negative ∧
      parseNumeric n.text = if x.isFinite then .float x else .text n.text) := by
  unfold parseNumeric
  rw [n.toList_text, n.readInt?_chars, n.readDecimal?_chars]
  cases hword : n.integer?.bind int64? with
  | some i =>
    obtain ⟨m, hm, hi⟩ := Option.bind_eq_some_iff.mp hword
    rw [← int64?_eq_some_iff.mp hi] at hm
    exact .inl ⟨i, hm, rfl⟩
  | none =>
    refine .inr ⟨fun i hi => ?_, .ofDecimal n.sign.negative n.decimal, ?_, rfl, rfl⟩
    · rw [hi, Option.bind_some, int64?_eq_some_iff.mpr rfl] at hword
      cases hword
    · rw [← n.signed_decimal_value]
      exact BinaryFloat.isNearest_ofDecimal (by decide) _ _

/-! ### Binding to 64-bit integers -/

theorem exists_int64_of_range {n : Int} (hlow : -2 ^ 63 ≤ n) (hhigh : n < 2 ^ 63) :
    ∃ i : Int64, i.toInt = n := by
  rw [exists_int64_iff, Int64.toInt_minValue, Int64.toInt_maxValue]
  omega

/-- The number of an infinity is far from any 64-bit integer. -/
theorem Binary64.value_ne_int64 {x : Binary64} (hnan : x.isNaN = false)
    (hfinite : x.isFinite = false)
    (i : Int64) : x.value ≠ i.toInt := by
  have hcode : x.code = FloatFormat.double.infinityCode := by
    have hle := x.isNaN_eq_false_iff.mp hnan
    have hge := Nat.not_lt.mp (of_decide_eq_false hfinite)
    omega
  have hunits : x.units = twoPow 1024 * FloatFormat.double.one := by
    rw [BinaryFloat.units, hcode]
    decide +kernel
  have hone : (FloatFormat.double.one : ℚ) ≠ 0 := Nat.cast_ne_zero.mpr (twoPow_pos _).ne'
  have habs : |x.value| = 2 ^ 1024 := by
    rw [x.abs_value, hunits, Nat.cast_mul, mul_div_cancel_right₀ _ hone, cast_twoPow]
  have hi : |(i.toInt : ℚ)| ≤ 2 ^ 63 := by
    have hlow := i.le_toInt
    have hhigh := i.toInt_lt
    have hle : |i.toInt| ≤ 2 ^ 63 := abs_le.mpr ⟨by omega, by omega⟩
    exact_mod_cast hle
  intro h
  rw [h] at habs
  rw [habs] at hi
  exact absurd hi (not_le.mpr (pow_lt_pow_right₀ (by norm_num) (by norm_num)))

/-- The value is bound to a 64-bit integer exactly if the number is one, and then as its bytes. -/
def Value.BindsAs (v : Value) (q : ℚ) : Prop :=
  ∀ bytes, v.bind (.builtin .int8) = .ok bytes ↔
    ∃ i : Int64, q = i.toInt ∧ bytes = some (twosComplement 8 i.toInt)

namespace Value

theorem bindsAs_of_bind_eq {v : Value} {i : Int64}
    (h : v.bind (.builtin .int8) = .ok (some (twosComplement 8 i.toInt))) : BindsAs v i.toInt := by
  intro bytes
  rw [h]
  constructor
  · intro hbytes
    cases hbytes
    exact ⟨i, rfl, rfl⟩
  · intro hbytes
    obtain ⟨j, hj, hword⟩ := hbytes
    rw [hword, Int64.toInt_inj.mp (Int.cast_injective hj)]

theorem bindsAs_of_refused {v : Value} {q : ℚ} {e : BindError}
    (h : v.bind (.builtin .int8) = .error e) (hq : ∀ i : Int64, q ≠ i.toInt) : BindsAs v q := by
  intro bytes
  rw [h]
  constructor
  · intro hbytes
    cases hbytes
  · intro hbytes
    obtain ⟨i, hi, -⟩ := hbytes
    exact absurd hi (hq i)

theorem bind_int_int8 (i : Int64) :
    bind (.int i) (.builtin .int8) = .ok (some (twosComplement 8 i.toInt)) := by
  simp only [bind, bindInt, bindInteger_int64]
  rfl

/-- A double is bound as the integer that it is taken for. -/
theorem bind_float_int8 {x : Binary64} {i : Int64} (h : integerOfFloat? x = some i.toInt) :
    bind (.float x) (.builtin .int8) = .ok (some (twosComplement 8 i.toInt)) := by
  simp only [bind, bindFloat, h, bindInt, bindInteger_int64]
  rfl

theorem bind_float_int8_of_eq_none {x : Binary64} (h : integerOfFloat? x = none) :
    bind (.float x) (.builtin .int8) = .error (.mismatch (.float x) (.builtin .int8)) := by
  simp only [bind, bindFloat, h]
  rfl

theorem bindsAs_int (i : Int64) : BindsAs (.int i) i.toInt :=
  bindsAs_of_bind_eq (bind_int_int8 i)

/-- A double is taken for the integer that it is, and for the greatest one if it is one above. -/
theorem integerOfFloat?_eq_some_iff_min {x : Binary64} {k : Int} :
    integerOfFloat? x = some k ↔
      ∃ n : Int, x.toInt? = some n ∧ (-2 ^ 63 ≤ n ∧ n ≤ 2 ^ 63) ∧ k = min n (2 ^ 63 - 1) := by
  have hmin : Int64.minValue.toInt = -2 ^ 63 := Int64.toInt_minValue
  have hmax : maxInteger = 2 ^ 63 - 1 := Int64.toInt_maxValue
  cases hint : x.toInt? with
  | none => simp [integerOfFloat?, hint]
  | some n =>
    simp only [integerOfFloat?, hint, hmin, hmax, Bool.and_eq_true, decide_eq_true_eq,
      Option.ite_none_right_eq_some, Option.some_inj, exists_eq_left']
    rw [Int.sub_add_cancel, eq_comm (a := k)]

/-- A float that is not `2 ^ 63` is taken for no other integer. -/
theorem integerOfFloat?_eq_some_iff {x : Binary64} (hx : x.value ≠ 2 ^ 63) {n : Int} :
    integerOfFloat? x = some n ↔
      x.isFinite = true ∧ ∃ i : Int64, x.value = i.toInt ∧ n = i.toInt := by
  rw [integerOfFloat?_eq_some_iff_min]
  constructor
  · rintro ⟨m, hm, ⟨hlow, hhigh⟩, rfl⟩
    obtain ⟨hfinite, hvalue⟩ := (x.toInt?_eq_some_iff m).mp hm
    have hne : m ≠ 2 ^ 63 := by
      rintro rfl
      exact hx (hvalue.trans (by norm_num))
    obtain ⟨i, rfl⟩ : ∃ i : Int64, i.toInt = m := exists_int64_of_range hlow (by omega)
    exact ⟨hfinite, i, hvalue, min_eq_left (by omega)⟩
  · rintro ⟨hfinite, i, hi, rfl⟩
    have hlow := i.le_toInt
    have hhigh := i.toInt_lt
    exact ⟨i.toInt, (x.toInt?_eq_some_iff _).mpr ⟨hfinite, hi⟩, ⟨hlow, hhigh.le⟩,
      (min_eq_left (by omega)).symm⟩

theorem bindsAs_float {x : Binary64} (hfinite : x.isFinite = true) (hx : x.value ≠ 2 ^ 63) :
    BindsAs (.float x) x.value := by
  cases hn : integerOfFloat? x with
  | some n =>
    obtain ⟨-, i, hi, rfl⟩ := (integerOfFloat?_eq_some_iff hx).mp hn
    rw [hi]
    exact bindsAs_of_bind_eq (bind_float_int8 hn)
  | none =>
    refine bindsAs_of_refused (bind_float_int8_of_eq_none hn) fun i hi => ?_
    rw [(integerOfFloat?_eq_some_iff hx).mpr ⟨hfinite, i, hi, rfl⟩] at hn
    cases hn

theorem bindsAs_text (s : String) {q : ℚ} (h : ∀ i : Int64, q ≠ i.toInt) : BindsAs (.text s) q :=
  bindsAs_of_refused rfl h

end Value

/-! ### Comparands -/

/-- The number that a numeral is compared as: the integer it is, of a 64-bit integer without a point
and an exponent, and the nearest double of any other. -/
def Numeral.ComparedAs (n : Numeral) (q : ℚ) : Prop :=
  (∃ i : Int64, n.integer? = some i.toInt ∧ q = i.toInt) ∨
  ((∀ i : Int64, n.integer? ≠ some i.toInt) ∧ ∃ x : Binary64, x.IsNearest n.value ∧ q = x.value)

/-- Whatever number a comparand is compared as, it is bound as that number; only `2 ^ 63` is left
open. -/
theorem exists_bindsAs (n : Numeral) :
    ∃ q, n.ComparedAs q ∧ (q ≠ 2 ^ 63 → (Value.parseNumeric n.text).BindsAs q) := by
  rcases Value.parseNumeric_numeral n with ⟨i, hi, hvalue⟩ | ⟨hi, x, hx, -, hvalue⟩
  · refine ⟨i.toInt, .inl ⟨i, hi, rfl⟩, fun _ => ?_⟩
    rw [hvalue]
    exact Value.bindsAs_int i
  · refine ⟨x.value, .inr ⟨hi, x, hx, rfl⟩, fun hne => ?_⟩
    rw [hvalue]
    cases hfinite : x.isFinite with
    | true => exact Value.bindsAs_float hfinite hne
    | false => exact Value.bindsAs_text _ (Binary64.value_ne_int64 hx.1 hfinite)

/-- A numeral is compared as one number. -/
theorem Numeral.ComparedAs.unique {n : Numeral} {p q : ℚ} (hp : n.ComparedAs p)
    (hq : n.ComparedAs q) : p = q := by
  rcases hp with ⟨i, hi, rfl⟩ | ⟨hp, x, hx, rfl⟩ <;> rcases hq with ⟨j, hj, rfl⟩ | ⟨hq, y, hy, rfl⟩
  · rw [Option.some.inj (hi.symm.trans hj)]
  · exact absurd hi (hq i)
  · exact absurd hj (hp j)
  · exact hx.unique hy

/-- Nothing is lost on a 64-bit integer written as one, nor on a number that is a double. -/
theorem Numeral.ComparedAs.eq_value {n : Numeral} {q : ℚ} (h : n.ComparedAs q)
    (hexact : (∃ i : Int64, n.integer? = some i.toInt) ∨
      ∃ x : Binary64, x.isNaN = false ∧ x.value = n.value) : q = n.value := by
  rcases h with ⟨i, hi, rfl⟩ | ⟨hi, x, hx, rfl⟩
  · exact (Numeral.value_of_integer? hi).symm
  · rcases hexact with ⟨i, hi'⟩ | ⟨z, hz, hvalue⟩
    · exact absurd hi' (hi i)
    · exact hx.value_eq hz hvalue

theorem Filter.value_parse {column : String} {kind : ColumnKind} {raw : String}
    (hkind : kind ≠ .string) :
    (parse column kind raw).value = .parseNumeric (parse column kind raw).comparand := by
  cases kind with
  | string => exact absurd rfl hkind
  | numeric => rfl
  | generic => rfl

theorem Filter.literal_parse {column : String} {kind : ColumnKind} {raw : String}
    (hkind : kind ≠ .string) :
    (parse column kind raw).literal = (parse column kind raw).comparand := by
  cases kind with
  | string => exact absurd rfl hkind
  | numeric => rfl
  | generic => rfl

/-- **A comparand is bound as the number it is compared as, or refused.** The literal form shows the
comparand as it was written. There is one number it is compared as: its own, if this is a 64-bit
integer written as one or any double. Bound to 64-bit integers, the eight bytes are exactly that
number, and a number that is no 64-bit integer is refused; of `2 ^ 63` nothing is said. -/
theorem bind_comparand {column : String} {kind : ColumnKind} {raw : String} {n : Numeral}
    (hkind : kind ≠ .string) (hcomparand : (Filter.parse column kind raw).comparand = n.text) :
    let f := Filter.parse column kind raw
    f.literal = n.text ∧ ∃ q, (∀ p, n.ComparedAs p ↔ p = q) ∧
      ((∃ i : Int64, n.integer? = some i.toInt) ∨
        (∃ x : Binary64, x.isNaN = false ∧ x.value = n.value) → q = n.value) ∧
      (q ≠ 2 ^ 63 →
        (∀ bytes, f.value.bind (.builtin .int8) = .ok bytes →
          ∃ word, bytes = some word ∧ word.length = 8 ∧ (ofTwosComplement word : ℚ) = q) ∧
        ((∃ bytes, f.value.bind (.builtin .int8) = .ok bytes) ↔ ∃ i : Int64, q = i.toInt)) := by
  intro f
  have hvalue : f.value = .parseNumeric n.text := by
    rw [← hcomparand]
    exact Filter.value_parse hkind
  obtain ⟨q, hq, hbinds⟩ := exists_bindsAs n
  rw [← hvalue] at hbinds
  refine ⟨(Filter.literal_parse hkind).trans hcomparand, q, fun p => ⟨fun hp => hp.unique hq, ?_⟩,
    hq.eq_value, fun hne => ⟨fun bytes hbytes => ?_, ?_, ?_⟩⟩
  · rintro rfl
    exact hq
  · obtain ⟨i, rfl, rfl⟩ := (hbinds hne bytes).mp hbytes
    exact ⟨_, rfl, length_twosComplement _ _, by rw [ofTwosComplement_int64]⟩
  · rintro ⟨bytes, hbytes⟩
    obtain ⟨i, hi, -⟩ := (hbinds hne bytes).mp hbytes
    exact ⟨i, hi⟩
  · rintro ⟨i, hi⟩
    exact ⟨_, (hbinds hne _).mpr ⟨i, hi, rfl⟩⟩

/-- An exponent that makes an integer. -/
theorem bind_comparand_with_exponent :
    let n : Numeral := ⟨.minus, ⟨['1'], by decide⟩, some ⟨['5'], by decide⟩,
      some ⟨'e', .none, ⟨['1'], by decide⟩, by decide, by decide⟩, by decide⟩
    let f := Filter.parse "timestamp" .numeric "ge-1.5e1"
    n.value = -15 ∧ f.comparand = n.text ∧ ∃ word,
      f.value.bind (.builtin .int8) = .ok (some word) ∧ ofTwosComplement word = -15 := by
  intro n f
  have hvalue : n.value = -15 := by
    have hone : Nat.ofDigitChars 10 ['1'] 0 = 1 := by decide
    have hfive : Nat.ofDigitChars 10 ['5'] 0 = 5 := by decide
    simp only [n, Numeral.value, Numeral.fractionValue, Numeral.exponentValue, Exponent.value,
      Digits.value, Sign.negative, signed, hone, hfive]
    norm_num
  have hdouble : (BinaryFloat.ofInt (-15) : Binary64).value = -15 := by
    have hunits : (BinaryFloat.ofInt (-15) : Binary64).units = 15 * FloatFormat.double.one := by
      decide +kernel
    have hone : (FloatFormat.double.one : ℚ) ≠ 0 := Nat.cast_ne_zero.mpr (twoPow_pos _).ne'
    rw [BinaryFloat.value, hunits, Nat.cast_mul, mul_div_cancel_right₀ _ hone]
    rfl
  have hcomparand : f.comparand = n.text := by decide +kernel
  obtain ⟨-, q, -, hexact, hbind⟩ := bind_comparand (by decide) hcomparand
  have hq : q = -15 :=
    (hexact (.inr ⟨.ofInt (-15), by decide +kernel, hdouble.trans hvalue.symm⟩)).trans hvalue
  obtain ⟨hbytes, hok⟩ := hbind (by rw [hq]; norm_num)
  obtain ⟨bytes, hbytes'⟩ := hok.mpr ⟨-15, by rw [hq]; rfl⟩
  obtain ⟨word, rfl, -, hword⟩ := hbytes bytes hbytes'
  refine ⟨hvalue, hcomparand, word, hbytes', ?_⟩
  rw [hq] at hword
  exact_mod_cast hword

/-- Digits that doubles do not tell apart are dropped before a value is bound. A number a little
above one, which is no integer, is bound as one; a whole number above `2 ^ 53` is bound as the even
one below it. -/
theorem bind_rounded_comparands :
    (let n : Numeral := ⟨.none, ⟨['1'], by decide⟩,
      some ⟨"00000000000000000001".toList, by decide⟩, none, by decide⟩
    let f := Filter.parse "timestamp" .numeric "1.00000000000000000001"
    f.comparand = n.text ∧ (∀ i : Int, n.value ≠ i) ∧
      (f.value.bind (.builtin .int8)).toOption = some (some [0, 0, 0, 0, 0, 0, 0, 1])) ∧
    (let n : Numeral := ⟨.none, ⟨"9007199254740993".toList, by decide⟩,
      some ⟨['0'], by decide⟩, none, by decide⟩
    let f := Filter.parse "timestamp" .numeric "9007199254740993.0"
    f.comparand = n.text ∧ n.value = 9007199254740993 ∧
      (f.value.bind (.builtin .int8)).toOption = some (some [0, 0x20, 0, 0, 0, 0, 0, 0]) ∧
      ofTwosComplement [0, 0x20, 0, 0, 0, 0, 0, 0] = 9007199254740992) := by
  refine ⟨⟨by decide +kernel, fun i h => ?_, by decide +kernel⟩, by decide +kernel, ?_,
    by decide +kernel, by decide +kernel⟩
  · have hwhole : Nat.ofDigitChars 10 ['1'] 0 = 1 := by decide
    have hfraction : Nat.ofDigitChars 10 "00000000000000000001".toList 0 = 1 := by decide +kernel
    have hlength : "00000000000000000001".toList.length = 20 := by decide +kernel
    simp only [Numeral.value, Numeral.fractionValue, Numeral.exponentValue, Digits.value,
      Sign.negative, signed, hwhole, hfraction, hlength] at h
    have hscaled : (i : ℚ) * 10 ^ 20 = 10 ^ 20 + 1 := by
      rw [← h]
      norm_num
    have hint : i * 10 ^ 20 = 10 ^ 20 + 1 := by exact_mod_cast hscaled
    omega
  · have hwhole : Nat.ofDigitChars 10 "9007199254740993".toList 0 = 9007199254740993 := by
      decide +kernel
    have hfraction : Nat.ofDigitChars 10 ['0'] 0 = 0 := by decide
    simp only [Numeral.value, Numeral.fractionValue, Numeral.exponentValue, Digits.value,
      Sign.negative, signed, hwhole, hfraction]
    norm_num

end TenantSql
