import TenantSql.Proofs.Comparand
import TenantSql.Proofs.NumericWire
import TenantSql.Proofs.RowMembers
import TenantSql.Proofs.ShortestDecimal
/-!
# TenantSql.Proofs.JsonIntegers

What is stored of an integer in a JSON row.

A 64-bit integer is stored as it is written, in columns of integers and in columns of
stored decimals. Any other integer becomes the double nearest to it, and no integer but
that double's is stored: a column of integers takes the number of the double or refuses
it, and a column of stored decimals takes the integer that the double is displayed as,
which is rounded to the same double (`bind_json_integer`). Of the double `2 ^ 63` in a
column of integers nothing is said.
-/

namespace TenantSql

/-- The integer that a literal writes, if it has no point and no exponent. -/
def Json.Number.written? (lit : Number) : Option Int :=
  match lit.exponent with
  | none => some (if lit.negative then -(lit.coefficient : Int) else lit.coefficient)
  | some _ => none

/-! ### Reading a literal -/

namespace Json.Number

theorem toInt?_eq_of_written? {lit : Number} {n : Int} (h : lit.written? = some n) :
    lit = ⟨true, 0, none⟩ ∨ lit.toInt? = some n := by
  obtain ⟨negative, coefficient, exponent⟩ := lit
  cases exponent with
  | some e => cases h
  | none =>
    cases h
    cases negative with
    | false => exact .inr rfl
    | true =>
      by_cases hzero : coefficient = 0
      · exact .inl (by rw [hzero])
      · exact .inr (if_neg hzero)

/-- The double of a literal is the one nearest to the integer. -/
theorem isNearest_of_written? {lit : Number} {n : Int} (h : lit.written? = some n) :
    lit.toBinary64.IsNearest n := by
  have hnear :=
    BinaryFloat.isNearest_ofDecimal (f := .double) (by decide) lit.negative lit.magnitude
  have hvalue : signed lit.negative lit.magnitude.value = n := by
    obtain ⟨negative, coefficient, exponent⟩ := lit
    cases exponent with
    | some e => cases h
    | none =>
      cases h
      cases negative <;> simp [signed, magnitude, Decimal.value]
  rw [hvalue] at hnear
  exact hnear

/-- A literal of an integer is read as a 64-bit integer if it writes one. Any other is read as a
double, and so is a zero with a minus. -/
theorem ofJson_of_written? {lit : Number} {n : Int} (h : lit.written? = some n) :
    (∃ i : Int64, n = i.toInt ∧ Value.ofJson (.number lit) = .ok (.int i)) ∨
    ((lit = ⟨true, 0, none⟩ ∨ ∀ i : Int64, n ≠ i.toInt) ∧
      Value.ofJson (.number lit) = .ok (.float lit.toBinary64)) := by
  rcases toInt?_eq_of_written? h with rfl | hint
  · exact .inr ⟨.inl rfl, rfl⟩
  · rw [Value.ofJson, toInt64?, hint, Option.bind_some]
    cases hword : int64? n with
    | some i => exact .inl ⟨i, (int64?_eq_some_iff.mp hword).symm, rfl⟩
    | none =>
      refine .inr ⟨.inr ?_, rfl⟩
      rintro i rfl
      rw [int64?_eq_some_iff.mpr rfl] at hword
      cases hword

end Json.Number

/-! ### Binding the double of an integer -/

namespace Value

/-- A double that is no number of a column of integers is refused there, be it infinite or not. -/
theorem bindsAs_of_isNearest {x : Binary64} {q : ℚ} (h : x.IsNearest q) (hx : x.value ≠ 2 ^ 63) :
    BindsAs (.float x) x.value := by
  cases hfinite : x.isFinite with
  | true => exact bindsAs_float hfinite hx
  | false =>
    have hnone : integerOfFloat? x = none := by
      rw [Option.eq_none_iff_forall_ne_some]
      intro n hn
      have hfinite' := ((integerOfFloat?_eq_some_iff hx).mp hn).1
      rw [hfinite] at hfinite'
      cases hfinite'
    exact bindsAs_of_refused (bind_float_int8_of_eq_none hnone)
      (Binary64.value_ne_int64 h.1 hfinite)

theorem BindsAs.reads {v : Value} {q : ℚ} (h : v.BindsAs q) :
    (∀ bytes, v.bind (.builtin .int8) = .ok bytes →
      ∃ word, bytes = some word ∧ word.length = 8 ∧ (ofTwosComplement word : ℚ) = q) ∧
    ((∃ bytes, v.bind (.builtin .int8) = .ok bytes) ↔ ∃ i : Int64, q = i.toInt) := by
  refine ⟨fun bytes hbytes => ?_, ?_, ?_⟩
  · obtain ⟨i, rfl, rfl⟩ := (h bytes).mp hbytes
    exact ⟨_, rfl, length_twosComplement _ _, by rw [ofTwosComplement_int64]⟩
  · rintro ⟨bytes, hbytes⟩
    obtain ⟨i, hi, -⟩ := (h bytes).mp hbytes
    exact ⟨i, hi⟩
  · rintro ⟨i, hi⟩
    exact ⟨_, (h _).mpr ⟨i, hi, rfl⟩⟩

/-- A 64-bit integer is stored as it is, whichever type of numbers it is bound to. -/
theorem reads_int (i : Int64) :
    (∃ word, bind (.int i) (.builtin .int8) = .ok (some word) ∧ word.length = 8 ∧
      ofTwosComplement word = i.toInt) ∧
    ∃ word, bind (.int i) (.builtin .numeric) = .ok (some word) ∧
      Numeric.read? word = some (i.toInt : ℚ) :=
  ⟨⟨_, (bindsAs_int i _).mpr ⟨i, rfl, rfl⟩, length_twosComplement _ _, ofTwosComplement_int64 i⟩,
    read?_bind_int i⟩

/-- A zero with a minus is bound as a zero. -/
theorem bind_negative_zero :
    let v : Value := .float (Json.Number.toBinary64 ⟨true, 0, none⟩)
    v.bind (.builtin .int8) = bind (.int 0) (.builtin .int8) ∧
      v.bind (.builtin .numeric) = bind (.int 0) (.builtin .numeric) := by
  intro v
  have hinteger : integerOfFloat? (Json.Number.toBinary64 ⟨true, 0, none⟩) =
      some (0 : Int64).toInt := by decide +kernel
  exact ⟨(bind_float_int8 hinteger).trans (bind_int_int8 0).symm,
    bind_float_numeric_eq_ok_iff.mpr ⟨by decide +kernel, _, by decide +kernel, rfl⟩⟩

/-- A large double that is bound to a stored decimal is stored as the integer it is displayed as. -/
theorem read?_bind_large_float {x : Binary64} (hx : 2 ^ 63 ≤ |x.value|)
    {bytes : Option (List UInt8)} (h : bind (.float x) (.builtin .numeric) = .ok bytes) :
    ∃ word, ∃ m : Int, bytes = some word ∧ Numeric.read? word = some (m : ℚ) ∧
      (m : ℚ) = signed x.negative x.decimal.value ∧ x.IsNearest m := by
  obtain ⟨hfinite, n, hn, rfl⟩ := bind_float_numeric_eq_ok_iff.mp h
  have hnan := BinaryFloat.isNaN_of_isFinite hfinite
  obtain ⟨k, hk⟩ := Binary64.exists_value_decimal_eq_of_large hfinite hx
  obtain ⟨m, hm⟩ := exists_intCast_eq_signed x.negative k
  refine ⟨n.bytes, m, rfl, ?_, ?_, ?_⟩
  · rw [Numeric.read?_bytes_of_ofDecimal? hn, Numeric.scaled_of_integer hk, hm]
  · rw [hm, hk]
  · rw [hm, ← hk]
    exact Binary64.isNearest_decimal hnan

end Value

/-! ### Rows -/

theorem two_pow_le_abs_of_ne_int64 {n : Int} (h : ∀ i : Int64, n ≠ i.toInt) : 2 ^ 63 ≤ |n| := by
  by_contra hlt
  obtain ⟨hlow, hhigh⟩ := abs_lt.mp (not_le.mp hlt)
  obtain ⟨i, hi⟩ := exists_int64_of_range hlow.le hhigh
  exact h i hi.symm

/-- **An integer in a JSON row is stored as it is written, or as its nearest double, or refused.**
The last member of a key gives the value of its column. A 64-bit integer is bound exactly, to
integers and to stored decimals. Any other integer becomes its nearest double: bound to integers,
the eight bytes are exactly the double, and a double that is no 64-bit integer is refused; bound to
stored decimals, the bytes are the integer that is displayed of the double, which is rounded to the
same double. Of the double `2 ^ 63` bound to integers nothing is said. That an integer beyond 64
bits is read as its nearest double is assumed of the reader of documents (`Json.Number.toBinary64`);
what is proved is where that double goes. -/
theorem bind_json_integer {members : List (String × Json)} {row : Row} {key : String}
    {lit : Json.Number} {n : Int} (hrow : Row.ofJson (.object members) = .ok row)
    (hmember : members.reverse.lookup key = some (.number lit)) (hlit : lit.written? = some n) :
    ∃ v, row.get? key = some v ∧
      ((∃ i : Int64, n = i.toInt) →
        (∃ word, v.bind (.builtin .int8) = .ok (some word) ∧ word.length = 8 ∧
          ofTwosComplement word = n) ∧
        ∃ word, v.bind (.builtin .numeric) = .ok (some word) ∧
          Numeric.read? word = some (n : ℚ)) ∧
      ((∀ i : Int64, n ≠ i.toInt) → ∃ x : Binary64, x.IsNearest n ∧
        (x.value ≠ 2 ^ 63 →
          (∀ bytes, v.bind (.builtin .int8) = .ok bytes →
            ∃ word, bytes = some word ∧ word.length = 8 ∧ (ofTwosComplement word : ℚ) = x.value) ∧
          ((∃ bytes, v.bind (.builtin .int8) = .ok bytes) ↔ ∃ i : Int64, x.value = i.toInt)) ∧
        ∀ bytes, v.bind (.builtin .numeric) = .ok bytes →
          ∃ word, ∃ m : Int, bytes = some word ∧ Numeric.read? word = some (m : ℚ) ∧
            (m : ℚ) = signed x.negative x.decimal.value ∧ x.IsNearest m) := by
  have hget := Row.get?_of_ofJson hrow key
  rw [hmember, Option.bind_some] at hget
  rcases Json.Number.ofJson_of_written? hlit with ⟨i, rfl, hvalue⟩ | ⟨hlarge, hvalue⟩
  · rw [hvalue] at hget
    exact ⟨.int i, hget, fun _ => Value.reads_int i, fun hne => absurd rfl (hne i)⟩
  · rw [hvalue] at hget
    refine ⟨_, hget, fun hword => ?_, fun hne => ?_⟩
    · -- The one 64-bit integer that is read as a double is the zero with a minus.
      obtain ⟨i, hi⟩ := hword
      obtain rfl := hlarge.resolve_right fun hne => hne i hi
      cases hlit
      obtain ⟨hint8, hnumeric⟩ := Value.bind_negative_zero
      rw [hint8, hnumeric]
      exact Value.reads_int 0
    · have hnear := Json.Number.isNearest_of_written? hlit
      have hbeyond : (2 : ℚ) ^ 63 ≤ |(n : ℚ)| := by
        exact_mod_cast two_pow_le_abs_of_ne_int64 hne
      have hx : 2 ^ 63 ≤ |lit.toBinary64.value| :=
        Binary64.two_pow_le_abs_value hnear (by decide) hbeyond
      exact ⟨lit.toBinary64, hnear, fun hne' => (Value.bindsAs_of_isNearest hnear hne').reads,
        fun bytes hbytes => Value.read?_bind_large_float hx hbytes⟩

/-- A zero with a minus, and an integer just below the range whose key had a text before. -/
theorem bind_hostile_json_integers :
    let members := [("timestamp", Json.string "first"), ("height", .number ⟨true, 0, none⟩),
      ("timestamp", .number ⟨true, 9223372036854775809, none⟩)]
    ∃ row, Row.ofJson (.object members) = .ok row ∧
      (∃ v word, row.get? "height" = some v ∧ v.bind (.builtin .numeric) = .ok (some word) ∧
        Numeric.read? word = some 0) ∧
      ∃ v word, row.get? "timestamp" = some v ∧ v.bind (.builtin .int8) = .ok (some word) ∧
        ofTwosComplement word = -9223372036854775808 := by
  intro members
  obtain ⟨row, hrow⟩ : ∃ row, Row.ofJson (.object members) = .ok row := ⟨_, rfl⟩
  have hheight : members.reverse.lookup "height" = some (.number ⟨true, 0, none⟩) := rfl
  have htimestamp : members.reverse.lookup "timestamp" =
      some (.number ⟨true, 9223372036854775809, none⟩) := rfl
  refine ⟨row, hrow, ?_, ?_⟩
  · obtain ⟨v, hv, hexact, -⟩ := bind_json_integer hrow hheight rfl
    obtain ⟨-, word, hbind, hread⟩ := hexact ⟨0, rfl⟩
    exact ⟨v, word, hv, hbind, by simpa using hread⟩
  · obtain ⟨v, hv, -, hnearest⟩ := bind_json_integer hrow htimestamp rfl
    have hbelow : ∀ i : Int64, -9223372036854775809 ≠ i.toInt := fun i => by
      have := i.le_toInt
      omega
    obtain ⟨x, hx, hint8, -⟩ := hnearest hbelow
    have hint : (Json.Number.toBinary64 ⟨true, 9223372036854775809, none⟩).toInt? =
        some Int64.minValue.toInt := by decide +kernel
    have hvalue : x.value = (Int64.minValue.toInt : ℚ) :=
      (hx.unique (Json.Number.isNearest_of_written? rfl)).trans
        ((BinaryFloat.toInt?_eq_some_iff _ _).mp hint).2
    have hmin : Int64.minValue.toInt = -9223372036854775808 := by decide
    obtain ⟨hbytes, hbound⟩ := hint8 (by rw [hvalue, hmin]; norm_num)
    obtain ⟨bytes, hbind⟩ := hbound.mpr ⟨Int64.minValue, hvalue⟩
    obtain ⟨word, rfl, -, hread⟩ := hbytes bytes hbind
    rw [hvalue, hmin] at hread
    exact ⟨v, word, hv, hbind, by exact_mod_cast hread⟩

/-- An integer too large for a word loses its last digits: stored as a decimal it is the shortest
one of its nearest double. -/
theorem bind_rounded_json_integer :
    let lit : Json.Number := ⟨false, 18446744073709551615, none⟩
    lit.written? = some 18446744073709551615 ∧
      ∃ row v word, Row.ofJson (.object [("timestamp", .number lit)]) = .ok row ∧
        row.get? "timestamp" = some v ∧ v.bind (.builtin .numeric) = .ok (some word) ∧
        Numeric.read? word = some 18446744073709552000 := by
  intro lit
  have hstored : Numeric.ofDecimal? lit.toBinary64.negative lit.toBinary64.decimal =
      some ⟨[1844, 6744, 737, 955, 2000], 4, false, 0⟩ := by decide +kernel
  have hbind : (Value.float lit.toBinary64).bind (.builtin .numeric) =
      .ok (some (Numeric.bytes ⟨[1844, 6744, 737, 955, 2000], 4, false, 0⟩)) :=
    Value.bind_float_numeric_eq_ok_iff.mpr ⟨by decide +kernel, _, hstored, rfl⟩
  refine ⟨rfl, _, _, _, rfl, rfl, hbind, ?_⟩
  have hread : Numeric.ofBytes? (Numeric.bytes ⟨[1844, 6744, 737, 955, 2000], 4, false, 0⟩) =
      some ⟨[1844, 6744, 737, 955, 2000], 4, false, 0⟩ := by decide +kernel
  rw [Numeric.read?, hread, Option.map_some]
  norm_num [Numeric.value, Numeric.magnitude, signed]

end TenantSql
