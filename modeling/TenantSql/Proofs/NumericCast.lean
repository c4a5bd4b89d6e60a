import TenantSql.Proofs.Comparand
import TenantSql.Proofs.NumericWire
import TenantSql.Proofs.ReadBack
import TenantSql.Proofs.SelectMeaning
/-!
# TenantSql.Proofs.NumericCast

The cast of a placeholder suits the value that is bound to it.

A number with a fraction is cast to `numeric`, where every such double has a stored
form, as none of them is large (`Value.exists_bind_numeric`). A number without one takes
the type of its column, and 64-bit integers take it if it is in their range
(`Value.exists_bind_int8`). So whatever decimal number in that range is written in a
condition, its value is bound (`cast_suits_comparand`).
-/

namespace TenantSql

/-- The number that a value is, if it is one. -/
def Value.number? : Value → Option ℚ
  | int n => some n.toInt
  | float x => if x.isFinite then some x.value else none
  | _ => none

/-- The value is a text or a number that is not infinite. -/
def Value.IsDefinite : Value → Prop
  | null => False
  | int _ => True
  | float x => x.isFinite = true
  | text _ => True

/-- The type of a placeholder that is compared with a column: its cast, or without one the type of
the column. -/
def Bound.typeIn (column : PgType) (b : Bound) : PgType :=
  match b.cast.bind BuiltinType.ofName? with
  | some type => .builtin type
  | none => column

namespace Value

/-! ### Numbers -/

/-- Whatever is read from a filter is definite. -/
theorem isDefinite_parseNumeric (raw : String) : (parseNumeric raw).IsDefinite := by
  unfold parseNumeric
  split
  · trivial
  split
  · dsimp only
    split
    · assumption
    · trivial
  · trivial

/-- No infinity is read from a filter. -/
theorem isFinite_of_parseNumeric {raw : String} {x : Binary64} (h : parseNumeric raw = .float x) :
    x.isFinite = true := by
  have hdefinite := isDefinite_parseNumeric raw
  rwa [h] at hdefinite

/-- What is read from a filter as a number is one. -/
theorem exists_number?_of_parseNumeric {raw : String}
    (h : (∃ i, parseNumeric raw = .int i) ∨ ∃ x, parseNumeric raw = .float x) :
    ∃ q, (parseNumeric raw).number? = some q := by
  rcases h with ⟨i, hi⟩ | ⟨x, hx⟩
  · exact ⟨i.toInt, by rw [hi]; rfl⟩
  · exact ⟨x.value, by rw [hx]; exact if_pos (isFinite_of_parseNumeric hx)⟩

/-- A number is an integer or a finite double. -/
theorem number?_eq_some_iff {v : Value} {q : ℚ} :
    v.number? = some q ↔ (∃ i : Int64, v = .int i ∧ q = i.toInt) ∨
      ∃ x : Binary64, v = .float x ∧ x.isFinite = true ∧ q = x.value := by
  cases v with
  | null => simp [number?]
  | text s => simp [number?]
  | int i =>
    constructor
    · intro h
      cases h
      exact .inl ⟨i, rfl, rfl⟩
    · rintro (⟨j, hj, rfl⟩ | ⟨x, hx, -⟩)
      · cases hj
        rfl
      · cases hx
  | float x =>
    constructor
    · intro h
      have hnumber : number? (.float x) = if x.isFinite then some x.value else none := rfl
      rw [hnumber, Option.ite_none_right_eq_some, Option.some_inj] at h
      exact .inr ⟨x, rfl, h.1, h.2.symm⟩
    · rintro (⟨j, hj, -⟩ | ⟨y, hy, hfinite, rfl⟩)
      · cases hj
      · cases hy
        exact if_pos hfinite

theorem isFractional_iff {v : Value} {q : ℚ} (h : v.number? = some q) :
    v.isFractional = true ↔ ∀ n : Int, q ≠ n := by
  rcases number?_eq_some_iff.mp h with ⟨i, rfl, rfl⟩ | ⟨x, rfl, hfinite, rfl⟩
  · exact ⟨nofun, fun hne => absurd rfl (hne i.toInt)⟩
  · rw [isFractional, Option.isNone_iff_eq_none, Option.eq_none_iff_forall_ne_some]
    refine forall_congr' fun n => not_congr ?_
    rw [x.toInt?_eq_some_iff]
    exact and_iff_right hfinite

/-! ### What is bound -/

/-- A number with a fraction has a stored form. -/
theorem exists_bind_numeric {v : Value} {q : ℚ} (h : v.number? = some q) (hq : ∀ n : Int, q ≠ n) :
    ∃ word, v.bindChecked (.builtin .numeric) = .ok (some word) := by
  rcases number?_eq_some_iff.mp h with ⟨i, rfl, rfl⟩ | ⟨x, rfl, hfinite, rfl⟩
  · exact absurd rfl (hq i.toInt)
  · have hlt := Binary64.value_decimal_lt_of_fractional (BinaryFloat.isNaN_of_isFinite hfinite) hq
    obtain ⟨n, hn⟩ := Numeric.exists_ofDecimal? x.negative (hlt.trans (by norm_num))
    exact ⟨n.bytes, bind_float_numeric_eq_ok_iff.mpr ⟨hfinite, n, hn, rfl⟩⟩

/-- A whole number up to both ends of the range of 64-bit integers is bound as one. The number one
above them counts, as it is taken for the greatest one. -/
theorem exists_bind_int8 {v : Value} {q : ℚ} (h : v.number? = some q) (hq : ∃ n : Int, q = n)
    (hlow : -2 ^ 63 ≤ q) (hhigh : q ≤ 2 ^ 63) :
    ∃ word, v.bindChecked (.builtin .int8) = .ok (some word) := by
  obtain ⟨n, hn⟩ := hq
  rw [hn] at hlow hhigh
  have hlow' : -2 ^ 63 ≤ n := by exact_mod_cast hlow
  have hhigh' : n ≤ 2 ^ 63 := by exact_mod_cast hhigh
  rcases number?_eq_some_iff.mp h with ⟨i, rfl, rfl⟩ | ⟨x, rfl, hfinite, rfl⟩
  · exact ⟨_, bind_int_int8 i⟩
  · have hint : integerOfFloat? x = some (min n (2 ^ 63 - 1)) :=
      integerOfFloat?_eq_some_iff_min.mpr
        ⟨n, (x.toInt?_eq_some_iff n).mpr ⟨hfinite, hn⟩, ⟨hlow', hhigh'⟩, rfl⟩
    obtain ⟨i, hi⟩ : ∃ i : Int64, i.toInt = min n (2 ^ 63 - 1) :=
      exists_int64_of_range (by omega) (by omega)
    rw [← hi] at hint
    exact ⟨_, bind_float_int8 hint⟩

/-- A numeral in the range of 64-bit integers is read as a number that is not beyond the range. -/
theorem exists_number?_of_numeral {n : Numeral} (hlow : -2 ^ 63 ≤ n.value)
    (hhigh : n.value < 2 ^ 63) :
    ∃ q, (parseNumeric n.text).number? = some q ∧ -2 ^ 63 ≤ q ∧ q ≤ 2 ^ 63 := by
  rcases parseNumeric_numeral n with ⟨i, hi, hvalue⟩ | ⟨-, x, hx, -, hvalue⟩
  · refine ⟨i.toInt, by rw [hvalue]; rfl, ?_⟩
    rw [← Numeral.value_of_integer? hi]
    exact ⟨hlow, hhigh.le⟩
  · have hle := Binary64.abs_value_le_two_pow (k := 63) hx (by decide)
      (abs_le.mpr ⟨hlow, hhigh.le⟩)
    refine ⟨x.value, ?_, abs_le.mp hle.2⟩
    rw [hvalue, if_pos hle.1]
    exact if_pos hle.1

end Value

/-! ### Placeholders -/

namespace Filter

/-- The cast of a fraction is the only one. -/
theorem cast_bound (f : Filter) :
    f.bound.cast = if f.value.isFractional then some "numeric" else none := rfl

theorem typeIn_bound (f : Filter) (column : PgType) :
    f.bound.typeIn column = if f.value.isFractional then .builtin .numeric else column := by
  rw [Bound.typeIn, cast_bound]
  cases f.value.isFractional <;> rfl

theorem placeholder_bound (f : Filter) (k : Nat) :
    f.bound.placeholder k =
      "$" ++ natText k ++ if f.value.isFractional then "::numeric" else "" := by
  rw [Bound.placeholder, cast_bound]
  cases f.value.isFractional <;> rfl

theorem sql_appendTo (f : Filter) (st : Statement) :
    (f.appendTo st).sql = st.sql ++ (f.column ++ " " ++ f.op.sql ++ " " ++
      ("$" ++ natText (st.paramCount + 1) ++
        if f.value.isFractional then "::numeric" else "")) := by
  rw [← f.placeholder_bound]
  exact Statement.rendered_appendTo Bound.placeholder st f

/-- A number in the range of 64-bit integers, or at its upper end, is bound to its placeholder. -/
theorem exists_bind_typeIn {f : Filter} {q : ℚ} (h : f.value.number? = some q) (hlow : -2 ^ 63 ≤ q)
    (hhigh : q ≤ 2 ^ 63) :
    ∃ word, f.value.bindChecked (f.bound.typeIn (.builtin .int8)) = .ok (some word) := by
  have hfraction := Value.isFractional_iff h
  rw [f.typeIn_bound]
  by_cases hq : ∀ n : Int, q ≠ n
  · rw [if_pos (hfraction.mpr hq)]
    exact Value.exists_bind_numeric h hq
  · rw [if_neg (fun hf => hq (hfraction.mp hf))]
    exact Value.exists_bind_int8 h (not_forall_not.mp hq) hlow hhigh

end Filter

/-- **The cast of a placeholder suits its value.** A filter that is read as a number is bound as
that number. Its placeholder is cast to `numeric` exactly if the number has a fraction, and then the
value is bound to that type; otherwise it is bound to 64-bit integers if it is in their range. So
every decimal number in the range is bound to the placeholder of its condition on a column of 64-bit
integers. -/
theorem cast_suits_comparand {column : String} {kind : ColumnKind} {raw : String}
    (hkind : kind ≠ .string) :
    let f := Filter.parse column kind raw
    ((∃ i, f.value = .int i) ∨ (∃ x, f.value = .float x) →
      ∃ q, f.value.number? = some q ∧
        (∃ cast ∈ ["::numeric", ""], (cast = "::numeric" ↔ ∀ n : Int, q ≠ n) ∧
          ∀ st, (f.appendTo st).params = st.params ++ [f.value] ∧
            (f.appendTo st).sql = st.sql ++ (column ++ " " ++ f.op.sql ++ " " ++
              ("$" ++ natText (st.paramCount + 1) ++ cast))) ∧
        ((∀ n : Int, q ≠ n) → ∃ word, f.value.bindChecked (.builtin .numeric) = .ok (some word)) ∧
        ((∃ n : Int, q = n) → -2 ^ 63 ≤ q → q < 2 ^ 63 →
          ∃ word, f.value.bindChecked (.builtin .int8) = .ok (some word))) ∧
    ∀ n : Numeral, f.comparand = n.text → -2 ^ 63 ≤ n.value → n.value < 2 ^ 63 →
      ∃ word, f.value.bindChecked (f.bound.typeIn (.builtin .int8)) = .ok (some word) := by
  intro f
  have hvalue : f.value = .parseNumeric f.comparand := Filter.value_parse hkind
  constructor
  · intro hnumber
    rw [hvalue] at hnumber
    obtain ⟨q, hq⟩ := Value.exists_number?_of_parseNumeric hnumber
    rw [← hvalue] at hq
    refine ⟨q, hq, ⟨if f.value.isFractional then "::numeric" else "", ?_, ?_, fun st => ⟨?_, ?_⟩⟩,
      Value.exists_bind_numeric hq,
      fun hint hlow hhigh => Value.exists_bind_int8 hq hint hlow hhigh.le⟩
    · cases f.value.isFractional <;> decide
    · rw [← Value.isFractional_iff hq]
      cases f.value.isFractional <;> decide
    · exact Statement.params_appendTo st f
    · rw [f.sql_appendTo, Filter.parse_column]
  · intro n hn hlow hhigh
    obtain ⟨q, hq, hlow', hhigh'⟩ := Value.exists_number?_of_numeral hlow hhigh
    rw [← hn, ← hvalue] at hq
    exact Filter.exists_bind_typeIn hq hlow' hhigh'

/-- A fraction with an exponent, an integer with one, and a number so near the end of the range that
its double is beyond it. -/
theorem cast_suits_hostile_comparands :
    (let f := Filter.parse "hashrate" .numeric "lt-12.5e-1"
    (f.appendTo (.new "")).sql = "hashrate < $1::numeric" ∧
      ∃ word, f.value.bindChecked (.builtin .numeric) = .ok (some word)) ∧
    (let f := Filter.parse "height" .generic "1.5e1"
    (f.appendTo (.new "")).sql = "height = $1" ∧
      ∃ word, f.value.bindChecked (.builtin .int8) = .ok (some word)) ∧
    (let n : Numeral := ⟨.none, ⟨"9223372036854775807".toList, by decide⟩,
      some ⟨['5'], by decide⟩, none, by decide⟩
    let f := Filter.parse "timestamp" .numeric "ge9223372036854775807.5"
    n.value = 2 ^ 63 - 1 / 2 ∧ f.comparand = n.text ∧
      ∃ word, f.value.bindChecked (f.bound.typeIn (.builtin .int8)) = .ok (some word)) := by
  refine ⟨?_, ?_, ?_⟩
  · intro f
    refine ⟨by decide +kernel, ?_⟩
    have hfraction : f.value.isFractional = true := by decide +kernel
    cases hvalue : f.value with
    | float x =>
      obtain ⟨q, hq, -, hnumeric, -⟩ := (cast_suits_comparand (by decide)).1 (.inr ⟨x, hvalue⟩)
      rw [← hvalue]
      exact hnumeric ((Value.isFractional_iff hq).mp hfraction)
    | _ => simp [hvalue, Value.isFractional] at hfraction
  · intro f
    refine ⟨by decide +kernel, ?_⟩
    have hinteger : readInt? "1.5e1".toList = none := by decide +kernel
    have hdecimal : readDecimal? "1.5e1".toList = some (false, ⟨15, 0⟩) := by decide +kernel
    have hfinite : (BinaryFloat.ofDecimal false ⟨15, 0⟩ : Binary64).isFinite = true := by
      decide +kernel
    have hvalue : f.value = .float (.ofDecimal false ⟨15, 0⟩) := by
      rw [Filter.value_parse (by decide)]
      change Value.parseNumeric "1.5e1" = _
      rw [Value.parseNumeric, hinteger, hdecimal]
      exact if_pos hfinite
    obtain ⟨q, hq, -, -, hint8⟩ := (cast_suits_comparand (by decide)).1 (.inr ⟨_, hvalue⟩)
    have hx : (BinaryFloat.ofDecimal false ⟨15, 0⟩ : Binary64).value = (15 : Int) :=
      ((BinaryFloat.toInt?_eq_some_iff _ _).mp (by decide +kernel)).2
    have hq' : f.value.number? = some ((15 : Int) : ℚ) :=
      Value.number?_eq_some_iff.mpr (.inr ⟨_, hvalue, hfinite, hx.symm⟩)
    obtain rfl := Option.some.inj (hq.symm.trans hq')
    exact hint8 ⟨15, rfl⟩ (by norm_num) (by norm_num)
  · intro n f
    have hvalue : n.value = 2 ^ 63 - 1 / 2 := by
      have hwhole : Nat.ofDigitChars 10 "9223372036854775807".toList 0 = 9223372036854775807 := by
        decide +kernel
      have hfraction : Nat.ofDigitChars 10 ['5'] 0 = 5 := by decide
      simp only [n, Numeral.value, Numeral.fractionValue, Numeral.exponentValue, Digits.value,
        Sign.negative, signed, hwhole, hfraction]
      norm_num
    have hcomparand : f.comparand = n.text := by decide +kernel
    exact ⟨hvalue, hcomparand, (cast_suits_comparand (by decide)).2 n hcomparand
      (by rw [hvalue]; norm_num) (by rw [hvalue]; norm_num)⟩

end TenantSql
