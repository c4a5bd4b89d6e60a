import TenantSql.Proofs.NumericCast
/-!
# TenantSql.Proofs.IntegerBinding

Numbers are bound to the types of integers exactly if they are in range.

A double that is a whole number from `-2 ^ 63` up to and with `2 ^ 63` is taken for an
integer, and the range of a narrow type is tested on that integer
(`Value.integerOfFloat?_fits`). For an integer and for a double, of whatever bits, it is then
the same whether it is bound: it is if it is a whole number in the range of the type,
and its bytes are the only ones of that width that it is read from
(`Value.bind_integer_type`).

Only one number is bound without being in range. The greatest 64-bit integer is no
double, and the double that stands for it in the test of the range is the one above. So
`2 ^ 63` passes, and eight bytes say that it is `2 ^ 63 - 1`
(`Value.bind_double_beyond_int8`).
-/

namespace TenantSql

/-- How many bytes a type of integers has. -/
def BuiltinType.integerWidth? : BuiltinType → Option Nat
  | int2 => some 2
  | int4 => some 4
  | int8 => some 8
  | _ => none

/-- An integer has a place among the integers of `width` bytes. -/
def FitsWidth (width : Nat) (n : Int) : Prop := -2 ^ (8 * width - 1) ≤ n ∧ n < 2 ^ (8 * width - 1)

instance (width : Nat) (n : Int) : Decidable (FitsWidth width n) :=
  inferInstanceAs (Decidable (_ ∧ _))

namespace BuiltinType

theorem integerWidth?_eq_some_iff {type : BuiltinType} {width : Nat} :
    type.integerWidth? = some width ↔
      (type = .int2 ∧ width = 2) ∨ (type = .int4 ∧ width = 4) ∨ (type = .int8 ∧ width = 8) := by
  cases type <;> simp [integerWidth?, eq_comm]

end BuiltinType

namespace FitsWidth

variable {type : BuiltinType} {width : Nat} {n : Int}

/-- Every type of integers is within 64 bits. -/
theorem int64_range (hwidth : type.integerWidth? = some width) (h : FitsWidth width n) :
    -2 ^ 63 ≤ n ∧ n < 2 ^ 63 := by
  unfold FitsWidth at h
  rcases BuiltinType.integerWidth?_eq_some_iff.mp hwidth with ⟨-, rfl⟩ | ⟨-, rfl⟩ | ⟨-, rfl⟩ <;>
    omega

/-- The greatest 64-bit integer fits the widest type only. -/
theorem eq_int8 (hwidth : type.integerWidth? = some width) (h : FitsWidth width (2 ^ 63 - 1)) :
    type = .int8 := by
  unfold FitsWidth at h
  rcases BuiltinType.integerWidth?_eq_some_iff.mp hwidth with ⟨-, rfl⟩ | ⟨-, rfl⟩ | ⟨rfl, -⟩
  · omega
  · omega
  · rfl

/-- The bytes of an integer that fits are the only ones that it is read from. -/
theorem eq_twosComplement_iff (h : FitsWidth width n) (hwidth : type.integerWidth? = some width)
    {word : List UInt8} :
    word = twosComplement width n ↔ word.length = width ∧ ofTwosComplement word = n := by
  have hpow : (twoPow (8 * width) : Int) = 2 * 2 ^ (8 * width - 1) := by
    rcases BuiltinType.integerWidth?_eq_some_iff.mp hwidth with ⟨-, rfl⟩ | ⟨-, rfl⟩ | ⟨-, rfl⟩ <;>
      decide
  obtain ⟨hlow, hhigh⟩ := h
  exact TenantSql.eq_twosComplement_iff (by omega) (by omega)

end FitsWidth

namespace Value

variable {type : BuiltinType} {width : Nat}

/-! ### Which integer a number is bound as -/

theorem number?_float_eq_some_iff {x : Binary64} {n : Int} :
    number? (.float x) = some (n : ℚ) ↔ x.toInt? = some n := by
  rw [x.toInt?_eq_some_iff, number?, Option.ite_none_right_eq_some, Option.some_inj]

/-- What is taken for an integer of the range is one, but for the number one above the greatest. -/
theorem integerOfFloat?_fits {x : Binary64} {n : Int} (hwidth : type.integerWidth? = some width)
    (hmax : type = .int8 → number? (.float x) ≠ some (2 ^ 63)) :
    integerOfFloat? x = some n ∧ FitsWidth width n ↔
      number? (.float x) = some (n : ℚ) ∧ FitsWidth width n := by
  rw [number?_float_eq_some_iff]
  constructor
  · intro h
    obtain ⟨hint, hfits⟩ := h
    obtain ⟨m, hm, hrange, rfl⟩ := integerOfFloat?_eq_some_iff_min.mp hint
    by_cases hlt : m < 2 ^ 63
    · have hmin : min m (2 ^ 63 - 1) = m := min_eq_left (Int.le_sub_one_of_lt hlt)
      rw [hmin] at hfits ⊢
      exact ⟨hm, hfits⟩
    · have heq : m = 2 ^ 63 := le_antisymm hrange.2 (not_lt.mp hlt)
      have hmin : min m (2 ^ 63 - 1) = 2 ^ 63 - 1 := min_eq_right (by omega)
      rw [hmin] at hfits
      rw [heq] at hm
      exact absurd ((number?_float_eq_some_iff.mpr hm).trans (by norm_num))
        (hmax (hfits.eq_int8 hwidth))
  · intro h
    obtain ⟨hn, hfits⟩ := h
    have hrange := hfits.int64_range hwidth
    exact ⟨integerOfFloat?_eq_some_iff_min.mpr ⟨n, hn, ⟨hrange.1, hrange.2.le⟩,
      (min_eq_left (Int.le_sub_one_of_lt hrange.2)).symm⟩, hfits⟩

/-! ### What is bound -/

theorem bindInteger_eq_ok_iff_fitsWidth {n : Int} {word : List UInt8} :
    bindInteger width n = .ok word ↔ FitsWidth width n ∧ word = twosComplement width n := by
  rw [bindInteger_eq_ok_iff, FitsWidth, twoPow]
  rfl

theorem bindInt_of_integerWidth? (hwidth : type.integerWidth? = some width) (n : Int)
    (refused : BindError) : bindInt n (.builtin type) refused = bindInteger width n := by
  rcases BuiltinType.integerWidth?_eq_some_iff.mp hwidth with
    ⟨rfl, rfl⟩ | ⟨rfl, rfl⟩ | ⟨rfl, rfl⟩ <;>
    rfl

/-- A double is bound as the integer that it is taken for. -/
theorem bindFloat_eq_ok_iff {x : Binary64} {word : List UInt8}
    (hwidth : type.integerWidth? = some width) :
    bindFloat x (.builtin type) = .ok word ↔
      ∃ n, integerOfFloat? x = some n ∧ bindInteger width n = .ok word := by
  have hbind : ∀ n refused, bindInt n (.builtin type) refused = bindInteger width n :=
    bindInt_of_integerWidth? hwidth
  rcases BuiltinType.integerWidth?_eq_some_iff.mp hwidth with
    ⟨rfl, rfl⟩ | ⟨rfl, rfl⟩ | ⟨rfl, rfl⟩ <;>
    cases hint : integerOfFloat? x <;>
    simp [bindFloat, hint, hbind]

theorem map_some_eq_ok_iff {ε α : Type} {outcome : Except ε α} {result : Option α} :
    outcome.map some = .ok result ↔ ∃ a, outcome = .ok a ∧ result = some a := by
  cases outcome <;> simp [Except.map, eq_comm]

/-- An integer or a double is bound exactly if it is a whole number that fits. -/
theorem bind_eq_ok_iff_fitsWidth {v : Value} {result : Option (List UInt8)}
    (hv : (∃ i, v = .int i) ∨ ∃ x, v = .float x) (hwidth : type.integerWidth? = some width)
    (hmax : type = .int8 → v.number? ≠ some (2 ^ 63)) :
    v.bind (.builtin type) = .ok result ↔
      ∃ n : Int, (v.number? = some (n : ℚ) ∧ FitsWidth width n) ∧
        result = some (twosComplement width n) := by
  rcases hv with ⟨i, rfl⟩ | ⟨x, rfl⟩
  · have hnumber : ∀ n : Int, number? (.int i) = some (n : ℚ) ↔ i.toInt = n := by
      intro n
      rw [number?, Option.some_inj, Int.cast_inj]
    simp [bind, map_some_eq_ok_iff, bindInt_of_integerWidth? hwidth,
      bindInteger_eq_ok_iff_fitsWidth, hnumber, and_assoc]
  · simp only [← integerOfFloat?_fits hwidth hmax, bind, map_some_eq_ok_iff,
      bindFloat_eq_ok_iff hwidth, bindInteger_eq_ok_iff_fitsWidth]
    constructor
    · intro h
      obtain ⟨word, ⟨n, hn, hfits, hword⟩, hresult⟩ := h
      exact ⟨n, ⟨hn, hfits⟩, by rw [hresult, hword]⟩
    · intro h
      obtain ⟨n, ⟨hn, hfits⟩, hresult⟩ := h
      exact ⟨_, ⟨n, hn, hfits, rfl⟩, hresult⟩

theorem exists_error_iff {ε α : Type} {outcome : Except ε α} :
    (∃ e, outcome = .error e) ↔ ¬∃ a, outcome = .ok a := by
  cases outcome <;> simp

/-- **Numbers are bound to a type of integers exactly if they are whole and in its range.** Whatever
the integer or the bits of the double are, it is bound to a type of two, four or eight bytes if its
number is a whole one in the range of the type, and then to the bytes of that width that are read as
this number, most significant first. Everything else is refused: fractions, numbers out of range,
infinities and what is no number. Left out is the number one above the greatest 64-bit integer, in
eight bytes. -/
theorem bind_integer_type {v : Value} {type : BuiltinType} {width : Nat}
    (hv : (∃ i, v = .int i) ∨ ∃ x, v = .float x) (hwidth : type.integerWidth? = some width)
    (hmax : type = .int8 → v.number? ≠ some (2 ^ 63)) :
    (∀ result, v.bind (.builtin type) = .ok result ↔
      ∃ n : Int, v.number? = some (n : ℚ) ∧ FitsWidth width n ∧
        ∃ word, result = some word ∧ word.length = width ∧ ofTwosComplement word = n) ∧
    ((∃ e, v.bind (.builtin type) = .error e) ↔
      ¬∃ n : Int, v.number? = some (n : ℚ) ∧ FitsWidth width n) := by
  have hbind : ∀ result, v.bind (.builtin type) = .ok result ↔
      ∃ n : Int, (v.number? = some (n : ℚ) ∧ FitsWidth width n) ∧
        result = some (twosComplement width n) :=
    fun _ => bind_eq_ok_iff_fitsWidth hv hwidth hmax
  constructor
  · intro result
    rw [hbind]
    constructor
    · intro h
      obtain ⟨n, ⟨hn, hfits⟩, hresult⟩ := h
      exact ⟨n, hn, hfits, _, hresult, (hfits.eq_twosComplement_iff hwidth).mp rfl⟩
    · intro h
      obtain ⟨n, hn, hfits, word, hresult, hword⟩ := h
      exact ⟨n, ⟨hn, hfits⟩, by rw [hresult, (hfits.eq_twosComplement_iff hwidth).mpr hword]⟩
  · rw [exists_error_iff, not_iff_not]
    constructor
    · intro h
      obtain ⟨result, hresult⟩ := h
      obtain ⟨n, hn, -⟩ := (hbind result).mp hresult
      exact ⟨n, hn⟩
    · intro h
      obtain ⟨n, hn⟩ := h
      exact ⟨_, (hbind _).mpr ⟨n, hn, rfl⟩⟩

/-- The ends of the narrowest and of the widest range, the number just outside of each, and what is
no number. -/
theorem bind_integer_type_at_ends :
    bind (.float (.ofInt (-32768))) (.builtin .int2) = .ok (some [0x80, 0x00]) ∧
      (∃ e, bind (.float (.ofInt 32768)) (.builtin .int2) = .error e) ∧
      bind (.float (.ofInt (2 ^ 63 - 1024))) (.builtin .int8) =
        .ok (some [0x7F, 0xFF, 0xFF, 0xFF, 0xFF, 0xFF, 0xFC, 0x00]) ∧
      (∃ e, bind (.float (.ofInt (2 ^ 63))) (.builtin .int4) = .error e) ∧
      ∃ e, bind (.float (.nan true)) (.builtin .int8) = .error e := by
  have hlow : number? (.float (.ofInt (-32768))) = some ((-32768 : Int) : ℚ) :=
    number?_float_eq_some_iff.mpr (by decide +kernel)
  have habove : number? (.float (.ofInt 32768)) = some ((32768 : Int) : ℚ) :=
    number?_float_eq_some_iff.mpr (by decide +kernel)
  have hhigh : number? (.float (.ofInt (2 ^ 63 - 1024))) = some ((2 ^ 63 - 1024 : Int) : ℚ) :=
    number?_float_eq_some_iff.mpr (by decide +kernel)
  have hbeyond : number? (.float (.ofInt (2 ^ 63))) = some ((2 ^ 63 : Int) : ℚ) :=
    number?_float_eq_some_iff.mpr (by decide +kernel)
  have hnan : number? (.float (.nan true)) = none := by
    rw [number?, if_neg (by decide)]
  have hout : ∀ {v : Value} {width : Nat} {m : Int}, v.number? = some (m : ℚ) →
      ¬FitsWidth width m → ¬∃ n : Int, v.number? = some (n : ℚ) ∧ FitsWidth width n := by
    intro v width m hm hfits h
    obtain ⟨n, hn, hn'⟩ := h
    rw [hm, Option.some_inj, Int.cast_inj] at hn
    rw [← hn] at hn'
    exact hfits hn'
  refine ⟨?_, ?_, ?_, ?_, ?_⟩
  · refine ((bind_integer_type (.inr ⟨_, rfl⟩) rfl (by decide)).1 _).mpr
      ⟨-32768, hlow, by decide, _, rfl, rfl, by decide⟩
  · exact (bind_integer_type (.inr ⟨_, rfl⟩) rfl (by decide)).2.mpr (hout habove (by decide))
  · refine ((bind_integer_type (.inr ⟨_, rfl⟩) rfl ?_).1 _).mpr
      ⟨2 ^ 63 - 1024, hhigh, by decide, _, rfl, rfl, by decide⟩
    intro _
    rw [hhigh]
    norm_num
  · exact (bind_integer_type (.inr ⟨_, rfl⟩) rfl (by decide)).2.mpr (hout hbeyond (by decide))
  · refine (bind_integer_type (.inr ⟨_, rfl⟩) rfl ?_).2.mpr ?_
    · simp [hnan]
    · simp [hnan]

/-- One number is out of range and is bound all the same, as the integer below it. -/
theorem bind_double_beyond_int8 :
    let x : Binary64 := .ofInt (2 ^ 63)
    number? (.float x) = some ((2 ^ 63 : Int) : ℚ) ∧ ¬FitsWidth 8 (2 ^ 63) ∧
      ∃ word, bind (.float x) (.builtin .int8) = .ok (some word) ∧
        ofTwosComplement word = 2 ^ 63 - 1 := by
  intro x
  have hint : integerOfFloat? x = some (2 ^ 63 - 1) := by decide +kernel
  refine ⟨number?_float_eq_some_iff.mpr (by decide +kernel), by decide,
    twosComplement 8 (2 ^ 63 - 1), ?_, by decide⟩
  simp only [bind, bindFloat, hint, bindInt]
  rfl

end Value

end TenantSql
