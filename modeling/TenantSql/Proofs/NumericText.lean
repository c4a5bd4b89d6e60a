import TenantSql.Proofs.LiteralForm
import TenantSql.Proofs.NumberRange
import TenantSql.Proofs.NumericCast
/-!
# TenantSql.Proofs.NumericText

What the text of a filter on a number means.

What the readers of integers and of decimal numbers take is what can be written as a
numeral, so a text is read as the number of its numeral or not at all. Integers are tried
first, and of the other numerals the nearest double is taken, as long as it is finite
(`Value.parseNumeric_of_no_int64`). From `2 ^ 1024 - 2 ^ 970` on it is not, and what is no
number and what is beyond the doubles stays the text it was (`parseNumeric_meaning`).

With this no value of a selection is null, infinite or no number, whatever is asked for
(`Profile.isDefinite_of_mem_params`).
-/

namespace TenantSql

/-! ### Texts are read as the numerals they are -/

/-- A sign that is read stands at the front. -/
theorem exists_sign_append (cs : List Char) :
    ∃ sign : Sign, cs = sign.chars ++ (readSign cs).2 := by
  unfold readSign
  split
  · exact ⟨.minus, rfl⟩
  · exact ⟨.plus, rfl⟩
  · exact ⟨.none, rfl⟩

/-- What is read as an integer is a sign and digits. -/
theorem exists_digits_of_readInt? {cs : List Char} {i : Int} (h : readInt? cs = some i) :
    ∃ (sign : Sign) (ds : Digits), ds.chars ≠ [] ∧ cs = sign.chars ++ ds.chars := by
  obtain ⟨sign, hcs⟩ := exists_sign_append cs
  obtain ⟨_, hnat, -⟩ := Option.map_eq_some_iff.mp h
  obtain ⟨n, hn, -⟩ := Option.bind_eq_some_iff.mp hnat
  rw [readNat?, Option.ite_none_right_eq_some, Bool.and_eq_true, Bool.not_eq_true',
    List.isEmpty_eq_false_iff] at hn
  exact ⟨sign, ⟨(readSign cs).2, hn.1.2⟩, hn.1.1, hcs⟩

/-- What is read as an exponent is one, or nothing. -/
theorem exists_exponent_of_readExponent? {cs : List Char} {e : Int}
    (h : readExponent? cs = some e) :
    ∃ exponent : Option Exponent, cs = exponent.elim [] Exponent.chars := by
  cases cs with
  | nil => exact ⟨none, rfl⟩
  | cons c rest =>
    rw [readExponent?, Option.ite_none_right_eq_some] at h
    obtain ⟨hletter, hrest⟩ := h
    obtain ⟨sign, ds, hne, rfl⟩ := exists_digits_of_readInt? hrest
    exact ⟨some ⟨c, sign, ds, by simpa using hletter, hne⟩, rfl⟩

/-- A fraction that is read stands behind a point. -/
theorem exists_fraction_append (cs : List Char) :
    ∃ fraction : Option Digits,
      (readFraction cs).1 = fraction.elim [] Digits.chars ∧
      cs = (fraction.elim [] fun ds => '.' :: ds.chars) ++ (readFraction cs).2 := by
  unfold readFraction
  split
  · rename_i rest
    exact ⟨some ⟨rest.takeWhile Char.isDigit, List.all_takeWhile⟩, rfl,
      by simp [List.takeWhile_append_dropWhile]⟩
  · exact ⟨none, rfl, rfl⟩

namespace Numeral

theorem chars_eq (n : Numeral) :
    n.chars = n.sign.chars ++ (n.whole.chars ++
      ((n.fraction.elim [] fun ds => '.' :: ds.chars) ++ n.exponent.elim [] Exponent.chars)) := by
  unfold chars fractionChars exponentChars
  cases n.fraction <;> cases n.exponent <;> rfl

end Numeral

theorem readInt?_eq_some_iff {cs : List Char} {i : Int} :
    readInt? cs = some i ↔ ∃ n : Numeral, n.chars = cs ∧ n.integer? = some i := by
  constructor
  · intro h
    obtain ⟨sign, ds, hne, rfl⟩ := exists_digits_of_readInt? h
    let n : Numeral := ⟨sign, ds, none, none, .inl hne⟩
    have hchars : n.chars = sign.chars ++ ds.chars := by simp [n, Numeral.chars_eq]
    exact ⟨n, hchars, by rw [← n.readInt?_chars, hchars, h]⟩
  · rintro ⟨n, rfl, hi⟩
    rw [n.readInt?_chars, hi]

theorem exists_numeral_of_readDecimal? {cs : List Char} {r : Bool × Decimal}
    (h : readDecimal? cs = some r) : ∃ n : Numeral, n.chars = cs := by
  obtain ⟨sign, hcs⟩ := exists_sign_append cs
  unfold readDecimal? at h
  dsimp only at h
  split at h
  · cases h
  · rename_i hdigit
    obtain ⟨e, he, -⟩ := Option.map_eq_some_iff.mp h
    obtain ⟨fraction, hdigits, hfraction⟩ :=
      exists_fraction_append ((readSign cs).2.dropWhile Char.isDigit)
    obtain ⟨exponent, hexponent⟩ := exists_exponent_of_readExponent? he
    rw [hdigits, Bool.and_eq_true, not_and_or, List.isEmpty_iff, List.isEmpty_iff] at hdigit
    refine ⟨⟨sign, ⟨(readSign cs).2.takeWhile Char.isDigit, List.all_takeWhile⟩, fraction, exponent,
      hdigit.imp_right fun hne => ?_⟩, ?_⟩
    · cases fraction with
      | none => exact absurd rfl hne
      | some ds => exact ⟨ds, rfl, hne⟩
    · rw [Numeral.chars_eq, ← hexponent, ← hfraction, List.takeWhile_append_dropWhile, ← hcs]

namespace Numeral

theorem text_eq_iff {n : Numeral} {raw : String} : n.text = raw ↔ n.chars = raw.toList := by
  constructor
  · rintro rfl
    exact n.toList_text.symm
  · intro h
    rw [text, h, String.ofList_toList]

/-- A text denotes one number. -/
theorem value_eq_of_text_eq {m n : Numeral} (h : m.text = n.text) : m.value = n.value := by
  have hread := m.readDecimal?_chars
  rw [text_eq_iff.mp h, n.toList_text, n.readDecimal?_chars, Option.some_inj,
    Prod.mk.injEq] at hread
  rw [← m.signed_decimal_value, ← n.signed_decimal_value, hread.1, hread.2]

/-- A numeral has no characters but digits, signs, points and the letters of an exponent. -/
theorem isDigit_or_mem_of_mem_chars {n : Numeral} {c : Char} (h : c ∈ n.chars) :
    c.isDigit = true ∨ c ∈ ['+', '-', '.', 'e', 'E'] := by
  have hsign : ∀ sign : Sign, c ∈ sign.chars → c ∈ ['+', '-', '.', 'e', 'E'] := by
    intro sign hc
    cases sign <;> simp_all [Sign.chars]
  simp only [chars, List.mem_append] at h
  rcases h with hc | hc | hc | hc
  · exact .inr (hsign _ hc)
  · exact .inl (n.whole.isDigit c hc)
  · unfold fractionChars at hc
    split at hc
    · rename_i ds _
      exact (List.mem_cons.mp hc).symm.imp (ds.isDigit c) fun heq => by simp [heq]
    · cases hc
  · unfold exponentChars at hc
    split at hc
    · rename_i e _
      simp only [Exponent.chars, List.mem_cons, List.mem_append] at hc
      rcases hc with rfl | hc | hc
      · rcases e.isLetter with heq | heq <;> simp [heq]
      · exact .inr (hsign _ hc)
      · exact .inl (e.digits.isDigit c hc)
    · cases hc

end Numeral

/-! ### What the text of a filter means -/

/-- A sign and the nearest magnitude make one number. -/
theorem BinaryFloat.IsNearest.eq_of_negative_eq {f : FloatFormat} {y z : BinaryFloat f} {x : ℚ}
    (hy : y.IsNearest x) (hz : z.IsNearest x) (h : y.negative = z.negative) : y = z := by
  have hcode := hy.code_eq hz
  obtain ⟨_, _, _⟩ := y
  obtain ⟨_, _, _⟩ := z
  cases h
  cases hcode
  rfl

namespace Value

variable {raw : String}

theorem parseNumeric_eq_int_iff {i : Int64} :
    parseNumeric raw = .int i ↔ ∃ n : Numeral, n.text = raw ∧ n.integer? = some i.toInt := by
  have hread : parseNumeric raw = .int i ↔ (readInt? raw.toList).bind int64? = some i := by
    unfold parseNumeric
    split
    · rename_i j hj
      rw [hj, Option.some_inj, int.injEq]
    · rename_i hnone
      rw [hnone]
      refine iff_of_false ?_ nofun
      split
      · dsimp only
        split <;> exact nofun
      · exact nofun
  simp only [hread, Option.bind_eq_some_iff, int64?_eq_some_iff, exists_eq_right',
    readInt?_eq_some_iff, Numeral.text_eq_iff]

/-- A text that is no numeral stays text. -/
theorem parseNumeric_of_no_numeral (h : ∀ n : Numeral, n.text ≠ raw) :
    parseNumeric raw = .text raw := by
  have hint : (readInt? raw.toList).bind int64? = none := by
    rw [Option.eq_none_iff_forall_ne_some]
    intro i hi
    obtain ⟨_, hread, -⟩ := Option.bind_eq_some_iff.mp hi
    obtain ⟨n, hn, -⟩ := readInt?_eq_some_iff.mp hread
    exact h n (Numeral.text_eq_iff.mpr hn)
  have hdecimal : readDecimal? raw.toList = none := by
    rw [Option.eq_none_iff_forall_ne_some]
    intro r hr
    obtain ⟨n, hn⟩ := exists_numeral_of_readDecimal? hr
    exact h n (Numeral.text_eq_iff.mpr hn)
  rw [parseNumeric, hint, hdecimal]

/-- A numeral that is no 64-bit integer by its digits is read as the nearest double, with its sign,
unless that is infinite. -/
theorem parseNumeric_of_no_int64 {n : Numeral} (h : ∀ i : Int64, n.integer? ≠ some i.toInt) :
    ∃ x : Binary64, x.IsNearest n.value ∧ x.negative = n.sign.negative ∧
      parseNumeric n.text = if x.isFinite then .float x else .text n.text :=
  ((parseNumeric_numeral n).resolve_left fun ⟨i, hi, _⟩ => h i hi).2

/-- A numeral is beyond the doubles if its nearest one is infinite. -/
theorem isFinite_iff_of_isNearest {x : Binary64} {q : ℚ} (h : x.IsNearest q) :
    x.isFinite = true ↔ |q| < 2 ^ 1024 - 2 ^ 970 := by
  rw [h.isFinite_iff (by decide) (by decide), FloatFormat.overflow_double]

theorem parseNumeric_eq_float_iff {x : Binary64} :
    parseNumeric raw = .float x ↔ ∃ n : Numeral, n.text = raw ∧
      (∀ i : Int64, n.integer? ≠ some i.toInt) ∧
      x.IsNearest n.value ∧ x.negative = n.sign.negative ∧ x.isFinite = true := by
  constructor
  · intro h
    by_cases hn : ∃ n : Numeral, n.text = raw
    · obtain ⟨n, rfl⟩ := hn
      have hint : ∀ i : Int64, n.integer? ≠ some i.toInt := by
        intro i hi
        rw [parseNumeric_eq_int_iff.mpr ⟨n, rfl, hi⟩] at h
        cases h
      obtain ⟨y, hy, hsign, hread⟩ := parseNumeric_of_no_int64 hint
      rw [hread] at h
      split at h
      · rename_i hfinite
        cases h
        exact ⟨n, rfl, hint, hy, hsign, hfinite⟩
      · cases h
    · rw [parseNumeric_of_no_numeral (not_exists.mp hn)] at h
      cases h
  · rintro ⟨n, rfl, hint, hx, hsign, hfinite⟩
    obtain ⟨y, hy, hsign', hread⟩ := parseNumeric_of_no_int64 hint
    obtain rfl := hx.eq_of_negative_eq hy (hsign.trans hsign'.symm)
    rw [hread, if_pos hfinite]

theorem parseNumeric_eq_text_iff {s : String} :
    parseNumeric raw = .text s ↔ s = raw ∧
      ∀ n : Numeral, n.text = raw → 2 ^ 1024 - 2 ^ 970 ≤ |n.value| := by
  by_cases hn : ∃ n : Numeral, n.text = raw
  · obtain ⟨n, rfl⟩ := hn
    by_cases hint : ∃ i : Int64, n.integer? = some i.toInt
    · obtain ⟨i, hi⟩ := hint
      rw [parseNumeric_eq_int_iff.mpr ⟨n, rfl, hi⟩]
      refine iff_of_false nofun fun h => absurd (h.2 n rfl) (not_le.mpr ?_)
      rw [Numeral.value_of_integer? hi, ← FloatFormat.overflow_double]
      exact abs_lt_overflow_double (v := .int i) rfl
    · obtain ⟨y, hy, -, hread⟩ := parseNumeric_of_no_int64 (not_exists.mp hint)
      have hfinite := isFinite_iff_of_isNearest hy
      rw [hread]
      split
      · rename_i hy'
        exact iff_of_false nofun fun h => absurd (hfinite.mp hy') (not_lt.mpr (h.2 n rfl))
      · rename_i hy'
        rw [text.injEq, eq_comm, iff_self_and]
        rintro rfl m hm
        rw [Numeral.value_eq_of_text_eq hm]
        exact not_lt.mp (mt hfinite.mpr hy')
  · rw [parseNumeric_of_no_numeral (not_exists.mp hn), text.injEq, eq_comm, iff_self_and]
    exact fun _ n hn' => absurd ⟨n, hn'⟩ hn

/-- A character that no numeral has makes a text one that is no number. -/
theorem parseNumeric_of_mem {c : Char} (hc : c ∈ raw.toList) (hdigit : c.isDigit = false)
    (hmark : c ∉ ['+', '-', '.', 'e', 'E']) : parseNumeric raw = .text raw := by
  refine parseNumeric_of_no_numeral fun n hn => ?_
  rw [← Numeral.text_eq_iff.mp hn] at hc
  rcases Numeral.isDigit_or_mem_of_mem_chars hc with h | h
  · rw [hdigit] at h
    cases h
  · exact hmark h

end Value

/-! ### The values of a selection -/

theorem ColumnKind.isDefinite_valueOf (kind : ColumnKind) (raw : String) :
    (kind.valueOf raw).IsDefinite := by
  cases kind with
  | string => trivial
  | numeric => exact Value.isDefinite_parseNumeric _
  | generic => exact Value.isDefinite_parseNumeric _

/-- Whatever the parameters are, no value of a selection is null, infinite or no number. -/
theorem Profile.isDefinite_of_mem_params {p : Profile} {schema : Schema} {params : Params}
    {st : Statement} (h : (p.select schema params).result = .ok st) {v : Value}
    (hv : v ∈ st.params) : v.IsDefinite := by
  rw [params_of_select h] at hv
  simp only [List.mem_append, List.mem_map] at hv
  rcases hv with (⟨pair, -, rfl⟩ | ⟨raw, -, rfl⟩) | ⟨raw, -, rfl⟩
  · exact ColumnKind.isDefinite_valueOf _ _
  · exact Value.isDefinite_parseNumeric raw
  · exact Value.isDefinite_parseNumeric raw

/-- **What the text of a filter on a number means.** It is an integer exactly if the text is a sign,
if any, and digits, and the integer has 64 bits. Otherwise it is a double exactly if the text is a
decimal number whose nearest double is finite, and then it is that double, with the sign that was
written. Otherwise it is the text itself: exactly that of no decimal number, or of one so large that
its nearest double is infinite. A text with any other character than those of decimal numbers is
among these, so blanks and the words for infinities make texts. And so no value of a selection is
null, infinite or no number. -/
theorem parseNumeric_meaning :
    (∀ raw : String,
      (∀ i : Int64, Value.parseNumeric raw = .int i ↔
        ∃ n : Numeral, n.text = raw ∧ n.integer? = some i.toInt) ∧
      (∀ x : Binary64, Value.parseNumeric raw = .float x ↔ ∃ n : Numeral, n.text = raw ∧
        (∀ i : Int64, n.integer? ≠ some i.toInt) ∧
        x.IsNearest n.value ∧ x.negative = n.sign.negative ∧ x.isFinite = true) ∧
      (∀ s, Value.parseNumeric raw = .text s ↔ s = raw ∧
        ∀ n : Numeral, n.text = raw → 2 ^ 1024 - 2 ^ 970 ≤ |n.value|) ∧
      ∀ c ∈ raw.toList, c.isDigit = false → c ∉ ['+', '-', '.', 'e', 'E'] →
        Value.parseNumeric raw = .text raw) ∧
    ∀ {p : Profile} {schema : Schema} {params : Params} {st : Statement},
      (p.select schema params).result = .ok st → ∀ v ∈ st.params, v.IsDefinite :=
  ⟨fun _ => ⟨fun _ => Value.parseNumeric_eq_int_iff, fun _ => Value.parseNumeric_eq_float_iff,
    fun _ => Value.parseNumeric_eq_text_iff, fun _ => Value.parseNumeric_of_mem⟩,
    fun h _ => Profile.isDefinite_of_mem_params h⟩

/-- Zeros in front, an integer one below the range, an exponent beyond the doubles, and words. -/
theorem parseNumeric_meaning_of_hostile_texts :
    Value.parseNumeric "+007" = .int 7 ∧
    (∃ x : Binary64, Value.parseNumeric "-9223372036854775809" = .float x ∧ x.value = -2 ^ 63) ∧
    Value.parseNumeric "1e309" = .text "1e309" ∧
    Value.parseNumeric "-iNfinity" = .text "-iNfinity" ∧ Value.parseNumeric " 5" = .text " 5" ∧
    ∃ st, (Profile.currentNetwork.select ⟨"Pool-Main", by decide, by decide⟩
        ⟨[("limit", "nan"), ("height", "ltInfinity"), ("hashrate", "1e999")],
          by decide⟩).result = .ok st ∧
      st.paramCount = 3 ∧ ∀ v ∈ st.params, v.IsDefinite := by
  obtain ⟨hmeaning, hselect⟩ := parseNumeric_meaning
  refine ⟨?_, ?_, ?_, ?_, ?_, ?_⟩
  · let n : Numeral := ⟨.plus, ⟨['0', '0', '7'], by decide⟩, none, none, by decide⟩
    exact ((hmeaning _).1 7).mpr ⟨n, by decide +kernel, by decide⟩
  · let n : Numeral := ⟨.minus, ⟨"9223372036854775809".toList, by decide⟩, none, none, by decide⟩
    let x : Binary64 := .ofDecimal true n.decimal
    have hint : n.integer? = some (-9223372036854775809) := by decide +kernel
    have hnear : x.IsNearest n.value := by
      rw [← n.signed_decimal_value]
      exact BinaryFloat.isNearest_ofDecimal (by decide) true n.decimal
    have hvalue : x.value = (-2 ^ 63 : Int) :=
      ((BinaryFloat.toInt?_eq_some_iff _ _).mp (by decide +kernel)).2
    refine ⟨x, ((hmeaning _).2.1 x).mpr ⟨n, by decide +kernel, fun i hi => ?_, hnear, rfl,
      by decide +kernel⟩, by rw [hvalue]; norm_num⟩
    have hlow := i.le_toInt
    have heq := Option.some.inj (hint.symm.trans hi)
    omega
  · let n : Numeral := ⟨.none, ⟨['1'], by decide⟩, none,
      some ⟨'e', .none, ⟨['3', '0', '9'], by decide⟩, by decide, by decide⟩, by decide⟩
    have htext : n.text = "1e309" := by decide +kernel
    have hone : Nat.ofDigitChars 10 ['1'] 0 = 1 := by decide
    have hexponent : Nat.ofDigitChars 10 ['3', '0', '9'] 0 = 309 := by decide
    have hvalue : n.value = (10 ^ 309 : ℕ) := by
      simp only [n, Numeral.value, Numeral.fractionValue, Numeral.exponentValue, Exponent.value,
        Digits.value, Sign.negative, signed, hone, hexponent]
      norm_num
    have hlarge : 2 ^ 1024 ≤ 10 ^ 309 := by decide +kernel
    have hlarge' : (2 : ℚ) ^ 1024 ≤ (10 ^ 309 : ℕ) := by exact_mod_cast hlarge
    refine ((hmeaning _).2.2.1 _).mpr ⟨rfl, fun m hm => ?_⟩
    rw [Numeral.value_eq_of_text_eq (hm.trans htext.symm), hvalue, Nat.abs_cast]
    exact (sub_le_self _ (by positivity)).trans hlarge'
  · exact (hmeaning _).2.2.2 'i' (by decide +kernel) (by decide) (by decide)
  · exact (hmeaning _).2.2.2 ' ' (by decide +kernel) (by decide) (by decide)
  · have hbuilt : (Profile.currentNetwork.select ⟨"Pool-Main", by decide, by decide⟩
        ⟨[("limit", "nan"), ("height", "ltInfinity"), ("hashrate", "1e999")],
          by decide⟩).result = .ok _ := rfl
    exact ⟨_, hbuilt, rfl, hselect hbuilt⟩

end TenantSql
