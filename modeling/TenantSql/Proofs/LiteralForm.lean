import TenantSql.Proofs.IntegerBytes
import TenantSql.Proofs.Numeral
import TenantSql.Proofs.WriteText
/-!
# TenantSql.Proofs.LiteralForm

The literal form of an insertion and of a deletion by keys says everything about the
values. Literals of nulls, integers and texts are self-delimiting: each is read
back at the front of a text (`Value.readLiteral?_append`), as long as what follows
goes on with no digit and no quote. Tuples and lists of keys are both lists of
literals in which a comma follows, or the bracket at the end, so that values are
peeled off one after the other, whatever a text among them holds
(`literals_append_inj`).

Floats are left out: a whole one has the literal of an integer.
-/

namespace TenantSql

/-! ### Literals -/

namespace Value

/-- Nulls, integers and texts. -/
def isPlain : Value → Bool
  | float _ => false
  | null | int _ | text _ => true

/-- Integers and texts. -/
def isKey : Value → Bool
  | null | float _ => false
  | int _ | text _ => true

theorem isPlain_of_isKey {v : Value} (h : v.isKey = true) : v.isPlain = true := by
  cases v with
  | null => rfl
  | int _ => rfl
  | float _ => exact h
  | text _ => rfl

theorem ne_null_of_isKey {v : Value} (h : v.isKey = true) : v ≠ null := by
  rintro rfl
  cases h

/-- The characters that integers are written with. -/
def isIntChar (c : Char) : Bool :=
  c == '-' || c.isDigit

/-- Reads a literal at the front of a text: the keyword `NULL`, a text in quotes, or an integer
in range. -/
def readLiteral? : List Char → Option (Value × List Char)
  | 'N' :: 'U' :: 'L' :: 'L' :: rest => some (null, rest)
  | '\'' :: rest =>
    (Quoted.readInside? '\'' rest).map fun p => (text (String.ofList p.1), p.2)
  | cs =>
    ((readInt? (cs.takeWhile isIntChar)).bind int64?).map fun n => (int n, cs.dropWhile isIntChar)

/-- What can go on with a literal of any kind: a character of integers, or a quote. -/
def extendsLiteral (c : Char) : Bool :=
  c == '\'' || isIntChar c

end Value

/-! ### Integers are read back -/

/-- The sign of an integer as it is written. -/
def Sign.ofInt (n : Int) : Sign := if n < 0 then .minus else .none

theorem toList_intText (n : Int) :
    (intText n).toList = (Sign.ofInt n).chars ++ natDigits n.natAbs := by
  unfold intText Sign.ofInt
  split <;> simp [natText, Sign.chars]

theorem readInt?_intText (n : Int) : readInt? (intText n).toList = some n := by
  let ds : Digits := ⟨natDigits n.natAbs, List.all_eq_true.mpr fun _ => isDigit_of_mem_natDigits⟩
  have hne : ds.chars ≠ [] := Nat.toDigits_ne_nil
  have hvalue : ds.value = n.natAbs := Nat.ofDigitChars_ten_toDigits
  rw [toList_intText, Numeral.readInt?_append (Sign.ofInt n) hne, hvalue, Sign.ofInt]
  split
  · have hn : -(n.natAbs : Int) = n := by omega
    exact congrArg some hn
  · have hn : (n.natAbs : Int) = n := by omega
    exact congrArg some hn

/-! ### Every plain literal is read back -/

namespace Value

theorem isIntChar_of_mem_intText {n : Int} {c : Char} (h : c ∈ (intText n).toList) :
    isIntChar c = true := by
  rw [toList_intText, List.mem_append] at h
  unfold isIntChar
  rcases h with h | h
  · unfold Sign.ofInt at h
    split at h
    · rw [List.mem_singleton.mp h]
      rfl
    · cases h
  · rw [isDigit_of_mem_natDigits h, Bool.or_true]

/-- No integer begins like the keyword or like a text, so that it is read as an integer. -/
theorem readLiteral?_of_isIntChar {c : Char} {cs : List Char} (h : isIntChar c = true) :
    readLiteral? (c :: cs) =
      ((readInt? ((c :: cs).takeWhile isIntChar)).bind int64?).map fun n =>
        (int n, (c :: cs).dropWhile isIntChar) := by
  unfold readLiteral?
  split
  · rename_i heq
    cases heq
    cases h
  · rename_i heq
    cases heq
    cases h
  · rfl

/-- A literal is read back whatever follows it, unless this goes on with it. -/
theorem readLiteral?_append {v : Value} (h : v.isPlain = true) {rest : List Char}
    (stop : StopsAt extendsLiteral rest) :
    readLiteral? (v.literal.toList ++ rest) = some (v, rest) := by
  cases v with
  | null => rfl
  | float x => cases h
  | text s =>
    have hquote : rest.head? ≠ some '\'' := fun hc => absurd (stop _ hc) (by decide)
    have hread := Quoted.readInside?_escape_append '\'' s.toList rest hquote
    have hliteral : (text s).literal.toList ++ rest =
        '\'' :: (Quoted.escape '\'' s.toList ++ '\'' :: rest) := by
      rw [literal, Quoted.literal, String.toList_ofList, Quoted.encode, List.cons_append,
        List.append_assoc, List.singleton_append]
    rw [hliteral, readLiteral?, hread]
    exact congrArg (fun s => some (text s, rest)) String.ofList_toList
  | int n =>
    have hint : StopsAt isIntChar rest := fun c hc => (Bool.or_eq_false_iff.mp (stop c hc)).2
    have hall : ∀ c ∈ (intText n.toInt).toList, isIntChar c = true :=
      fun _ => isIntChar_of_mem_intText
    have hread := readInt?_intText n.toInt
    rw [literal]
    cases hcs : (intText n.toInt).toList with
    | nil => rw [hcs] at hread; cases hread
    | cons c cs =>
      rw [hcs] at hall hread
      rw [List.cons_append, readLiteral?_of_isIntChar (hall c List.mem_cons_self),
        ← List.cons_append, takeWhile_append hall hint, dropWhile_append hall hint, hread,
        Option.bind_some, int64?_eq_some_iff.mpr rfl, Option.map_some]

/-- Literals are self-delimiting. -/
theorem literal_append_inj {v w : Value} (hv : v.isPlain = true) (hw : w.isPlain = true)
    {rest rest' : List Char} (stop : StopsAt extendsLiteral rest)
    (stop' : StopsAt extendsLiteral rest')
    (h : v.literal.toList ++ rest = w.literal.toList ++ rest') : v = w ∧ rest = rest' := by
  have hread := readLiteral?_append hv stop
  rw [h, readLiteral?_append hw stop'] at hread
  obtain ⟨rfl, rfl⟩ := Prod.ext_iff.mp (Option.some.inj hread)
  exact ⟨rfl, rfl⟩

end Value

/-! ### Lists of values -/

/-- Literals of values, each after a separator. -/
def trailing (separator : String) : List Value → String
  | [] => ""
  | v :: rest => separator ++ v.literal ++ trailing separator rest

section

variable {separator : String} (hcomma : separator.toList.head? = some ',')

include hcomma

/-- What follows a literal in a list begins with a comma or a bracket, and neither goes on with
it. -/
theorem stopsAt_trailing (vs : List Value) (rest : List Char) :
    StopsAt Value.extendsLiteral ((trailing separator vs).toList ++ ')' :: rest) := by
  cases vs with
  | nil => exact stopsAt_cons (by decide) rest
  | cons v vs =>
    obtain ⟨tail, htail⟩ := List.head?_eq_some_iff.mp hcomma
    simp only [trailing, String.toList_append, htail, List.append_assoc, List.cons_append]
    exact stopsAt_cons (by decide) _

/-- Where a list is closed there is no further value. -/
theorem trailing_cons_append_ne (v : Value) (vs : List Value) (rest rest' : List Char) :
    (trailing separator (v :: vs)).toList ++ rest ≠ ')' :: rest' := by
  obtain ⟨tail, htail⟩ := List.head?_eq_some_iff.mp hcomma
  simp only [trailing, String.toList_append, htail, List.append_assoc, List.cons_append]
  exact fun h => absurd (List.cons.inj h).1 (by decide)

theorem trailing_append_inj {vs ws : List Value} (hvs : ∀ v ∈ vs, v.isPlain = true)
    (hws : ∀ w ∈ ws, w.isPlain = true) {rest rest' : List Char}
    (h : (trailing separator vs).toList ++ ')' :: rest =
      (trailing separator ws).toList ++ ')' :: rest') : vs = ws ∧ rest = rest' := by
  induction vs generalizing ws with
  | nil =>
    cases ws with
    | nil => exact ⟨rfl, (List.cons.inj h).2⟩
    | cons w ws => exact absurd h.symm (trailing_cons_append_ne hcomma w ws _ _)
  | cons v vs ih =>
    cases ws with
    | nil => exact absurd h (trailing_cons_append_ne hcomma v vs _ _)
    | cons w ws =>
      obtain ⟨hv, hvs⟩ := List.forall_mem_cons.mp hvs
      obtain ⟨hw, hws⟩ := List.forall_mem_cons.mp hws
      simp only [trailing, String.toList_append, List.append_assoc,
        List.append_cancel_left_eq] at h
      obtain ⟨hfirst, hbehind⟩ := Value.literal_append_inj hv hw (stopsAt_trailing hcomma vs rest)
        (stopsAt_trailing hcomma ws rest') h
      obtain ⟨hmore, hrest⟩ := ih hvs hws hbehind
      exact ⟨congrArg₂ List.cons hfirst hmore, hrest⟩

/-- A list of literals that a bracket closes is read off value by value. -/
theorem literals_append_inj {v w : Value} {vs ws : List Value}
    (hvs : ∀ x ∈ v :: vs, x.isPlain = true) (hws : ∀ x ∈ w :: ws, x.isPlain = true)
    {rest rest' : List Char}
    (h : v.literal.toList ++ ((trailing separator vs).toList ++ ')' :: rest) =
      w.literal.toList ++ ((trailing separator ws).toList ++ ')' :: rest')) :
    v :: vs = w :: ws ∧ rest = rest' := by
  obtain ⟨hv, hvs⟩ := List.forall_mem_cons.mp hvs
  obtain ⟨hw, hws⟩ := List.forall_mem_cons.mp hws
  obtain ⟨hfirst, hbehind⟩ := Value.literal_append_inj hv hw (stopsAt_trailing hcomma vs rest)
    (stopsAt_trailing hcomma ws rest') h
  obtain ⟨hmore, hrest⟩ := trailing_append_inj hcomma hvs hws hbehind
  exact ⟨congrArg₂ List.cons hfirst hmore, hrest⟩

end

/-- The literal form of a value, whatever its number. -/
def literally (_ : Nat) (b : Bound) : String := b.literal

theorem valuesText_literally (lead : String) (k : Nat) (v : Value) (vs : List Value) :
    valuesText literally lead k (v :: vs) =
      lead ++ Layout.nested ++ v.literal ++ trailing ("," ++ Layout.nested) vs := by
  induction vs generalizing lead k v with
  | nil => rfl
  | cons w ws ih => rw [valuesText, ih, trailing]; rfl

theorem moreValuesText_literally (k : Nat) (vs : List Value) :
    moreValuesText literally k vs = trailing ", " vs := by
  induction vs generalizing k with
  | nil => rfl
  | cons v vs ih => rw [moreValuesText, ih, trailing]; rfl

/-! ### Tuples -/

/-- Where a tuple is closed there is no first value. -/
theorem valuesText_cons_append_ne (k : Nat) (v : Value) (vs : List Value) (rest rest' : List Char) :
    (valuesText literally "" k (v :: vs)).toList ++ rest ≠ ')' :: rest' := by
  have hnested : Layout.nested.toList = '\n' :: Layout.nested.toList.tail := by decide
  rw [valuesText_literally, String.empty_append, String.toList_append, String.toList_append,
    hnested, List.append_assoc, List.append_assoc, List.cons_append]
  exact fun h => absurd (List.cons.inj h).1 (by decide)

/-- Values on lines of their own are read off up to the bracket that closes their tuple. -/
theorem valuesText_append_inj (k k' : Nat) {vs ws : List Value}
    (hvs : ∀ v ∈ vs, v.isPlain = true) (hws : ∀ w ∈ ws, w.isPlain = true) {rest rest' : List Char}
    (h : (valuesText literally "" k vs).toList ++ ')' :: rest =
      (valuesText literally "" k' ws).toList ++ ')' :: rest') : vs = ws ∧ rest = rest' := by
  have hcomma : ("," ++ Layout.nested).toList.head? = some ',' := by decide
  cases vs with
  | nil =>
    cases ws with
    | nil => exact ⟨rfl, (List.cons.inj h).2⟩
    | cons w ws => exact absurd h.symm (valuesText_cons_append_ne k' w ws _ _)
  | cons v vs =>
    cases ws with
    | nil => exact absurd h (valuesText_cons_append_ne k v vs _ _)
    | cons w ws =>
      simp only [valuesText_literally, String.toList_append, List.append_assoc,
        List.append_cancel_left_eq] at h
      exact literals_append_inj hcomma hvs hws h

/-- Where a line ends there is no tuple. -/
theorem tuplesText_cons_append_ne (lead : String) (k : Nat) (vs : List Value)
    (tuples : List (List Value)) {rest rest' : List Char}
    (hlead : (lead.toList ++ ['(']).head? ≠ some '\n') (hrest : rest'.head? = some '\n') :
    (tuplesText literally lead k (vs :: tuples)).toList ++ rest ≠ rest' := by
  have hopen : "(".toList = ['('] := by decide
  intro h
  apply hlead
  rw [← hrest, ← h, tuplesText]
  simp only [String.toList_append, hopen]
  cases lead.toList <;> rfl

/-- Tuples are read off their text up to the end of the line. -/
theorem tuplesText_append_inj (lead : String) (hlead : (lead.toList ++ ['(']).head? ≠ some '\n')
    (k k' : Nat) {ts us : List (List Value)} (hts : ∀ t ∈ ts, ∀ v ∈ t, v.isPlain = true)
    (hus : ∀ u ∈ us, ∀ v ∈ u, v.isPlain = true) {rest : List Char}
    (hrest : rest.head? = some '\n')
    (h : (tuplesText literally lead k ts).toList ++ rest =
      (tuplesText literally lead k' us).toList ++ rest) : ts = us := by
  induction ts generalizing lead k k' us with
  | nil =>
    cases us with
    | nil => rfl
    | cons u us => exact absurd h.symm (tuplesText_cons_append_ne lead k' u us hlead hrest)
  | cons t ts ih =>
    cases us with
    | nil => exact absurd h (tuplesText_cons_append_ne lead k t ts hlead hrest)
    | cons u us =>
      obtain ⟨ht, hts⟩ := List.forall_mem_cons.mp hts
      obtain ⟨hu, hus⟩ := List.forall_mem_cons.mp hus
      have hclose : ")".toList = [')'] := by decide
      have hcomma : (", ".toList ++ ['(']).head? ≠ some '\n' := by decide
      simp only [tuplesText, String.toList_append, List.append_assoc, List.append_cancel_left_eq,
        hclose, List.singleton_append] at h
      obtain ⟨hfirst, hbehind⟩ := valuesText_append_inj k k' ht hu h
      exact congrArg₂ List.cons hfirst
        (ih ", " hcomma (k + t.length) (k' + u.length) hts hus hbehind)

/-! ### Lists of keys -/

/-- The keyword that stands for no keys is the literal of no key. -/
theorem valueListText_cons_append_ne (k : Nat) {v : Value} (hv : v.isKey = true) (vs : List Value)
    (rest : List Char) :
    (valueListText literally k (v :: vs)).toList ++ ')' :: rest ≠ "NULL".toList ++ ')' :: rest := by
  intro h
  have hcomma : ", ".toList.head? = some ',' := by decide
  rw [valueListText, moreValuesText_literally, String.toList_append, List.append_assoc] at h
  have hkeyword : v.literal.toList ++ _ = Value.null.literal.toList ++ _ := h
  have hnull : v = .null := (Value.literal_append_inj (Value.isPlain_of_isKey hv) rfl
    (stopsAt_trailing hcomma vs rest) (stopsAt_cons (by decide) rest) hkeyword).1
  exact Value.ne_null_of_isKey hv hnull

theorem valueListText_append_inj (k k' : Nat) {vs ws : List Value}
    (hvs : ∀ v ∈ vs, v.isKey = true) (hws : ∀ w ∈ ws, w.isKey = true) {rest : List Char}
    (h : (valueListText literally k vs).toList ++ ')' :: rest =
      (valueListText literally k' ws).toList ++ ')' :: rest) : vs = ws := by
  cases vs with
  | nil =>
    cases ws with
    | nil => rfl
    | cons w ws =>
      exact absurd h.symm (valueListText_cons_append_ne k' (hws w List.mem_cons_self) ws rest)
  | cons v vs =>
    cases ws with
    | nil => exact absurd h (valueListText_cons_append_ne k (hvs v List.mem_cons_self) vs rest)
    | cons w ws =>
      have hcomma : ", ".toList.head? = some ',' := by decide
      simp only [valueListText, moreValuesText_literally, String.toList_append,
        List.append_assoc] at h
      exact (literals_append_inj hcomma (fun x hx => Value.isPlain_of_isKey (hvs x hx))
        (fun x hx => Value.isPlain_of_isKey (hws x hx)) h).1

/-! ### Statements -/

namespace Profile

/-- The declared columns of the rows hold nulls, integers and texts, as far as they are there. -/
def HoldsPlain (p : Profile) (rows : List Row) : Prop :=
  ∀ row ∈ rows, ∀ c ∈ p.columns, ∀ v ∈ row.get? c.name.text, v.isPlain = true

instance (p : Profile) (rows : List Row) : Decidable (p.HoldsPlain rows) :=
  inferInstanceAs (Decidable
    (∀ row ∈ rows, ∀ c ∈ p.columns, ∀ v ∈ row.get? c.name.text, v.isPlain = true))

theorem HoldsPlain.isPlain {p : Profile} {rows : List Row} (h : p.HoldsPlain rows) :
    ∀ vs ∈ rows.map p.tuple, ∀ v ∈ vs, v.isPlain = true := by
  intro vs hvs v hv
  obtain ⟨row, hrow, rfl⟩ := List.mem_map.mp hvs
  obtain ⟨c, hc, rfl⟩ := List.mem_map.mp hv
  cases hget : row.get? c.name.text with
  | none => rfl
  | some w => exact h row hrow c hc w hget

/-- Behind the tuples the line ends. -/
theorem head?_insertTail (p : Profile) : p.insertTail.toList.head? = some '\n' := by
  have hline : Layout.line.toList = '\n' :: Layout.line.toList.tail := by decide
  unfold insertTail
  simp only [String.toList_append, List.append_assoc]
  rw [hline, List.cons_append, List.head?_cons]

theorem tuples_eq_of_literalSql_eq {p : Profile} {schema : Schema} {rows rows' : List Row}
    (hrows : p.HoldsPlain rows) (hrows' : p.HoldsPlain rows')
    (h : (p.insertStatement schema rows).literalSql = (p.insertStatement schema rows').literalSql) :
    rows.map p.tuple = rows'.map p.tuple := by
  have htext := (rendered_insertStatement literally p schema rows).symm.trans
    (h.trans (rendered_insertStatement literally p schema rows'))
  have hchars := congrArg String.toList htext
  simp only [String.toList_append, List.append_assoc, List.append_cancel_left_eq] at hchars
  exact tuplesText_append_inj "" (by decide) 1 1 hrows.isPlain hrows'.isPlain p.head?_insertTail
    hchars

theorem keys_eq_of_literalSql_eq {p : Profile} {schema : Schema} {key : Ident}
    {keys keys' : List Value} (hkeys : ∀ v ∈ keys, v.isKey = true)
    (hkeys' : ∀ v ∈ keys', v.isKey = true)
    (h : (p.deleteByKeysStatement schema key keys).literalSql =
      (p.deleteByKeysStatement schema key keys').literalSql) : keys = keys' := by
  have htext := (rendered_deleteByKeysStatement literally p schema key keys).symm.trans
    (h.trans (rendered_deleteByKeysStatement literally p schema key keys'))
  have hclose : ");".toList = [')', ';'] := by decide
  have hchars := congrArg String.toList htext
  simp only [String.toList_append, List.append_assoc, List.append_cancel_left_eq, hclose] at hchars
  exact valueListText_append_inj 1 1 hkeys hkeys' hchars

end Profile

/-- **The literal form loses no value and leaks none.** Two insertions of nulls, integers and texts
with one literal form bind the same values, tuple by tuple, and two deletions of integers and texts
with one literal form have the same keys. Each literal is read back as the value it is for, whatever
a text holds and whatever follows, unless this goes on with the literal. -/
theorem values_of_literalSql (p : Profile) (schema : Schema) :
    (∀ rows rows' : List Row, rows ≠ [] → rows' ≠ [] → p.HoldsPlain rows → p.HoldsPlain rows' →
      ∃ st st', (p.insert schema rows).result = .ok st ∧
        (p.insert schema rows').result = .ok st' ∧
        (st.literalSql = st'.literalSql →
          st.params = st'.params ∧ rows.map p.tuple = rows'.map p.tuple)) ∧
    (∀ key, p.keyColumn = some key → ∀ keys keys' : List Value,
      (∀ v ∈ keys, v.isKey = true) → (∀ v ∈ keys', v.isKey = true) →
      ∃ st st', (p.deleteByKeys schema keys).result = .ok st ∧
        (p.deleteByKeys schema keys').result = .ok st' ∧
        (st.literalSql = st'.literalSql → keys = keys')) ∧
    ∀ (v : Value) (rest : List Char), v.isPlain = true → StopsAt Value.extendsLiteral rest →
      Value.readLiteral? (v.literal.toList ++ rest) = some (v, rest) := by
  refine ⟨fun rows rows' hne hne' hrows hrows' => ?_, fun key hkey keys keys' hkeys hkeys' => ?_,
    fun v rest hv stop => Value.readLiteral?_append hv stop⟩
  · refine ⟨_, _, Profile.result_insert_eq_ok_iff.mpr ⟨hne, rfl⟩,
      Profile.result_insert_eq_ok_iff.mpr ⟨hne', rfl⟩, fun h => ?_⟩
    have htuples := Profile.tuples_eq_of_literalSql_eq hrows hrows' h
    rw [p.params_insertStatement, p.params_insertStatement, htuples]
    exact ⟨rfl, rfl⟩
  · exact ⟨_, _, Profile.result_deleteByKeys_eq_ok_iff.mpr ⟨key, hkey, rfl⟩,
      Profile.result_deleteByKeys_eq_ok_iff.mpr ⟨key, hkey, rfl⟩,
      Profile.keys_eq_of_literalSql_eq hkeys hkeys'⟩

/-- A text that spells out the end of its tuple and a second one, against two rows; a key that
spells out two keys, against those; and a text before a quote that is not its own. -/
theorem values_of_hostile_literalSql :
    let p := Profile.currentTransactions
    let schema : Schema := ⟨"a", by decide, by decide⟩
    let one := [Row.ofList [("timestamp", .int 1),
      ("round", .text "r','x'), (\n        1,\n        's"), ("type", .text "x")]]
    let two := [Row.ofList [("timestamp", .int 1), ("round", .text "r"), ("type", .text "x")],
      Row.ofList [("timestamp", .int 1), ("round", .text "s"), ("type", .text "x")]]
    (∃ st st', (p.insert schema one).result = .ok st ∧ (p.insert schema two).result = .ok st' ∧
      st.literalSql ≠ st'.literalSql) ∧
    (∃ st st', (p.deleteByKeys schema [.text "r', 's"]).result = .ok st ∧
      (p.deleteByKeys schema [.text "r", .text "s"]).result = .ok st' ∧
      st.literalSql ≠ st'.literalSql) ∧
    Value.readLiteral? ((Value.text "it's'").literal.toList ++ ", 'x'".toList) =
      some (.text "it's'", ", 'x'".toList) := by
  intro p schema one two
  obtain ⟨hinsert, hdelete, hread⟩ := values_of_literalSql p schema
  refine ⟨?_, ?_, hread _ _ rfl (stopsAt_cons (by decide) _)⟩
  · obtain ⟨st, st', hst, hst', heq⟩ := hinsert one two (by simp [one]) (by simp [two])
      (by decide) (by decide)
    refine ⟨st, st', hst, hst', fun h => ?_⟩
    have hlength := congrArg List.length (heq h).2
    cases hlength
  · obtain ⟨st, st', hst, hst', heq⟩ := hdelete _ rfl [.text "r', 's"] [.text "r", .text "s"]
      (by decide) (by decide)
    refine ⟨st, st', hst, hst', fun h => ?_⟩
    have hlength := congrArg List.length (heq h)
    cases hlength

end TenantSql
