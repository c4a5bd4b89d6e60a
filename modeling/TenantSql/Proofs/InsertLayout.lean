import Mathlib.Data.List.Forall2
import TenantSql.Proofs.WriteText
/-!
# TenantSql.Proofs.InsertLayout

Where the names, the placeholders and the values of an insertion stand.

The text of an insertion hangs on its table and on how many rows there are
(`Profile.insertion`): one list of names, one tuple of placeholders for each row,
numbered through from the first to the last, and one rule for conflicts. The values
stand in the same order, row after row and column after column
(`Profile.getElem?_params_insertStatement`). Of a row nothing but the values of declared
columns gets into the statement, so rows that agree on these give the same one.
-/

namespace TenantSql

/-! ### Lists with separators -/

/-- Items with separators between, the first one after `lead`; without items there is nothing. -/
def separated (lead sep : String) (items : List String) : String :=
  if items.isEmpty then "" else lead ++ sep.intercalate items

theorem separated_cons (lead sep item : String) (items : List String) :
    separated lead sep (item :: items) = lead ++ item ++ separated sep sep items := by
  cases items with
  | nil => simp [separated]
  | cons next rest => simp [separated, String.intercalate_cons_cons, String.append_assoc]

/-- With nothing in front this is the library's way to join. -/
theorem separated_empty (sep : String) (items : List String) :
    separated "" sep items = sep.intercalate items := by
  cases items <;> simp [separated]

/-! ### The text of an insertion -/

/-- A placeholder without a cast, on a line of its own. -/
def placeholderLine (k : Nat) : String := Layout.nested ++ "$" ++ natText k

/-- A tuple of `width` placeholders from `k` on. -/
def placeholderTuple (width k : Nat) : String :=
  "(" ++ ",".intercalate ((List.range width).map fun i => placeholderLine (k + i)) ++ ")"

namespace Profile

/-- What stands in front of the name at position `i` of the column list. -/
def columnLead (p : Profile) (i : Nat) : String :=
  if i = 0 then "" else if i ∈ p.breaks then "," ++ Layout.nested else ", "

/-- The names of the columns, in the order of declaration. -/
def columnList (p : Profile) : String :=
  String.join (p.columns.mapIdx fun i c => p.columnLead i ++ c.name.text)

end Profile

/-- An assignment of what was to be inserted, on a line of its own. -/
def assignmentLine (c : Ident) : String := Layout.nested ++ c.text ++ " = EXCLUDED." ++ c.text

/-- What is done with a row that is there already. -/
def OnConflict.clause : OnConflict → String
  | doNothing returning => "DO NOTHING RETURNING " ++ returning.text
  | doUpdate columns => "DO UPDATE SET" ++ ",".intercalate (columns.map assignmentLine)

/-- The text of an insertion of a number of rows. -/
def Profile.insertion (p : Profile) (schema : Schema) (rows : Nat) : String :=
  let width := p.columns.length
  Layout.line ++ "INSERT INTO " ++ schema.sql ++ "." ++ p.table.text ++
    " (" ++ Layout.nested ++ p.columnList ++ ")" ++
    Layout.line ++ "VALUES " ++
    ", ".intercalate ((List.range rows).map fun r => placeholderTuple width (r * width + 1)) ++
    Layout.line ++ "ON CONFLICT ON CONSTRAINT " ++ p.uniqueConstraint.text ++
    Layout.line ++ p.onConflict.clause ++ ";"

theorem columnNamesText_eq (p : Profile) (i : Nat) (columns : List Column) :
    columnNamesText p.breaks i columns =
      String.join (columns.mapIdx fun j c => p.columnLead (i + j) ++ c.name.text) := by
  induction columns generalizing i with
  | nil => simp [columnNamesText]
  | cons c rest ih =>
    rw [columnNamesText, ih, List.mapIdx_cons, String.join_cons]
    simp only [Profile.columnLead, Nat.add_zero, Nat.add_right_comm i, Nat.add_assoc]

theorem placeholder_bound (k : Nat) (v : Value) :
    Bound.placeholder k v.bound = "$" ++ natText k :=
  String.append_empty

theorem valuesText_placeholder (lead : String) (k : Nat) (vs : List Value) :
    valuesText Bound.placeholder lead k vs =
      separated lead "," ((List.range vs.length).map fun i => placeholderLine (k + i)) := by
  induction vs generalizing lead k with
  | nil => rfl
  | cons v rest ih =>
    rw [valuesText, ih, placeholder_bound, List.length_cons, List.range_succ_eq_map, List.map_cons,
      separated_cons, List.map_map]
    simp only [placeholderLine, Function.comp_def, Nat.add_zero, String.append_assoc,
      Nat.add_right_comm k, Nat.add_assoc, Nat.succ_eq_add_one]

/-- Tuples of one width, the first of which begins with the number `k`. -/
theorem tuplesText_placeholder (lead : String) (k : Nat) {width : Nat} {tuples : List (List Value)}
    (hwidth : ∀ vs ∈ tuples, vs.length = width) :
    tuplesText Bound.placeholder lead k tuples = separated lead ", "
      ((List.range tuples.length).map fun r => placeholderTuple width (r * width + k)) := by
  induction tuples generalizing lead k with
  | nil => rfl
  | cons vs rest ih =>
    obtain ⟨hvs, hrest⟩ := List.forall_mem_cons.mp hwidth
    have hnext : ∀ r, r * width + (k + width) = (r + 1) * width + k := fun r => by
      rw [Nat.succ_mul]
      omega
    rw [tuplesText, valuesText_placeholder, separated_empty, hvs, ih _ _ hrest, List.length_cons,
      List.range_succ_eq_map, List.map_cons, separated_cons, List.map_map]
    simp only [placeholderTuple, Function.comp_def, hnext, Nat.succ_eq_add_one, Nat.zero_mul,
      Nat.zero_add, String.append_assoc]

theorem assignmentsText_eq (lead : String) (columns : List Ident) :
    assignmentsText lead columns = separated lead "," (columns.map assignmentLine) := by
  induction columns generalizing lead with
  | nil => rfl
  | cons c rest ih =>
    rw [assignmentsText, ih, List.map_cons, separated_cons]
    simp only [assignmentLine, String.append_assoc]

theorem OnConflict.text_eq_clause (rule : OnConflict) : rule.text = rule.clause := by
  unfold text clause
  cases rule with
  | doNothing returning => simp only
  | doUpdate columns => simp only [assignmentsText_eq, separated_empty]

namespace Profile

theorem length_tuple (p : Profile) (row : Row) : (p.tuple row).length = p.columns.length := by
  simp [tuple]

theorem sql_insertStatement (p : Profile) (schema : Schema) (rows : List Row) :
    (p.insertStatement schema rows).sql = p.insertion schema rows.length := by
  have hwidth : ∀ vs ∈ rows.map p.tuple, vs.length = p.columns.length := by
    simp [length_tuple]
  rw [Statement.sql, rendered_insertStatement, tuplesText_placeholder "" 1 hwidth, separated_empty,
    List.length_map]
  unfold insertHead insertTail insertion
  simp only [columnNamesText_eq, columnList, Nat.zero_add, OnConflict.text_eq_clause,
    String.append_assoc]

/-! ### The values of an insertion -/

/-- An entry of a list of lists of one length stands in their concatenation, one list after the
other. -/
theorem getElem?_flatten_of_length {α : Type} {width : Nat} {lists : List (List α)}
    (hwidth : ∀ l ∈ lists, l.length = width) (r : Nat) {i : Nat} (hi : i < width) :
    lists.flatten[r * width + i]? = lists[r]?.bind (·[i]?) := by
  induction lists generalizing r with
  | nil => simp
  | cons l rest ih =>
    obtain ⟨hl, hrest⟩ := List.forall_mem_cons.mp hwidth
    rw [List.flatten_cons]
    cases r with
    | zero =>
      rw [List.getElem?_append_left (by omega)]
      simp
    | succ r =>
      have hbehind : (r + 1) * width + i = l.length + (r * width + i) := by
        rw [hl, Nat.succ_mul]
        omega
      rw [hbehind, List.getElem?_append_right (Nat.le_add_right _ _), Nat.add_sub_cancel_left,
        ih hrest, List.getElem?_cons_succ]

/-- The value for column `i` of row `r` is bound as number `r * width + i`, counted from zero. -/
theorem getElem?_params_insertStatement (p : Profile) (schema : Schema) {rows : List Row}
    {r i : Nat} {row : Row} {c : Column} (hrow : rows[r]? = some row)
    (hcolumn : p.columns[i]? = some c) :
    (p.insertStatement schema rows).params[r * p.columns.length + i]? =
      some ((row.get? c.name.text).getD .null) := by
  have hwidth : ∀ vs ∈ rows.map p.tuple, vs.length = p.columns.length := by
    simp [length_tuple]
  have hi : i < p.columns.length := (List.getElem?_eq_some_iff.mp hcolumn).1
  rw [params_insertStatement, getElem?_flatten_of_length hwidth r hi]
  simp [hrow, hcolumn, tuple]

theorem paramCount_insertStatement (p : Profile) (schema : Schema) (rows : List Row) :
    (p.insertStatement schema rows).paramCount = rows.length * p.columns.length := by
  rw [← Statement.length_params, params_insertStatement, List.length_flatten, List.map_map]
  simp [Function.comp_def, length_tuple]

/-! ### Rows that agree -/

/-- Two rows have the same values in the declared columns; a column that a row lacks is null. -/
def Agree (p : Profile) (row row' : Row) : Prop :=
  ∀ c ∈ p.columns, (row.get? c.name.text).getD .null = (row'.get? c.name.text).getD .null

theorem agree_iff_tuple_eq {p : Profile} {row row' : Row} :
    p.Agree row row' ↔ p.tuple row = p.tuple row' :=
  List.map_inj_left.symm

theorem map_tuple_eq_of_agree {p : Profile} {rows rows' : List Row}
    (h : List.Forall₂ p.Agree rows rows') : rows.map p.tuple = rows'.map p.tuple := by
  induction h with
  | nil => rfl
  | cons hrow _ ih =>
    rw [List.map_cons, List.map_cons, agree_iff_tuple_eq.mp hrow, ih]

theorem insertStatement_eq_of_agree {p : Profile} (schema : Schema) {rows rows' : List Row}
    (h : List.Forall₂ p.Agree rows rows') :
    p.insertStatement schema rows = p.insertStatement schema rows' := by
  unfold insertStatement
  rw [map_tuple_eq_of_agree h]

end Profile

/-- A value equals itself unless it is no number. -/
theorem Value.beq_self {v : Value} (h : ∀ x, v = .float x → x.isNaN = false) :
    (v == v) = true := by
  cases v with
  | null => rfl
  | int n => exact beq_self_eq_true n
  | float x =>
    have hnan := h x rfl
    change x.numericEq x = true
    simp [BinaryFloat.numericEq, hnan]
  | text s => exact beq_self_eq_true s

theorem Bound.beq_self {b : Bound} (h : (b.value == b.value) = true) : (b == b) = true := by
  obtain ⟨value, literal, cast⟩ := b
  change instBEqBound.beq _ _ = true
  simp only [instBEqBound.beq, beq_self_eq_true, Bool.and_true]
  exact h

theorem beq_self_of_forall {b : List Bound} (h : ∀ x ∈ b, (x == x) = true) : (b == b) = true := by
  induction b with
  | nil => rfl
  | cons x rest ih => simp_all

/-- A statement equals itself unless a value of it is no number. -/
theorem Statement.beq_self {st : Statement} (h : ∀ x, .float x ∈ st.params → x.isNaN = false) :
    (st == st) = true := by
  have hbounds : (st.bounds == st.bounds) = true := by
    refine beq_self_of_forall fun b hb => Bound.beq_self (Value.beq_self fun x hx => h x ?_)
    simp only [params, List.mem_reverse, List.mem_map]
    exact ⟨b, hb, hx⟩
  change (st.parts == st.parts && st.bounds == st.bounds) = true
  rw [hbounds, beq_self_eq_true, Bool.and_true]

/-- **An insertion is row-major and complete.** Rows are inserted as soon as there is one. There is
a value for each column of each row: for column `i` of row `r` the row's own, or null, and it is
number `r * n + i` of the values. The text names the columns in the order of declaration, on a new
line where there is a break, then has a tuple of placeholders for each row, numbered through in the
order of the values, and then the table's rule for conflicts once. Rows that agree on the declared
columns give the same statement, whatever else they carry; it also compares as equal, unless a value
is no number. -/
theorem insert_row_major (p : Profile) (schema : Schema) {rows : List Row} (hrows : rows ≠ []) :
    ∃ st, (p.insert schema rows).result = .ok st ∧
      st.paramCount = rows.length * p.columns.length ∧
      (∀ (r i : Nat) (row : Row) (c : Column), rows[r]? = some row → p.columns[i]? = some c →
        st.params[r * p.columns.length + i]? = some ((row.get? c.name.text).getD .null)) ∧
      st.sql = p.insertion schema rows.length ∧
      ∀ rows', List.Forall₂ p.Agree rows rows' →
        ∃ st', (p.insert schema rows').result = .ok st' ∧ st = st' ∧
          ((∀ x, .float x ∈ st.params → x.isNaN = false) → (st == st') = true) := by
  refine ⟨_, Profile.result_insert_eq_ok_iff.mpr ⟨hrows, rfl⟩,
    p.paramCount_insertStatement schema rows, fun r i row c hrow hc => ?_,
    p.sql_insertStatement schema rows, fun rows' hagree => ?_⟩
  · exact p.getElem?_params_insertStatement schema hrow hc
  · have hrows' : rows' ≠ [] := by
      intro hnil
      rw [hnil, List.forall₂_nil_right_iff] at hagree
      exact hrows hagree
    have heq := Profile.insertStatement_eq_of_agree schema hagree
    refine ⟨_, Profile.result_insert_eq_ok_iff.mpr ⟨hrows', rfl⟩, heq, fun hnan => ?_⟩
    rw [← heq]
    exact Statement.beq_self hnan

/-- Two rows for a table with a break, one of them without a column and with a key that no column
has. -/
theorem insert_row_major_network :
    let p := Profile.currentNetwork
    let schema : Schema := ⟨"Pool-Main", by decide, by decide⟩
    let first := Row.ofList [("type", .text "x"), ("height", .int 7), ("extra", .int 9),
      ("timestamp", .int 1), ("hashrate", .int 3)]
    let other := Row.ofList [("hashrate", .int 3), ("timestamp", .int 1), ("height", .int 7),
      ("type", .text "x")]
    let second := Row.ofList [("difficulty", .int 5)]
    ∃ st, (p.insert schema [first, second]).result = .ok st ∧
      st.params[2]? = some (.int 3) ∧ st.params[1 * 5 + 1]? = some (.int 5) ∧
      st.params[1 * 5 + 4]? = some .null ∧
      st.sql = "\n      INSERT INTO \"Pool-Main\".current_network (" ++
        "\n        timestamp, difficulty,\n        hashrate, height, type)\n      VALUES (" ++
        "\n        $1,\n        $2,\n        $3,\n        $4,\n        $5), (" ++
        "\n        $6,\n        $7,\n        $8,\n        $9,\n        $10)" ++
        "\n      ON CONFLICT ON CONSTRAINT current_network_unique\n      DO UPDATE SET" ++
        "\n        timestamp = EXCLUDED.timestamp,\n        difficulty = EXCLUDED.difficulty," ++
        "\n        hashrate = EXCLUDED.hashrate,\n        height = EXCLUDED.height;" ∧
      ∃ st', (p.insert schema [other, second]).result = .ok st' ∧ st = st' := by
  intro p schema first other second
  have hrows : [first, second] ≠ [] := List.cons_ne_nil _ _
  obtain ⟨st, hst, -, hparams, hsql, hagree⟩ := insert_row_major p schema hrows
  have hfirst : p.Agree first other := by
    intro c hc
    simp only [p, Profile.currentNetwork, List.mem_cons, List.not_mem_nil, or_false] at hc
    obtain rfl | rfl | rfl | rfl | rfl := hc <;> rfl
  have hsame : List.Forall₂ p.Agree [first, second] [other, second] :=
    .cons hfirst (.cons (fun _ _ => rfl) .nil)
  obtain ⟨st', hst', heq, -⟩ := hagree _ hsame
  refine ⟨st, hst, hparams 0 2 first _ rfl rfl, hparams 1 1 second _ rfl rfl,
    hparams 1 4 second _ rfl rfl, hsql.trans ?_, st', hst', heq⟩
  decide +kernel

end TenantSql
