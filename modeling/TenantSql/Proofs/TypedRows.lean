import Mathlib.Data.List.Forall2
import TenantSql.Proofs.Comparand
import TenantSql.Proofs.TypeAcceptance
import TenantSql.Proofs.WriteText
import TenantSql.Row
/-!
# TenantSql.Proofs.TypedRows

Rows with typed fields fit the tables that they are for.

A column whose name were not that of a field would be null in every row, so the tables have to
name their columns as the fields are named (`TransactionRow.tuple_toRow`,
`NetworkRow.tuple_toRow`). A field is never null, and it has bytes of the type that its
column is made of (`Value.Fits`). Both are facts about one row; a batch repeats them once
for each (`Profile.insertsTyped_of_tuple`).
-/

namespace TenantSql

/-! ### Values and the types of columns -/

namespace Value

variable {v : Value} {type : PgType}

/-- A value has bytes of a type. Null has none. -/
def Fits (v : Value) (type : PgType) : Prop :=
  ∃ word, v.bindChecked type = .ok (some word)

theorem ne_null_of_bind {word : List UInt8} (h : v.bind type = .ok (some word)) : v ≠ .null := by
  intro hnull
  rw [hnull] at h
  cases h

theorem Fits.ne_null (h : v.Fits type) : v ≠ .null := by
  obtain ⟨word, hword⟩ := h
  exact ne_null_of_bind (bindChecked_eq_ok_iff.mp hword).2

/-- A word that a value is bound to shows that the type is accepted. -/
theorem fits_of_bind {word : List UInt8} (h : v.bind type = .ok (some word)) : v.Fits type :=
  ⟨word, bindChecked_eq_ok_iff.mpr ⟨accepts_of_bind (ne_null_of_bind h) h, h⟩⟩

theorem fits_int8 (i : Int64) : (int i).Fits (.builtin .int8) :=
  fits_of_bind (bind_int_int8 i)

theorem fits_float8 (x : Binary64) : (float x).Fits (.builtin .float8) := by
  have hbind : bind (.float x) (.builtin .float8) = .ok (some x.bytes) := rfl
  exact fits_of_bind hbind

theorem fits_text (h : type.takesText = true) (s : String) : (text s).Fits type :=
  fits_of_bind (bind_text_eq_ok_iff.mpr ⟨h, rfl⟩)

theorem null_not_mem_of_fits {vs : List Value} {types : List PgType}
    (h : List.Forall₂ Fits vs types) : null ∉ vs := by
  induction h with
  | nil => simp
  | cons hv _ ih =>
    rw [List.mem_cons]
    intro hnull
    rcases hnull with hhead | hrest
    · exact hv.ne_null hhead.symm
    · exact ih hrest

/-- Lists that all fit the same types fit them one after the other. -/
theorem fits_flatten {lists : List (List Value)} {types : List PgType}
    (h : ∀ vs ∈ lists, List.Forall₂ Fits vs types) :
    List.Forall₂ Fits lists.flatten (lists.map fun _ => types).flatten := by
  induction lists with
  | nil => exact .nil
  | cons first rest ih =>
    obtain ⟨hfirst, hrest⟩ := List.forall_mem_cons.mp h
    rw [List.map_cons, List.flatten_cons, List.flatten_cons]
    exact List.rel_append hfirst (ih hrest)

end Value

/-! ### The fields of rows -/

namespace TransactionRow

/-- The fields as values, in the order of their names. -/
def fields (r : TransactionRow) : List Value :=
  [.int r.timestamp, .text r.round, .text r.kind]

/-- The types of the columns that hold the fields, with some type for texts. -/
def columnTypes (text : PgType) : List PgType :=
  [.builtin .int8, text, text]

/-- The table takes the fields from the columns where they are put. -/
theorem tuple_toRow (r : TransactionRow) : Profile.currentTransactions.tuple r.toRow = r.fields := by
  simp [Profile.tuple, Profile.currentTransactions, toRow, fields]

theorem fits_fields {text : PgType} (h : text.takesText = true) (r : TransactionRow) :
    List.Forall₂ Value.Fits r.fields (columnTypes text) :=
  .cons (Value.fits_int8 r.timestamp) <| .cons (Value.fits_text h r.round) <|
    .cons (Value.fits_text h r.kind) .nil

end TransactionRow

namespace NetworkRow

/-- The fields as values, in the order of their names. -/
def fields (r : NetworkRow) : List Value :=
  [.int r.timestamp, .float r.difficulty, .float r.hashrate, .int r.height, .text r.kind]

/-- The types of the columns that hold the fields, with some type for texts. -/
def columnTypes (text : PgType) : List PgType :=
  [.builtin .int8, .builtin .float8, .builtin .float8, .builtin .int8, text]

/-- The table takes the fields from the columns where they are put. -/
theorem tuple_toRow (r : NetworkRow) : Profile.currentNetwork.tuple r.toRow = r.fields := by
  simp [Profile.tuple, Profile.currentNetwork, toRow, fields]

theorem fits_fields {text : PgType} (h : text.takesText = true) (r : NetworkRow) :
    List.Forall₂ Value.Fits r.fields (columnTypes text) :=
  .cons (Value.fits_int8 r.timestamp) <| .cons (Value.fits_float8 r.difficulty) <|
    .cons (Value.fits_float8 r.hashrate) <| .cons (Value.fits_int8 r.height) <|
      .cons (Value.fits_text h r.kind) .nil

end NetworkRow

/-! ### Batches -/

/-- A batch is inserted with exactly these fields for values, row after row. None of them is null,
and each has bytes of the type of its column; the types repeat for each row. -/
def Profile.InsertsTyped (p : Profile) (schema : Schema) (rows : List Row)
    (fields : List (List Value)) (types : List PgType) : Prop :=
  ∃ st, (p.insert schema rows).result = .ok st ∧ st.params = fields.flatten ∧
    .null ∉ st.params ∧ List.Forall₂ Value.Fits st.params (fields.map fun _ => types).flatten

/-- A batch is inserted with its fields if each row gives its own. -/
theorem Profile.insertsTyped_of_tuple {α : Type} {p : Profile} (schema : Schema) {toRow : α → Row}
    {fields : α → List Value} {types : List PgType} (htuple : ∀ r, p.tuple (toRow r) = fields r)
    (hfits : ∀ r, List.Forall₂ Value.Fits (fields r) types) {rows : List α} (hrows : rows ≠ []) :
    p.InsertsTyped schema (rows.map toRow) (rows.map fields) types := by
  have hparams : (p.insertStatement schema (rows.map toRow)).params = (rows.map fields).flatten := by
    simp [Profile.params_insertStatement, Function.comp_def, htuple]
  have hbatch : List.Forall₂ Value.Fits (rows.map fields).flatten
      ((rows.map fields).map fun _ => types).flatten := by
    refine Value.fits_flatten ?_
    intro vs hvs
    obtain ⟨r, -, rfl⟩ := List.mem_map.mp hvs
    exact hfits r
  refine ⟨_, Profile.result_insert_eq_ok_iff.mpr ⟨by simpa using hrows, rfl⟩, hparams, ?_, ?_⟩
  · rw [hparams]
    exact Value.null_not_mem_of_fits hbatch
  · rw [hparams]
    exact hbatch

/-- **Typed rows fit their tables.** The columns of both tables are named as the fields are, in
their order. Whatever the fields hold, rows are inserted with all of them for values, and each has
bytes of the type of its column: `int8` for integers, `float8` for doubles, and any type that takes
text for texts. -/
theorem insert_typed_rows (schema : Schema) {text : PgType} (htext : text.takesText = true) :
    (Profile.currentTransactions.parameters = TransactionRow.fieldNames ∧
      ∀ rows : List TransactionRow, rows ≠ [] →
        Profile.currentTransactions.InsertsTyped schema (rows.map TransactionRow.toRow)
          (rows.map TransactionRow.fields) (TransactionRow.columnTypes text)) ∧
    (Profile.currentNetwork.parameters = NetworkRow.fieldNames ∧
      ∀ rows : List NetworkRow, rows ≠ [] →
        Profile.currentNetwork.InsertsTyped schema (rows.map NetworkRow.toRow)
          (rows.map NetworkRow.fields) (NetworkRow.columnTypes text)) := by
  refine ⟨⟨rfl, fun rows hrows => ?_⟩, ⟨rfl, fun rows hrows => ?_⟩⟩
  · exact Profile.insertsTyped_of_tuple schema TransactionRow.tuple_toRow
      (TransactionRow.fits_fields htext) hrows
  · exact Profile.insertsTyped_of_tuple schema NetworkRow.tuple_toRow
      (NetworkRow.fits_fields htext) hrows

/-- Two transactions, one of them with empty texts, and a state with doubles that are no numbers. -/
theorem insert_typed_rows_varchar :
    let schema : Schema := ⟨"Pool-Main", by decide, by decide⟩
    let text : PgType := .builtin .varchar
    let transactions : List TransactionRow := [⟨1700000000000, "r'1", "primary"⟩, ⟨-1, "", ""⟩]
    let state : NetworkRow := ⟨0, .nan false, .infinity true, 812345, "é"⟩
    text.takesText = true ∧
    (∃ st, (Profile.currentTransactions.insert schema
        (transactions.map TransactionRow.toRow)).result = .ok st ∧
      st.params = [.int 1700000000000, .text "r'1", .text "primary", .int (-1), .text "",
        .text ""] ∧
      List.Forall₂ Value.Fits st.params [.builtin .int8, text, text, .builtin .int8, text, text]) ∧
    ∃ st, (Profile.currentNetwork.insert schema [state.toRow]).result = .ok st ∧
      st.params = [.int 0, .float (.nan false), .float (.infinity true), .int 812345, .text "é"] ∧
      .null ∉ st.params := by
  intro schema text transactions state
  have htext : text.takesText = true := by decide
  obtain ⟨⟨-, htransactions⟩, -, hnetwork⟩ := insert_typed_rows schema htext
  obtain ⟨st, hst, hparams, -, hfits⟩ := htransactions transactions (List.cons_ne_nil _ _)
  obtain ⟨st', hst', hparams', hnull, -⟩ := hnetwork [state] (List.cons_ne_nil _ _)
  exact ⟨htext, ⟨st, hst, hparams, hfits⟩, st', hst', hparams', hnull⟩

end TenantSql
