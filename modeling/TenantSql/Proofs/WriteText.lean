import TenantSql.Statement.Write
/-!
# TenantSql.Proofs.WriteText

The texts of the statements that write, for any way of rendering the places of
their values: an insertion, a deletion by keys and a deletion before a point in time.

Everything but the values is raw text that the profile and the schema decide.
`Profile.rendered_insertStatement` and its two siblings put the values where they
stand in it, and the `params_` lemmas say which values they are.
-/

namespace TenantSql

variable (render : Nat → Bound → String)

/-- A value that is written as its own literal. -/
def Value.bound (v : Value) : Bound := ⟨v, v.literal, none⟩

namespace Statement

theorem rendered_bind (st : Statement) (v : Value) :
    (st.bind v).rendered render = st.rendered render ++ render (st.paramCount + 1) v.bound :=
  rendered_pushBound render st v.bound

@[simp] theorem paramCount_bind (st : Statement) (v : Value) :
    (st.bind v).paramCount = st.paramCount + 1 := rfl

@[simp] theorem params_bind (st : Statement) (v : Value) :
    (st.bind v).params = st.params ++ [v] :=
  params_pushBound st v.bound

@[simp] theorem params_pushIdent (st : Statement) (name : Ident) :
    (st.pushIdent name).params = st.params := rfl

end Statement

/-! ### Tuples of values -/

/-- Values numbered from `k`, each on a line of its own, the first one after `lead`. -/
def valuesText (lead : String) (k : Nat) : List Value → String
  | [] => ""
  | v :: rest => lead ++ Layout.nested ++ render k v.bound ++ valuesText "," (k + 1) rest

/-- Tuples of values numbered from `k`, the first one after `lead`. -/
def tuplesText (lead : String) (k : Nat) : List (List Value) → String
  | [] => ""
  | vs :: rest =>
    lead ++ "(" ++ valuesText render "" k vs ++ ")" ++ tuplesText ", " (k + vs.length) rest

namespace Statement

theorem rendered_pushValues (lead : String) (st : Statement) (vs : List Value) :
    (st.pushValues lead vs).rendered render =
      st.rendered render ++ valuesText render lead (st.paramCount + 1) vs := by
  induction vs generalizing lead st with
  | nil => exact String.append_empty.symm
  | cons v rest ih =>
    rw [pushValues, ih, rendered_bind, rendered_push, rendered_push, valuesText]
    simp only [String.append_assoc, paramCount_bind, paramCount_push]

theorem paramCount_pushValues (lead : String) (st : Statement) (vs : List Value) :
    (st.pushValues lead vs).paramCount = st.paramCount + vs.length := by
  induction vs generalizing lead st with
  | nil => rfl
  | cons v rest ih =>
    rw [pushValues, ih, paramCount_bind, paramCount_push, paramCount_push, List.length_cons]
    omega

theorem params_pushValues (lead : String) (st : Statement) (vs : List Value) :
    (st.pushValues lead vs).params = st.params ++ vs := by
  induction vs generalizing lead st with
  | nil => exact (List.append_nil _).symm
  | cons v rest ih =>
    rw [pushValues, ih, params_bind, params_push, params_push, List.append_assoc,
      List.singleton_append]

theorem rendered_pushTuples (lead : String) (st : Statement) (tuples : List (List Value)) :
    (st.pushTuples lead tuples).rendered render =
      st.rendered render ++ tuplesText render lead (st.paramCount + 1) tuples := by
  induction tuples generalizing lead st with
  | nil => exact String.append_empty.symm
  | cons vs rest ih =>
    rw [pushTuples, ih, rendered_push, rendered_pushValues, rendered_push, rendered_push,
      tuplesText]
    simp only [String.append_assoc, paramCount_push, paramCount_pushValues, Nat.add_right_comm]

theorem params_pushTuples (lead : String) (st : Statement) (tuples : List (List Value)) :
    (st.pushTuples lead tuples).params = st.params ++ tuples.flatten := by
  induction tuples generalizing lead st with
  | nil => exact (List.append_nil _).symm
  | cons vs rest ih =>
    rw [pushTuples, ih, params_push, params_pushValues, params_push, params_push,
      List.flatten_cons, List.append_assoc]

end Statement

/-! ### Insertions -/

/-- The names of columns from position `i` on, with the lines broken at the breaks. -/
def columnNamesText (breaks : List Nat) (i : Nat) : List Column → String
  | [] => ""
  | c :: rest =>
    (if i = 0 then "" else if i ∈ breaks then "," ++ Layout.nested else ", ") ++ c.name.text ++
      columnNamesText breaks (i + 1) rest

/-- Assignments of what was to be inserted, the first one after `lead`. -/
def assignmentsText (lead : String) : List Ident → String
  | [] => ""
  | c :: rest =>
    lead ++ Layout.nested ++ c.text ++ " = EXCLUDED." ++ c.text ++ assignmentsText "," rest

/-- The rule for rows that are there already. -/
def OnConflict.text (rule : OnConflict) : String :=
  match rule with
  | .doNothing returning => "DO NOTHING RETURNING " ++ returning.text
  | .doUpdate columns => "DO UPDATE SET" ++ assignmentsText "" columns

namespace Statement

theorem rendered_pushColumnNames (breaks : List Nat) (st : Statement) (i : Nat)
    (columns : List Column) :
    (st.pushColumnNames breaks i columns).rendered render =
      st.rendered render ++ columnNamesText breaks i columns := by
  induction columns generalizing st i with
  | nil => exact String.append_empty.symm
  | cons c rest ih =>
    rw [pushColumnNames, ih, rendered_pushIdent, columnNamesText]
    split
    · simp only [String.append_assoc, String.empty_append]
    · split <;> simp only [rendered_push, String.append_assoc]

theorem params_pushColumnNames (breaks : List Nat) (st : Statement) (i : Nat)
    (columns : List Column) : (st.pushColumnNames breaks i columns).params = st.params := by
  induction columns generalizing st i with
  | nil => rfl
  | cons c rest ih =>
    rw [pushColumnNames, ih, params_pushIdent]
    split
    · rfl
    · split <;> simp only [params_push]

theorem rendered_pushAssignments (lead : String) (st : Statement) (columns : List Ident) :
    (st.pushAssignments lead columns).rendered render =
      st.rendered render ++ assignmentsText lead columns := by
  induction columns generalizing lead st with
  | nil => exact String.append_empty.symm
  | cons c rest ih =>
    rw [pushAssignments, ih, assignmentsText]
    simp only [rendered_pushIdent, rendered_push, String.append_assoc]

theorem params_pushAssignments (lead : String) (st : Statement) (columns : List Ident) :
    (st.pushAssignments lead columns).params = st.params := by
  induction columns generalizing lead st with
  | nil => rfl
  | cons c rest ih => simp only [pushAssignments, ih, params_pushIdent, params_push]

theorem rendered_pushOnConflict (st : Statement) (rule : OnConflict) :
    (st.pushOnConflict rule).rendered render = st.rendered render ++ rule.text := by
  unfold pushOnConflict OnConflict.text
  cases rule with
  | doNothing returning => simp only [rendered_pushIdent, rendered_push, String.append_assoc]
  | doUpdate columns => simp only [rendered_pushAssignments, rendered_push, String.append_assoc]

theorem params_pushOnConflict (st : Statement) (rule : OnConflict) :
    (st.pushOnConflict rule).params = st.params := by
  cases rule with
  | doNothing returning => rw [pushOnConflict, params_pushIdent, params_push]
  | doUpdate columns => rw [pushOnConflict, params_pushAssignments, params_push]

end Statement

namespace Profile

/-- An insertion up to the first tuple. -/
def insertHead (p : Profile) (schema : Schema) : String :=
  Layout.line ++ "INSERT INTO " ++ (schema.sql ++ "." ++ p.table.text) ++ " (" ++ Layout.nested ++
    columnNamesText p.breaks 0 p.columns ++ ")" ++ Layout.line ++ "VALUES "

/-- An insertion after the last tuple. -/
def insertTail (p : Profile) : String :=
  Layout.line ++ "ON CONFLICT ON CONSTRAINT " ++ p.uniqueConstraint.text ++ Layout.line ++
    p.onConflict.text ++ ";"

theorem rendered_insertStatement (p : Profile) (schema : Schema) (rows : List Row) :
    (p.insertStatement schema rows).rendered render =
      p.insertHead schema ++ tuplesText render "" 1 (rows.map p.tuple) ++ p.insertTail := by
  simp only [insertStatement, Statement.rendered_push, Statement.rendered_pushOnConflict,
    Statement.rendered_pushIdent, Statement.rendered_pushTuples,
    Statement.rendered_pushColumnNames, Statement.pushTable, Statement.rendered_new, insertHead,
    insertTail, String.append_assoc]
  -- No value stands before the tuples, so that they are numbered from one.
  simp only [← Statement.length_params, Statement.params_push, Statement.params_pushColumnNames,
    Statement.params_new, List.length_nil, Nat.zero_add]

/-- Rows are inserted by that statement, unless there are none. -/
theorem result_insert_eq_ok_iff {p : Profile} {schema : Schema} {rows : List Row}
    {st : Statement} :
    (p.insert schema rows).result = .ok st ↔ rows ≠ [] ∧ st = p.insertStatement schema rows := by
  cases rows with
  | nil => exact ⟨nofun, fun h => absurd rfl h.1⟩
  | cons row rows =>
    exact ⟨fun h => ⟨nofun, (Except.ok.inj h).symm⟩, fun h => congrArg Except.ok h.2.symm⟩

theorem params_insertStatement (p : Profile) (schema : Schema) (rows : List Row) :
    (p.insertStatement schema rows).params = (rows.map p.tuple).flatten := by
  simp only [insertStatement, Statement.params_push, Statement.params_pushOnConflict,
    Statement.params_pushIdent, Statement.params_pushTuples, Statement.params_pushColumnNames,
    Statement.pushTable, Statement.params_new, List.nil_append]

end Profile

/-! ### Deletions -/

/-- Values numbered from `k`, each after a comma. -/
def moreValuesText (k : Nat) : List Value → String
  | [] => ""
  | v :: rest => ", " ++ render k v.bound ++ moreValuesText (k + 1) rest

/-- A list of values numbered from `k`. -/
def valueListText (k : Nat) : List Value → String
  | [] => "NULL"
  | v :: rest => render k v.bound ++ moreValuesText render (k + 1) rest

namespace Statement

theorem rendered_bindRest (st : Statement) (vs : List Value) :
    (st.bindRest vs).rendered render =
      st.rendered render ++ moreValuesText render (st.paramCount + 1) vs := by
  induction vs generalizing st with
  | nil => exact String.append_empty.symm
  | cons v rest ih =>
    rw [bindRest, List.foldl_cons, ← bindRest, ih, rendered_bind, rendered_push, moreValuesText]
    simp only [String.append_assoc, paramCount_bind, paramCount_push]

theorem params_bindRest (st : Statement) (vs : List Value) :
    (st.bindRest vs).params = st.params ++ vs := by
  induction vs generalizing st with
  | nil => exact (List.append_nil _).symm
  | cons v rest ih =>
    rw [bindRest, List.foldl_cons, ← bindRest, ih, params_bind, params_push, List.append_assoc,
      List.singleton_append]

theorem rendered_bindList (st : Statement) (vs : List Value) :
    (st.bindList vs).rendered render =
      st.rendered render ++ valueListText render (st.paramCount + 1) vs := by
  cases vs with
  | nil => exact rendered_push render st "NULL"
  | cons v rest =>
    rw [bindList, rendered_bindRest, rendered_bind, paramCount_bind, valueListText,
      String.append_assoc]

theorem params_bindList (st : Statement) (vs : List Value) :
    (st.bindList vs).params = st.params ++ vs := by
  cases vs with
  | nil => exact (List.append_nil _).symm
  | cons v rest =>
    rw [bindList, params_bindRest, params_bind, List.append_assoc, List.singleton_append]

end Statement

namespace Profile

/-- A deletion up to the column of its condition. -/
def deletePreamble (p : Profile) (schema : Schema) : String :=
  Layout.line ++ "DELETE FROM " ++ (schema.sql ++ "." ++ p.table.text) ++ Layout.line ++ "WHERE "

theorem rendered_deleteHead (p : Profile) (schema : Schema) :
    (p.deleteHead schema).rendered render = p.deletePreamble schema := by
  simp only [deleteHead, Statement.rendered_push, Statement.pushTable, Statement.rendered_new,
    deletePreamble]

theorem rendered_deleteByKeysStatement (p : Profile) (schema : Schema) (key : Ident)
    (keys : List Value) :
    (p.deleteByKeysStatement schema key keys).rendered render =
      p.deletePreamble schema ++ key.text ++ " IN (" ++ valueListText render 1 keys ++ ");" := by
  simp only [deleteByKeysStatement, Statement.rendered_push, Statement.rendered_bindList,
    Statement.rendered_pushIdent, rendered_deleteHead]
  rfl

/-- Rows are deleted by keys with that statement, if the table has a column of keys. -/
theorem result_deleteByKeys_eq_ok_iff {p : Profile} {schema : Schema} {keys : List Value}
    {st : Statement} :
    (p.deleteByKeys schema keys).result = .ok st ↔
      ∃ key, p.keyColumn = some key ∧ st = p.deleteByKeysStatement schema key keys := by
  unfold deleteByKeys
  cases p.keyColumn with
  | none => exact ⟨nofun, nofun⟩
  | some key =>
    constructor
    · intro h
      exact ⟨key, rfl, (Except.ok.inj h).symm⟩
    · rintro ⟨_, ⟨⟩, rfl⟩
      rfl

theorem params_deleteByKeysStatement (p : Profile) (schema : Schema) (key : Ident)
    (keys : List Value) : (p.deleteByKeysStatement schema key keys).params = keys := by
  simp only [deleteByKeysStatement, Statement.params_push, Statement.params_bindList,
    Statement.params_pushIdent, deleteHead, Statement.pushTable, Statement.params_new,
    List.nil_append]

theorem rendered_deleteBeforeStatement (p : Profile) (schema : Schema) (time : Ident)
    (threshold : Value) :
    (p.deleteBeforeStatement schema time threshold).rendered render =
      p.deletePreamble schema ++ time.text ++ " < " ++ render 1 threshold.bound ++ ";" := by
  simp only [deleteBeforeStatement, Statement.rendered_push, Statement.rendered_bind,
    Statement.rendered_pushIdent, rendered_deleteHead]
  rfl

/-- Rows are deleted before a threshold with that statement, if the table has a column of times. -/
theorem result_deleteBefore_eq_ok_iff {p : Profile} {schema : Schema} {threshold : Value}
    {st : Statement} :
    (p.deleteBefore schema threshold).result = .ok st ↔
      ∃ time, p.timeColumn = some time ∧ st = p.deleteBeforeStatement schema time threshold := by
  unfold deleteBefore
  cases p.timeColumn with
  | none => exact ⟨nofun, nofun⟩
  | some time =>
    constructor
    · intro h
      exact ⟨time, rfl, (Except.ok.inj h).symm⟩
    · rintro ⟨_, ⟨⟩, rfl⟩
      rfl

end Profile

end TenantSql
