import TenantSql.Statement.Select
/-!
# TenantSql.Proofs.SelectText

The text of a selection, for any way of rendering the places of its values: the
conditions, the order and the paging as texts of their own, and
`Profile.rendered_of_select`, which says that a selection is made of them.

The two texts of a statement differ in the rendering alone, so what is said here
holds for both.
-/

namespace TenantSql

variable (render : Nat → Bound → String)

/-! ### Conditions -/

/-- The text of a condition whose value has number `k`. -/
def Filter.text (k : Nat) (f : Filter) : String :=
  f.column ++ " " ++ f.op.sql ++ " " ++ render k f.bound

/-- The text of conditions, the first one after `lead`, with values numbered from `k`. -/
def Filter.texts (lead : String) (k : Nat) : List Filter → String
  | [] => ""
  | f :: rest => lead ++ f.text render k ++ texts " AND " (k + 1) rest

namespace Statement

theorem rendered_appendTo (st : Statement) (f : Filter) :
    (f.appendTo st).rendered render = st.rendered render ++ f.text render (st.paramCount + 1) := by
  simp [Filter.appendTo, Filter.text, String.append_assoc]

@[simp] theorem paramCount_appendTo (st : Statement) (f : Filter) :
    (f.appendTo st).paramCount = st.paramCount + 1 := rfl

theorem rendered_pushConditions (lead : String) (st : Statement) (fs : List Filter) :
    (st.pushConditions lead fs).rendered render =
      st.rendered render ++ Filter.texts render lead (st.paramCount + 1) fs := by
  induction fs generalizing lead st with
  | nil => exact String.append_empty.symm
  | cons f rest ih =>
    rw [pushConditions, ih, rendered_appendTo, rendered_push, paramCount_appendTo,
      paramCount_push, Filter.texts]
    simp only [String.append_assoc]

theorem paramCount_pushConditions (lead : String) (st : Statement) (fs : List Filter) :
    (st.pushConditions lead fs).paramCount = st.paramCount + fs.length := by
  induction fs generalizing lead st with
  | nil => rfl
  | cons f rest ih =>
    rw [pushConditions, ih, paramCount_appendTo, paramCount_push, List.length_cons]
    omega

end Statement

/-! ### Order and paging -/

namespace Reserved

/-- The text of an order. -/
def orderText (r : Reserved) : String :=
  if r.hasOrdering then
    " ORDER BY " ++ r.orderColumn ++ if r.isAscending then " ASC" else " DESC"
  else ""

/-- The text of a keyword with a number that is bound as value `k`, if there is one. -/
def numberText (keyword : String) (k : Nat) : Option String → String
  | some raw => keyword ++ render k ⟨.parseNumeric raw, raw, none⟩
  | none => ""

/-- The text of a limit and an offset, with values numbered from `k`. -/
def pagingText (k : Nat) (r : Reserved) : String :=
  numberText render " LIMIT " k r.limit ++
    numberText render " OFFSET " (k + r.limit.toList.length) r.offset

end Reserved

namespace Statement

theorem rendered_pushNumber (st : Statement) (keyword : String) (raw : Option String) :
    (st.pushNumber keyword raw).rendered render =
      st.rendered render ++ Reserved.numberText render keyword (st.paramCount + 1) raw := by
  cases raw with
  | none => exact String.append_empty.symm
  | some raw => simp [pushNumber, bindVerbatim, Reserved.numberText, String.append_assoc]

theorem paramCount_pushNumber (st : Statement) (keyword : String) (raw : Option String) :
    (st.pushNumber keyword raw).paramCount = st.paramCount + raw.toList.length := by
  cases raw <;> rfl

theorem rendered_pushPaging (st : Statement) (r : Reserved) :
    (st.pushPaging r).rendered render =
      st.rendered render ++ r.pagingText render (st.paramCount + 1) := by
  rw [pushPaging, rendered_pushNumber, rendered_pushNumber, paramCount_pushNumber,
    Reserved.pagingText, String.append_assoc, Nat.add_right_comm]

theorem rendered_pushOrder (st : Statement) (column : Ident) (ascending : Bool) :
    (st.pushOrder column ascending).rendered render =
      st.rendered render ++
        (" ORDER BY " ++ column.text ++ if ascending then " ASC" else " DESC") := by
  simp [pushOrder, String.append_assoc]

theorem paramCount_pushOrder (st : Statement) (column : Ident) (ascending : Bool) :
    (st.pushOrder column ascending).paramCount = st.paramCount := rfl

/-- Reserved keys can only be appended if the column of an order is a name, and then they append
the order and the paging. -/
theorem rendered_of_pushReserved {st st' : Statement} {r : Reserved}
    (h : st.pushReserved r = .ok st') :
    (r.hasOrdering = true → isIdent r.orderColumn.toList = true) ∧
      st'.rendered render =
        st.rendered render ++ r.orderText ++ r.pagingText render (st.paramCount + 1) := by
  unfold pushReserved at h
  split at h
  · rename_i hord
    split at h
    · rename_i column hcol
      cases h
      have htext : column.text = r.orderColumn := Ident.parse_eq_ok_iff.mp hcol
      refine ⟨fun _ => htext ▸ column.valid, ?_⟩
      rw [rendered_pushPaging, rendered_pushOrder, paramCount_pushOrder, Reserved.orderText,
        if_pos hord, htext]
    · cases h
  · rename_i hord
    cases h
    refine ⟨fun hord' => absurd hord' hord, ?_⟩
    rw [rendered_pushPaging, Reserved.orderText, if_neg hord, String.append_empty]

end Statement

/-! ### The whole selection -/

namespace Profile

/-- The text of a selection after the table. -/
def clausesText (p : Profile) (params : Params) : String :=
  Filter.texts render " WHERE " 1 (p.filters params) ++ params.reserved.orderText ++
    params.reserved.pagingText render ((p.filters params).length + 1) ++ ";"

/-- The text of a selection. -/
def selectText (p : Profile) (schema : Schema) (params : Params) : String :=
  "SELECT * FROM " ++ (schema.sql ++ "." ++ p.table.text) ++ p.clausesText render params

/-- A selection that succeeds ends in a semicolon, after all that the parameters ask for. -/
theorem exists_of_select {p : Profile} {schema : Schema} {params : Params} {st : Statement}
    (h : (p.select schema params).result = .ok st) :
    ∃ before, Statement.pushReserved
      (((Statement.new "SELECT * FROM ").pushTable schema p.table).pushFilters p params)
      params.reserved = .ok before ∧ st = before.push ";" := by
  dsimp only [select, selectStatement] at h
  generalize Statement.pushReserved _ params.reserved = outcome at h ⊢
  cases outcome with
  | error e => cases h
  | ok before =>
    cases h
    exact ⟨before, rfl, rfl⟩

/-- A selection that succeeds has the text of a selection, and an order is by a name. -/
theorem rendered_of_select {p : Profile} {schema : Schema} {params : Params} {st : Statement}
    (h : (p.select schema params).result = .ok st) :
    (params.reserved.hasOrdering = true → isIdent params.reserved.orderColumn.toList = true) ∧
      st.rendered render = p.selectText render schema params := by
  obtain ⟨before, hbefore, rfl⟩ := exists_of_select h
  obtain ⟨hname, htext⟩ := Statement.rendered_of_pushReserved render hbefore
  refine ⟨hname, ?_⟩
  unfold selectText clausesText
  rw [Statement.rendered_push, htext, Statement.pushFilters, Statement.rendered_pushConditions,
    Statement.paramCount_pushConditions]
  have hhead : ((Statement.new "SELECT * FROM ").pushTable schema p.table).rendered render =
      "SELECT * FROM " ++ (schema.sql ++ "." ++ p.table.text) := by
    rw [Statement.pushTable, Statement.rendered_push, Statement.rendered_new]
  have hcount : ((Statement.new "SELECT * FROM ").pushTable schema p.table).paramCount = 0 := rfl
  rw [hhead, hcount, Nat.zero_add, Nat.zero_add]
  simp only [String.append_assoc]

end Profile

end TenantSql
