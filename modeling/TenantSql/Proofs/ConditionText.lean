import TenantSql.Proofs.NumericCast
/-!
# TenantSql.Proofs.ConditionText

One condition is written three times, by different code: alone as a fragment, in the text for
people, and in the text that runs, where its value stands apart from it. They are one text with
three things in the place of the value (`Filter.text_literally`, `Filter.text_placed`), on
whatever statement the condition is appended to, and so are the clauses that conditions are
joined to (`Statement.rendered_pushFilters`).
-/

namespace TenantSql

namespace Filter

/-- The comparison in the text that runs, without the column. Its value is number `k`. -/
def placed (k : Nat) (f : Filter) : String :=
  " " ++ f.op.sql ++ " " ++ "$" ++ natText k ++ if f.value.isFractional then "::numeric" else ""

/-- For people a condition is its column and its fragment. -/
theorem text_literally (k : Nat) (f : Filter) :
    f.text (fun _ b => b.literal) k = f.column ++ f.fragment := by
  simp only [text, fragment, bound, String.append_assoc]

theorem text_placed (k : Nat) (f : Filter) :
    f.text Bound.placeholder k = f.column ++ f.placed k := by
  simp only [text, placed, placeholder_bound, String.append_assoc]

end Filter

namespace Statement

variable (st : Statement) (f : Filter) (p : Profile) (params : Params)

theorem literalSql_appendTo :
    (f.appendTo st).literalSql = st.literalSql ++ f.column ++ f.fragment := by
  rw [literalSql, rendered_appendTo, Filter.text_literally, ← String.append_assoc]
  rfl

theorem sql_appendTo_placed :
    (f.appendTo st).sql = st.sql ++ f.column ++ f.placed (st.paramCount + 1) := by
  rw [f.sql_appendTo]
  simp only [Filter.placed, String.append_assoc]

/-- Under every rendering the conditions of parameters are one clause, their values numbered on from
those of the statement. -/
theorem rendered_pushFilters (render : Nat → Bound → String) :
    (st.pushFilters p params).rendered render =
      st.rendered render ++ conjunction " WHERE "
        ((p.filters params).mapIdx fun i f => f.text render (st.paramCount + 1 + i)) := by
  rw [pushFilters, rendered_pushConditions, Filter.texts_eq_conjunction]

theorem literalSql_pushFilters :
    (st.pushFilters p params).literalSql =
      st.literalSql ++ conjunction " WHERE " ((p.recognized params).map fun (column, kind, raw) =>
        column ++ (Filter.parse column kind raw).fragment) := by
  have htexts : ((p.filters params).mapIdx fun i f =>
      f.text (fun _ b => b.literal) (st.paramCount + 1 + i)) =
        (p.recognized params).map fun (column, kind, raw) =>
          column ++ (Filter.parse column kind raw).fragment := by
    rw [p.filters_eq_map_recognized]
    exact List.ext_getElem (by simp) (by simp [Filter.text_literally, Filter.parse_column])
  rw [literalSql, rendered_pushFilters, htexts]
  rfl

theorem sql_pushFilters :
    (st.pushFilters p params).sql =
      st.sql ++ conjunction " WHERE " ((p.recognized params).mapIdx fun i (column, kind, raw) =>
        column ++ (Filter.parse column kind raw).placed (st.paramCount + 1 + i)) := by
  have htexts : ((p.filters params).mapIdx fun i f =>
      f.text Bound.placeholder (st.paramCount + 1 + i)) =
        (p.recognized params).mapIdx fun i (column, kind, raw) =>
          column ++ (Filter.parse column kind raw).placed (st.paramCount + 1 + i) := by
    rw [p.filters_eq_map_recognized]
    exact List.ext_getElem (by simp) (by simp [Filter.text_placed, Filter.parse_column])
  rw [sql, rendered_pushFilters, htexts]
  rfl

theorem params_pushFilters :
    (st.pushFilters p params).params =
      st.params ++ (p.recognized params).map fun (_, kind, raw) => kind.valueOf raw := by
  rw [pushFilters, params_pushConditions, p.map_value_filters]

end Statement

/-- **The texts of a condition agree.** Whatever a statement holds already, a condition that is
appended to it adds its column and its fragment to the text for people, the same column and operator
with the next placeholder to the text that runs, and its value to the values. The literal of a
comparand of text is the literal of that value. So the clause of the conditions that parameters ask
for, those of them that have a declared column for their key, is for people their columns and
fragments with `AND` between, and where it runs the same with placeholders that are numbered on. -/
theorem condition_texts_agree (st : Statement) (column : String) (kind : ColumnKind)
    (raw : String) :
    let f := Filter.parse column kind raw
    ((f.appendTo st).literalSql = st.literalSql ++ column ++ f.fragment ∧
      (f.appendTo st).sql = st.sql ++ column ++ f.placed (st.paramCount + 1) ∧
      (f.appendTo st).params = st.params ++ [f.value]) ∧
    (let g := Filter.parse column .string raw
    g.fragment = " = " ++ g.value.literal ∧ g.bound.literal = g.value.literal) ∧
    ∀ (p : Profile) (params : Params),
      let pairs := p.recognized params
      (st.pushFilters p params).literalSql =
        st.literalSql ++ conjunction " WHERE " (pairs.map fun (column, kind, raw) =>
          column ++ (Filter.parse column kind raw).fragment) ∧
      (st.pushFilters p params).sql =
        st.sql ++ conjunction " WHERE " (pairs.mapIdx fun i (column, kind, raw) =>
          column ++ (Filter.parse column kind raw).placed (st.paramCount + 1 + i)) ∧
      (st.pushFilters p params).params =
        st.params ++ pairs.map fun (_, kind, raw) => kind.valueOf raw := by
  intro f
  have hcolumn : f.column = column := Filter.parse_column column kind raw
  refine ⟨⟨?_, ?_, ?_⟩, ⟨rfl, rfl⟩, fun p params => ⟨?_, ?_, ?_⟩⟩
  · rw [← hcolumn]
    exact st.literalSql_appendTo f
  · rw [← hcolumn]
    exact st.sql_appendTo_placed f
  · exact st.params_appendTo f
  · exact st.literalSql_pushFilters p params
  · exact st.sql_pushFilters p params
  · exact st.params_pushFilters p params

end TenantSql
