import TenantSql.Proofs.InsertLayout
/-!
# TenantSql.Proofs.DeleteLayout

Which keys a deletion by keys names.

All of its text but the list between the parentheses is decided by the table and the
column of keys (`Profile.deletion`). The list has one place for each key, in the order of
the keys, whether they are repeated or null (`valueListText_eq`). Without keys it is the
keyword `NULL`, as the list may not be empty and nothing equals that.
-/

namespace TenantSql

/-- A list of keys: its items with commas between, or a keyword where there are none. -/
def keyList (items : List String) : String :=
  if items.isEmpty then "NULL" else ", ".intercalate items

/-- The first item has no comma in front, and all others do. -/
theorem keyList_cons (item : String) (items : List String) :
    keyList (item :: items) = item ++ separated ", " ", " items := by
  have hjoin : keyList (item :: items) = ", ".intercalate (item :: items) := if_neg (by simp)
  rw [hjoin, ← separated_empty, separated_cons, String.empty_append]

/-- The text of a deletion by keys, with any texts in the places of the keys. -/
def Profile.deletion (p : Profile) (schema : Schema) (key : Ident) (places : List String) :
    String :=
  Layout.line ++ "DELETE FROM " ++ schema.sql ++ "." ++ p.table.text ++
    Layout.line ++ "WHERE " ++ key.text ++ " IN (" ++ keyList places ++ ");"

section

variable (render : Nat → Bound → String)

/-- Values with a comma in front of each, by induction on the values; the number of the first one
grows with every step. -/
theorem moreValuesText_eq (k : Nat) (vs : List Value) :
    moreValuesText render k vs =
      separated ", " ", " (vs.mapIdx fun i v => render (k + i) v.bound) := by
  induction vs generalizing k with
  | nil => rfl
  | cons v rest ih =>
    rw [moreValuesText, ih, List.mapIdx_cons, separated_cons]
    simp only [Nat.add_zero, Nat.add_right_comm k, Nat.add_assoc]

/-- A list has one item for each value, in their order. -/
theorem valueListText_eq (k : Nat) (vs : List Value) :
    valueListText render k vs = keyList (vs.mapIdx fun i v => render (k + i) v.bound) := by
  cases vs with
  | nil => rfl
  | cons v rest =>
    simp only [valueListText, moreValuesText_eq, List.mapIdx_cons, keyList_cons, Nat.add_zero,
      Nat.add_right_comm k, Nat.add_assoc]

end

namespace Profile

variable (p : Profile) (schema : Schema) (key : Ident) (keys : List Value)

/-- Under every rendering a deletion has the renderings of its keys in their places. -/
theorem rendered_deleteByKeysStatement_eq (render : Nat → Bound → String) :
    (p.deleteByKeysStatement schema key keys).rendered render =
      p.deletion schema key (keys.mapIdx fun i v => render (i + 1) v.bound) := by
  rw [rendered_deleteByKeysStatement, valueListText_eq]
  unfold deletePreamble deletion
  simp only [String.append_assoc, Nat.add_comm 1]

theorem sql_deleteByKeysStatement :
    (p.deleteByKeysStatement schema key keys).sql =
      p.deletion schema key ((List.range keys.length).map fun i => "$" ++ natText (i + 1)) := by
  have hplaces : (keys.mapIdx fun i v => Bound.placeholder (i + 1) v.bound) =
      (List.range keys.length).map fun i => "$" ++ natText (i + 1) :=
    List.ext_getElem (by simp) (by simp [placeholder_bound])
  rw [Statement.sql, rendered_deleteByKeysStatement_eq, hplaces]

theorem literalSql_deleteByKeysStatement :
    (p.deleteByKeysStatement schema key keys).literalSql =
      p.deletion schema key (keys.map Value.literal) := by
  have hplaces : (keys.mapIdx fun _ v => v.bound.literal) = keys.map Value.literal :=
    List.ext_getElem (by simp) (by simp [Value.bound])
  rw [Statement.literalSql, rendered_deleteByKeysStatement_eq, hplaces]

end Profile

/-- **A deletion by keys names exactly the keys.** A table with a column of keys can be deleted from
by any list of them. The values are the keys in their order. The text that runs is that of a deletion
with one placeholder for each key, numbered through from one, and the text for people is the same
one with the literal of each key in its place; without keys there is a keyword that nothing equals. -/
theorem delete_names_keys {p : Profile} {key : Ident} (hkey : p.keyColumn = some key)
    (schema : Schema) (keys : List Value) :
    ∃ st, (p.deleteByKeys schema keys).result = .ok st ∧
      st.params = keys ∧
      st.sql =
        p.deletion schema key ((List.range keys.length).map fun i => "$" ++ natText (i + 1)) ∧
      st.literalSql = p.deletion schema key (keys.map Value.literal) := by
  refine ⟨p.deleteByKeysStatement schema key keys, ?_, ?_, ?_, ?_⟩
  · exact Profile.result_deleteByKeys_eq_ok_iff.mpr ⟨key, hkey, rfl⟩
  · exact p.params_deleteByKeysStatement schema key keys
  · exact p.sql_deleteByKeysStatement schema key keys
  · exact p.literalSql_deleteByKeysStatement schema key keys

/-- A key that is given twice and closes the list where it is not quoted, a null between, and no keys
at all. -/
theorem delete_names_keys_of_repeated_keys :
    let p := Profile.currentTransactions
    let schema : Schema := ⟨"a\"b", by decide, by decide⟩
    let key : Value := .text "'); --"
    (∃ st, (p.deleteByKeys schema [key, .null, key]).result = .ok st ∧
      st.params = [key, .null, key] ∧
      st.sql = "\n      DELETE FROM \"a\"\"b\".current_transactions" ++
        "\n      WHERE round IN ($1, $2, $3);" ∧
      st.literalSql = "\n      DELETE FROM \"a\"\"b\".current_transactions" ++
        "\n      WHERE round IN ('''); --', NULL, '''); --');") ∧
    ∃ st, (p.deleteByKeys schema []).result = .ok st ∧
      st.sql = "\n      DELETE FROM \"a\"\"b\".current_transactions" ++
        "\n      WHERE round IN (NULL);" := by
  intro p schema key
  constructor
  · obtain ⟨st, hst, hparams, hsql, hliteral⟩ :=
      delete_names_keys (p := p) rfl schema [key, .null, key]
    exact ⟨st, hst, hparams, hsql.trans (by decide +kernel), hliteral.trans (by decide +kernel)⟩
  · obtain ⟨st, hst, -, hsql, -⟩ := delete_names_keys (p := p) rfl schema []
    exact ⟨st, hst, hsql.trans (by decide +kernel)⟩

end TenantSql
