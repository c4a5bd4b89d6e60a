import TenantSql.Proofs.SelectText
import TenantSql.Proofs.WriteText
/-!
# TenantSql.Proofs.TenantIsolation

Which tenant a statement is for can be read off its text. Every statement goes on
behind its head with the name of a schema in quotes, and a quoted name is read back
whatever quotes it holds and whatever follows it. So no input makes a statement for
one tenant look like a statement for another.

The values of a statement come behind its table, so that all this holds under every
rendering of them (`Query.rendered_of_build`).
-/

namespace TenantSql

/-- What is asked of a table: one of the four kinds of statement, with what it is made from. -/
inductive Query where
  | select (params : Params)
  | insert (rows : List Row)
  | deleteByKeys (keys : List Value)
  | deleteBefore (threshold : Value)

namespace Query

/-- Builds the statement for a table of a tenant. -/
def build (p : Profile) (schema : Schema) : Query → Logged Statement
  | select params => p.select schema params
  | insert rows => p.insert schema rows
  | deleteByKeys keys => p.deleteByKeys schema keys
  | deleteBefore threshold => p.deleteBefore schema threshold

/-- What stands in front of the table. -/
def head : Query → String
  | select _ => "SELECT * FROM "
  | insert _ => "\n      INSERT INTO "
  | deleteByKeys _ => "\n      DELETE FROM "
  | deleteBefore _ => "\n      DELETE FROM "

/-- No head is a proper beginning of another one. -/
theorem head_eq_of_isPrefix {q q' : Query} (h : q.head.toList <+: q'.head.toList) :
    q.head = q'.head := by
  cases q <;> cases q' <;> dsimp only [head] at h ⊢ <;> exact absurd h (by decide)

/-- Two heads of one text are equal. -/
theorem head_eq_of_append {q q' : Query} {behind behind' : List Char}
    (h : q.head.toList ++ behind = q'.head.toList ++ behind') : q.head = q'.head := by
  have hq : q.head.toList <+: q.head.toList ++ behind := List.prefix_append _ _
  have hq' : q'.head.toList <+: q.head.toList ++ behind := h ▸ List.prefix_append _ _
  rcases List.prefix_or_prefix_of_prefix hq hq' with hle | hle
  · exact head_eq_of_isPrefix hle
  · exact (head_eq_of_isPrefix hle).symm

end Query

/-! ### Every statement begins with its head and its table -/

theorem Query.rendered_of_build (render : Nat → Bound → String) {q : Query} {p : Profile}
    {schema : Schema} {st : Statement} (h : (q.build p schema).result = .ok st) :
    ∃ after, st.rendered render = q.head ++ (schema.sql ++ "." ++ p.table.text) ++ after := by
  cases q with
  | select params => exact ⟨_, (Profile.rendered_of_select render h).2⟩
  | insert rows =>
    obtain ⟨_, rfl⟩ := Profile.result_insert_eq_ok_iff.mp h
    rw [Profile.rendered_insertStatement, Profile.insertHead]
    simp only [String.append_assoc]
    exact ⟨_, rfl⟩
  | deleteByKeys keys =>
    obtain ⟨key, _, rfl⟩ := Profile.result_deleteByKeys_eq_ok_iff.mp h
    rw [Profile.rendered_deleteByKeysStatement, Profile.deletePreamble]
    simp only [String.append_assoc]
    exact ⟨_, rfl⟩
  | deleteBefore threshold =>
    obtain ⟨time, _, rfl⟩ := Profile.result_deleteBefore_eq_ok_iff.mp h
    rw [Profile.rendered_deleteBeforeStatement, Profile.deletePreamble]
    simp only [String.append_assoc]
    exact ⟨_, rfl⟩

/-! ### Reading the tenant -/

/-- Behind the head the text goes on with a quote, and the quoted identifier that is read there is
the name of the schema, with a dot and the table behind it. -/
def Addresses (text head : String) (schema : Schema) (table : Ident) : Prop :=
  ∃ behind after, text.toList = head.toList ++ '"' :: behind ∧
    Quoted.read? '"' ('"' :: behind) =
      some (schema.name.toList, '.' :: (table.text.toList ++ after))

/-- A text that begins with a head and a table addresses it: the dot is no quote, so that the
closing quote is the one that is read as such. -/
theorem addresses_of_eq {text head after : String} {schema : Schema} {table : Ident}
    (h : text = head ++ (schema.sql ++ "." ++ table.text) ++ after) :
    Addresses text head schema table := by
  have hdot : ".".toList = ['.'] := by decide
  have hread := Quoted.read?_encode_append '"' schema.name.toList
    ('.' :: (table.text.toList ++ after.toList)) (by simp)
  refine ⟨Quoted.escape '"' schema.name.toList ++
    '"' :: '.' :: (table.text.toList ++ after.toList), after.toList, ?_, ?_⟩
  · rw [h]
    simp only [String.toList_append, Schema.sql, Quoted.identifier, String.toList_ofList,
      Quoted.encode, hdot, List.append_assoc, List.cons_append, List.nil_append]
  · rw [← hread, Quoted.encode, List.cons_append, List.append_assoc, List.singleton_append]

/-- A text addresses one tenant at most, whatever head it is read behind. -/
theorem Addresses.name_eq {text : String} {q q' : Query} {schema schema' : Schema}
    {table table' : Ident} (h : Addresses text q.head schema table)
    (h' : Addresses text q'.head schema' table') : schema.name = schema'.name := by
  obtain ⟨behind, after, htext, hread⟩ := h
  obtain ⟨behind', after', htext', hread'⟩ := h'
  rw [htext] at htext'
  have hhead : q.head = q'.head := Query.head_eq_of_append htext'
  rw [hhead] at htext'
  have hbehind : '"' :: behind = '"' :: behind' := List.append_cancel_left htext'
  rw [hbehind, hread'] at hread
  have hname := (Prod.ext_iff.mp (Option.some.inj hread)).1
  exact String.toList_inj.mp hname.symm

/-- Under any rendering of its values a statement addresses the table it was built for. -/
theorem Query.addresses_of_build (render : Nat → Bound → String) {q : Query} {p : Profile}
    {schema : Schema} {st : Statement} (h : (q.build p schema).result = .ok st) :
    Addresses (st.rendered render) q.head schema p.table := by
  obtain ⟨after, hafter⟩ := rendered_of_build render h
  exact addresses_of_eq hafter

/-- **Tenants are kept apart.** Whatever is built for a table of a tenant, both texts of the
statement say behind their head which schema it is for: the quoted identifier that is read there
is the name of the schema, and the table follows. So statements for schemas of different names
never have a text in common, whatever they were built from. -/
theorem tenant_of_build {q : Query} {p : Profile} {schema : Schema} {st : Statement}
    (h : (q.build p schema).result = .ok st) :
    Addresses st.sql q.head schema p.table ∧
    Addresses st.literalSql q.head schema p.table ∧
    ∀ (q' : Query) (p' : Profile) (schema' : Schema) (st' : Statement),
      (q'.build p' schema').result = .ok st' → schema.name ≠ schema'.name →
        st.sql ≠ st'.sql ∧ st.literalSql ≠ st'.literalSql ∧ st.sql ≠ st'.literalSql := by
  have hsql : Addresses st.sql q.head schema p.table := q.addresses_of_build _ h
  have hliteral : Addresses st.literalSql q.head schema p.table := q.addresses_of_build _ h
  refine ⟨hsql, hliteral, fun q' p' schema' st' h' hname => ?_⟩
  have hsql' : Addresses st'.sql q'.head schema' p'.table := q'.addresses_of_build _ h'
  have hliteral' : Addresses st'.literalSql q'.head schema' p'.table := q'.addresses_of_build _ h'
  refine ⟨fun heq => hname ?_, fun heq => hname ?_, fun heq => hname ?_⟩
  · exact hsql.name_eq (heq ▸ hsql')
  · exact hliteral.name_eq (heq ▸ hliteral')
  · exact hsql.name_eq (heq ▸ hliteral')

/-- A name that ends in a quote, and one that goes on from there as a text with a table would. -/
theorem tenant_of_quoting_builds :
    let schema : Schema := ⟨"a\"", by decide, by decide⟩
    let schema' : Schema := ⟨"a\"\".current_transactions", by decide, by decide⟩
    let q := Query.deleteByKeys [.text "r1", .text "'"]
    let q' := Query.deleteBefore (.int 5)
    ∃ st st', (q.build .currentTransactions schema).result = .ok st ∧
      (q'.build .currentTransactions schema').result = .ok st' ∧
      Addresses st.sql "\n      DELETE FROM " schema ⟨"current_transactions", by decide⟩ ∧
      Addresses st.literalSql "\n      DELETE FROM " schema ⟨"current_transactions", by decide⟩ ∧
      schema.name ≠ schema'.name ∧
      st.sql ≠ st'.sql ∧ st.literalSql ≠ st'.literalSql ∧ st.sql ≠ st'.literalSql := by
  intro schema schema' q q'
  have hbuilt : (q.build .currentTransactions schema).result = .ok _ := rfl
  have hbuilt' : (q'.build .currentTransactions schema').result = .ok _ := rfl
  have hname : schema.name ≠ schema'.name := by decide
  obtain ⟨hsql, hliteral, happart⟩ := tenant_of_build hbuilt
  exact ⟨_, _, hbuilt, hbuilt', hsql, hliteral, hname, happart q' _ schema' _ hbuilt' hname⟩

end TenantSql
