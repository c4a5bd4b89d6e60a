import TenantSql.Proofs.Lexer
import TenantSql.Proofs.SelectText
/-!
# TenantSql.Proofs.SelectTokens

What Postgres reads in a selection. The text of a selection holds a schema name of
any characters and is made for parameters of any characters, and yet its tokens
are known beforehand: the words of the statement, one quoted identifier, one group
for each parameter of a declared column, and the clauses of the reserved keys.

The tokens are built here from the parameters directly. That the text scans to
them is shown clause by clause: every clause stands apart from its neighbours, so
that their tokens can be put together (`Token.Clause.append`).
-/

namespace TenantSql

/-! ### The tokens to expect -/

/-- The parameters whose key is a declared column, in their order, with the kinds of the columns. -/
def Profile.recognized (p : Profile) (params : Params) : List (String × ColumnKind × String) :=
  params.pairs.filterMap fun (key, raw) => (p.kindOf? key).map fun kind => (key, kind, raw)

/-- The tokens of a condition whose value has number `k`. -/
def conditionTokens (k : Nat) (key : String) (kind : ColumnKind) (raw : String) : List Token :=
  [.word key, .operator (Filter.parse key kind raw).op.sql, .param k] ++
    if (Filter.parse key kind raw).value.isFractional then [.cast, .word "numeric"] else []

/-- The tokens of conditions, the first one after `keyword`, with values numbered from `k`. -/
def conditionsTokens (keyword : String) (k : Nat) :
    List (String × ColumnKind × String) → List Token
  | [] => []
  | (key, kind, raw) :: rest =>
    .word keyword :: conditionTokens k key kind raw ++ conditionsTokens "AND" (k + 1) rest

namespace Reserved

/-- The tokens of an order. -/
def orderTokens (r : Reserved) : List Token :=
  if r.hasOrdering then
    [.word "ORDER", .word "BY", .word r.orderColumn,
      .word (if r.isAscending then "ASC" else "DESC")]
  else []

/-- The tokens of a keyword with value `k`, if there is one. -/
def numberTokens (keyword : String) (k : Nat) : Option String → List Token
  | some _ => [.word keyword, .param k]
  | none => []

/-- The tokens of a limit and an offset, with values numbered from `k`. -/
def pagingTokens (k : Nat) (r : Reserved) : List Token :=
  numberTokens "LIMIT" k r.limit ++ numberTokens "OFFSET" (k + r.limit.toList.length) r.offset

end Reserved

/-- The tokens of a selection after the table. -/
def Profile.clausesTokens (p : Profile) (params : Params) : List Token :=
  conditionsTokens "WHERE" 1 (p.recognized params) ++ params.reserved.orderTokens ++
    params.reserved.pagingTokens ((p.recognized params).length + 1) ++ [.semicolon]

/-- The tokens of a selection. -/
def Profile.selectTokens (p : Profile) (schema : Schema) (params : Params) : List Token :=
  [.word "SELECT", .star, .word "FROM", .quoted schema.name, .dot, .word p.table.text] ++
    p.clausesTokens params

/-! ### Conditions are made from recognized parameters -/

theorem Profile.isIdent_of_kindOf? {p : Profile} {key : String} {kind : ColumnKind}
    (h : p.kindOf? key = some kind) : isIdent key.toList = true := by
  obtain ⟨c, hc, -⟩ := Option.map_eq_some_iff.mp h
  have hname : c.name.text = key := by simpa using List.find?_some hc
  exact hname ▸ c.name.valid

theorem Profile.isIdent_of_mem_recognized {p : Profile} {params : Params}
    {pair : String × ColumnKind × String} (h : pair ∈ p.recognized params) :
    isIdent pair.1.toList = true := by
  obtain ⟨⟨key, raw⟩, -, hpair⟩ := List.mem_filterMap.mp h
  obtain ⟨kind, hkind, rfl⟩ := Option.map_eq_some_iff.mp hpair
  exact isIdent_of_kindOf? hkind

/-- The conditions of a selection are those of the recognized parameters. -/
theorem Profile.filters_eq_map_recognized (p : Profile) (params : Params) :
    p.filters params =
      (p.recognized params).map fun (key, kind, raw) => Filter.parse key kind raw := by
  rw [filters, recognized, List.map_filterMap]
  congr 1
  funext ⟨key, raw⟩
  cases hc : p.column? key with
  | none => simp [kindOf?, hc]
  | some c =>
    have hname : c.name.text = key := by simpa using List.find?_some hc
    simp [kindOf?, hc, hname]

/-! ### Each clause scans to its tokens -/

namespace Token

/-- The tokens of a cast, if there is one. -/
def castTokens : Option String → List Token
  | some type => [.cast, .word type]
  | none => []

/-- A placeholder without a cast needs something apart behind it, and one with a cast a name. -/
theorem scans_placeholder (b : Bound) (k : Nat)
    (hcast : ∀ type ∈ b.cast, isIdent type.toList = true) (rest : List Char) (hrest : Apart rest) :
    Scans ((b.placeholder k).toList ++ rest) (.param k :: castTokens b.cast) rest := by
  rw [Bound.placeholder, String.toList_append, String.toList_append, natText,
    String.toList_ofList]
  cases hb : b.cast with
  | none =>
    have h := scans_param k (hrest.stopsAt (by decide) (by decide))
      (hrest.stopsAt (by decide) (by decide))
    simpa [castTokens] using h
  | some type =>
    have hname : isIdent type.toList = true := hcast type (by simp [hb])
    have hword := scans_word hname (hrest.stopsAt (by decide) (by decide))
    have hmark : Scans (':' :: ':' :: (type.toList ++ rest)) [.cast] (type.toList ++ rest) :=
      Scans.token (by decide) rfl
    have hparam : Scans ('$' :: (natDigits k ++ ':' :: ':' :: (type.toList ++ rest))) [.param k]
        (':' :: ':' :: (type.toList ++ rest)) :=
      scans_param k (fun c hc => by cases hc; decide) (fun c hc => by cases hc; decide)
    simpa [castTokens] using (hparam.trans hmark).trans hword

theorem operator_clause (op : CompareOp) : Clause (" " ++ op.sql) [.operator op.sql] := by
  cases op <;> exact Clause.run (by decide) (by decide) (by decide)

theorem placeholder_clause (b : Bound) (k : Nat)
    (hcast : ∀ type ∈ b.cast, isIdent type.toList = true) :
    Clause (" " ++ b.placeholder k) (.param k :: castTokens b.cast) :=
  Clause.spaced (scans_placeholder b k hcast)

theorem condition_clause (k : Nat) {key : String} (kind : ColumnKind) (raw : String)
    (h : isIdent key.toList = true) :
    Clause (" " ++ (Filter.parse key kind raw).text Bound.placeholder k)
      (conditionTokens k key kind raw) := by
  have hcolumn : (Filter.parse key kind raw).column = key := by cases kind <;> rfl
  have hcast : ∀ type ∈ (Filter.parse key kind raw).bound.cast, isIdent type.toList = true := by
    intro type htype
    unfold Filter.bound at htype
    split at htype
    · cases htype; decide
    · cases htype
  have htext : " " ++ (Filter.parse key kind raw).text Bound.placeholder k =
      (" " ++ key) ++ (" " ++ (Filter.parse key kind raw).op.sql) ++
        (" " ++ (Filter.parse key kind raw).bound.placeholder k) := by
    simp only [Filter.text, hcolumn, String.append_assoc]
  have htokens : conditionTokens k key kind raw =
      [.word key] ++ [.operator (Filter.parse key kind raw).op.sql] ++
        (.param k :: castTokens (Filter.parse key kind raw).bound.cast) := by
    unfold conditionTokens Filter.bound
    split <;> rfl
  rw [htext, htokens]
  exact ((Clause.word h).append (operator_clause _)).append (placeholder_clause _ k hcast)

/-- Conditions scan to their groups, by induction on the parameters they are made for; the number of
the first value grows with each. -/
theorem conditions_clause (keyword : String) (hkeyword : isIdent keyword.toList = true) (k : Nat)
    {pairs : List (String × ColumnKind × String)}
    (h : ∀ pair ∈ pairs, isIdent pair.1.toList = true) :
    Clause (Filter.texts Bound.placeholder (" " ++ keyword ++ " ") k
        (pairs.map fun (key, kind, raw) => Filter.parse key kind raw))
      (conditionsTokens keyword k pairs) := by
  induction pairs generalizing keyword k with
  | nil => exact Clause.empty
  | cons pair rest ih =>
    obtain ⟨key, kind, raw⟩ := pair
    have hkey : isIdent key.toList = true := h _ List.mem_cons_self
    have hrest := ih "AND" (by decide) (k + 1)
      fun pair hpair => h pair (List.mem_cons_of_mem _ hpair)
    have hand : " AND " = " " ++ "AND" ++ " " := by decide
    rw [List.map_cons, Filter.texts, conditionsTokens, hand]
    simpa only [String.append_assoc, List.cons_append, List.nil_append] using
      ((Clause.word hkeyword).append (condition_clause k kind raw hkey)).append hrest

theorem order_clause (r : Reserved)
    (h : r.hasOrdering = true → isIdent r.orderColumn.toList = true) :
    Clause r.orderText r.orderTokens := by
  unfold Reserved.orderText Reserved.orderTokens
  split
  · rename_i hord
    have hby : Clause ((" " ++ "ORDER") ++ (" " ++ "BY")) [.word "ORDER", .word "BY"] :=
      (Clause.word (by decide)).append (Clause.word (by decide))
    have hway : Clause (if r.isAscending then " ASC" else " DESC")
        [.word (if r.isAscending then "ASC" else "DESC")] := by
      have hasc : isIdent "ASC".toList = true := by decide
      have hdesc : isIdent "DESC".toList = true := by decide
      split
      · exact Clause.word hasc
      · exact Clause.word hdesc
    have hlead : " ORDER BY " ++ r.orderColumn =
        (" " ++ "ORDER") ++ (" " ++ "BY") ++ (" " ++ r.orderColumn) := by
      rw [← String.append_assoc]
      rfl
    rw [hlead]
    exact (hby.append (Clause.word (h hord))).append hway
  · exact Clause.empty

theorem number_clause (keyword : String) (hkeyword : isIdent keyword.toList = true) (k : Nat)
    (raw : Option String) :
    Clause (Reserved.numberText Bound.placeholder (" " ++ keyword ++ " ") k raw)
      (Reserved.numberTokens keyword k raw) := by
  cases raw with
  | none => exact Clause.empty
  | some raw =>
    have hparam := placeholder_clause ⟨.parseNumeric raw, raw, none⟩ k (by simp)
    rw [Reserved.numberText, String.append_assoc]
    exact (Clause.word hkeyword).append hparam

theorem paging_clause (k : Nat) (r : Reserved) :
    Clause (r.pagingText Bound.placeholder k) (r.pagingTokens k) :=
  (number_clause "LIMIT" (by decide) k r.limit).append
    (number_clause "OFFSET" (by decide) _ r.offset)

/-- The words in front of the schema. -/
theorem scans_keywords (rest : List Char) :
    Scans ("SELECT * FROM ".toList ++ rest) [.word "SELECT", .star, .word "FROM"] rest := by
  have hapart : Apart (' ' :: rest) := fun c hc => .inl (Option.mem_some_iff.mp hc).symm
  have hfrom : Clause ((" " ++ "*") ++ (" " ++ "FROM")) [.star, .word "FROM"] :=
    (Clause.run (by decide) (by decide) (by decide)).append (Clause.word (by decide))
  have hword : isIdent "SELECT".toList = true := by decide
  have hselect := scans_word hword
    ((hfrom.apart_append hapart).stopsAt (by decide) (by decide))
  exact hselect.trans ((hfrom.scans _ hapart).trans (Scans.refl rest).space)

/-- The beginning of a selection, up to the table. The schema is in quotes, and its closing quote
stands before the dot, so that no character of the name is read outside of them. -/
theorem scans_head (schema : Schema) (table : Ident) (rest : List Char) (hrest : Apart rest) :
    Scans (("SELECT * FROM " ++ (schema.sql ++ "." ++ table.text)).toList ++ rest)
      [.word "SELECT", .star, .word "FROM", .quoted schema.name, .dot, .word table.text] rest := by
  have htable := scans_word table.valid (hrest.stopsAt (by decide) (by decide))
  have hdot : Scans ('.' :: (table.text.toList ++ rest)) [.dot] (table.text.toList ++ rest) :=
    Scans.token (by decide) rfl
  have hschema : Scans (schema.sql.toList ++ '.' :: (table.text.toList ++ rest))
      [.quoted schema.name] ('.' :: (table.text.toList ++ rest)) :=
    scans_quoted schema.ne_empty (by simp)
  have hall := ((scans_keywords _).trans hschema).trans (hdot.trans htable)
  have hmark : ".".toList = ['.'] := by decide
  rw [String.toList_append, String.toList_append, String.toList_append, hmark]
  simpa only [List.append_assoc, List.cons_append, List.nil_append] using hall

/-- The clauses after the table scan to the tokens of clauses. -/
theorem clauses_clause (p : Profile) (params : Params)
    (h : params.reserved.hasOrdering = true → isIdent params.reserved.orderColumn.toList = true) :
    Clause (p.clausesText Bound.placeholder params) (p.clausesTokens params) := by
  have hconditions := conditions_clause "WHERE" (by decide) 1
    fun pair (hpair : pair ∈ p.recognized params) => Profile.isIdent_of_mem_recognized hpair
  have hwhere : " WHERE " = " " ++ "WHERE" ++ " " := by decide
  rw [Profile.clausesText, Profile.clausesTokens, p.filters_eq_map_recognized, List.length_map,
    hwhere]
  exact ((hconditions.append (order_clause params.reserved h)).append (paging_clause _ _)).append
    Clause.semicolon

end Token

/-- The text of a selection scans to the tokens of one, if an order is by a name. -/
theorem Profile.scan?_selectText (p : Profile) (schema : Schema) {params : Params}
    (h : params.reserved.hasOrdering = true → isIdent params.reserved.orderColumn.toList = true) :
    Token.scan? (p.selectText Bound.placeholder schema params).toList =
      some (p.selectTokens schema params) := by
  have hclauses := Token.clauses_clause p params h
  have hhead := Token.scans_head schema p.table _ hclauses.apart
  rw [selectText, String.toList_append]
  exact (hhead.trans hclauses.scans_toList).scan?_eq

/-- **A selection cannot be injected into.** Whatever the schema is called and the parameters hold,
the text of a selection is cut into exactly the tokens that are expected of it. -/
theorem tokens_of_select {p : Profile} {schema : Schema} {params : Params} {st : Statement}
    (h : (p.select schema params).result = .ok st) :
    Token.scan? st.sql.toList = some (p.selectTokens schema params) := by
  obtain ⟨hname, htext⟩ := Profile.rendered_of_select Bound.placeholder h
  rw [show st.sql = p.selectText Bound.placeholder schema params from htext,
    p.scan?_selectText schema hname]

/-- A schema and parameters that are made to break out. -/
theorem tokens_of_hostile_select :
    ∃ st, (Profile.currentNetwork.select ⟨"a\"; DROP --$1", by decide, by decide⟩
        ⟨[("timestamp", "gt1.5"), ("1=1; --", "x"), ("type", "'; --"), ("limit", "5 OR 1"),
          ("direction", "\"")], by decide⟩).result = .ok st ∧
      Token.scan? st.sql.toList = some [.word "SELECT", .star, .word "FROM",
        .quoted "a\"; DROP --$1", .dot, .word "current_network", .word "WHERE",
        .word "timestamp", .operator ">", .param 1, .cast, .word "numeric", .word "AND",
        .word "type", .operator "=", .param 2, .word "ORDER", .word "BY", .word "id",
        .word "DESC", .word "LIMIT", .param 3, .semicolon] := by
  have hbuilt : (Profile.currentNetwork.select ⟨"a\"; DROP --$1", by decide, by decide⟩
      ⟨[("timestamp", "gt1.5"), ("1=1; --", "x"), ("type", "'; --"), ("limit", "5 OR 1"),
        ("direction", "\"")], by decide⟩).result = .ok _ := rfl
  refine ⟨_, hbuilt, ?_⟩
  rw [tokens_of_select hbuilt]
  decide +kernel

end TenantSql
