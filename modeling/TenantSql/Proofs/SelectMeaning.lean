import TenantSql.Proofs.SelectTokens
/-!
# TenantSql.Proofs.SelectMeaning

What a selection means, said from the parameters alone: which values are bound, and
which text stands around them.

A parameter of a declared column is read here by the kind of the column
(`ColumnKind.opOf`, `valueOf`, `literalOf`), with the comparison found by its
letters. `Profile.selection` writes the selection with any texts in the places of
its values, so that one text with two fillings is the text that runs and the text
for people.
-/

namespace TenantSql

/-! ### Reading a parameter -/

namespace CompareOp

/-- The comparisons that letters ask for. -/
def lettered : List CompareOp := [lt, le, gt, ge, ne]

/-- The comparison whose letters a text begins with, and equality if it begins with none. -/
def asked (raw : String) : CompareOp :=
  (lettered.find? fun op => op.letters.isPrefixOf raw.toList).getD eq

/-- What a text holds behind the letters of its comparison. -/
def behindLetters (raw : String) : String :=
  String.ofList (raw.toList.drop (asked raw).letters.length)

/-- Only a text with all the letters of a comparison begins with them. -/
theorem readChars_eq (cs : List Char) :
    readChars cs =
      let op := (lettered.find? fun op => op.letters.isPrefixOf cs).getD eq
      (op, cs.drop op.letters.length) := by
  fun_cases readChars cs with
  | case6 cs hlt hle hgt hge hne =>
    have hnone : (lettered.find? fun op => op.letters.isPrefixOf cs) = none := by
      rw [List.find?_eq_none]
      intro op hop hprefix
      obtain ⟨rest, rfl⟩ := List.isPrefixOf_iff_prefix.mp hprefix
      cases op with
      | eq => exact absurd hop (by decide)
      | ne => exact hne rest rfl
      | lt => exact hlt rest rfl
      | le => exact hle rest rfl
      | gt => exact hgt rest rfl
      | ge => exact hge rest rfl
    rw [hnone]
    rfl
  | _ => rfl

theorem read_eq (raw : String) : read raw = (asked raw, behindLetters raw) := by
  rw [read, readChars_eq]
  rfl

end CompareOp

namespace ColumnKind

/-- The comparison that a parameter asks for. Only numeric columns read letters. -/
def opOf (kind : ColumnKind) (raw : String) : CompareOp :=
  match kind with
  | numeric => .asked raw
  | string | generic => .eq

/-- What a parameter is compared with, as it was written. -/
def comparandOf (kind : ColumnKind) (raw : String) : String :=
  match kind with
  | numeric => CompareOp.behindLetters raw
  | string | generic => raw

/-- The value that a parameter binds. -/
def valueOf (kind : ColumnKind) (raw : String) : Value :=
  match kind with
  | string => .text raw
  | numeric | generic => .parseNumeric (kind.comparandOf raw)

/-- What stands for the value of a parameter in the literal form. -/
def literalOf (kind : ColumnKind) (raw : String) : String :=
  match kind with
  | string => Quoted.literal raw
  | numeric | generic => kind.comparandOf raw

/-- What stands for the value of a parameter when it runs as value `k`. -/
def placeholderOf (k : Nat) (kind : ColumnKind) (raw : String) : String :=
  "$" ++ natText k ++ if (kind.valueOf raw).isFractional then "::numeric" else ""

end ColumnKind

namespace Filter

variable (column : String) (kind : ColumnKind) (raw : String)

theorem parse_column : (parse column kind raw).column = column := by
  cases kind <;> rfl

theorem parse_op : (parse column kind raw).op = kind.opOf raw := by
  cases kind with
  | numeric => exact congrArg Prod.fst (CompareOp.read_eq raw)
  | string => rfl
  | generic => rfl

theorem parse_kind : (parse column kind raw).kind = kind := by
  cases kind <;> rfl

theorem parse_comparand : (parse column kind raw).comparand = kind.comparandOf raw := by
  cases kind with
  | numeric => exact congrArg Prod.snd (CompareOp.read_eq raw)
  | string => rfl
  | generic => rfl

theorem parse_value : (parse column kind raw).value = kind.valueOf raw := by
  rw [value, parse_kind, parse_comparand]
  cases kind <;> rfl

theorem parse_literal : (parse column kind raw).literal = kind.literalOf raw := by
  rw [literal, parse_kind, parse_comparand]
  cases kind <;> rfl

theorem parse_placeholder (k : Nat) :
    (parse column kind raw).bound.placeholder k = kind.placeholderOf k raw := by
  rw [Bound.placeholder, bound, parse_value, ColumnKind.placeholderOf]
  cases (kind.valueOf raw).isFractional <;> rfl

end Filter

/-! ### A selection with any texts as values -/

/-- The predicate that a parameter puts on its column, with `slot` in the place of the value. -/
def predicate (slot : ColumnKind → String → String) : String × ColumnKind × String → String
  | (column, kind, raw) => column ++ " " ++ (kind.opOf raw).sql ++ " " ++ slot kind raw

/-- The predicates of parameters, with values numbered from `k`. -/
def predicates (slot : Nat → ColumnKind → String → String) (k : Nat)
    (pairs : List (String × ColumnKind × String)) : List String :=
  pairs.mapIdx fun i pair => predicate (slot (k + i)) pair

/-- Predicates that all have to hold, after `lead`; without predicates there is nothing. -/
def conjunction (lead : String) (ps : List String) : String :=
  if ps.isEmpty then "" else lead ++ " AND ".intercalate ps

/-- A clause of a keyword and a number; without a number there is none. -/
def numberClause (keyword : String) : Option String → String
  | some number => keyword ++ number
  | none => ""

/-- A selection: its clauses stand in one order, and `slot`, `limit` and `offset` in the places of
the values. -/
def Profile.selection (p : Profile) (schema : Schema) (params : Params)
    (slot : Nat → ColumnKind → String → String) (limit offset : Option String) : String :=
  "SELECT * FROM " ++ schema.sql ++ "." ++ p.table.text ++
    conjunction " WHERE " (predicates slot 1 (p.recognized params)) ++ params.reserved.orderText ++
    numberClause " LIMIT " limit ++ numberClause " OFFSET " offset ++ ";"

section

variable {render : Nat → Bound → String} {slot : Nat → ColumnKind → String → String}

theorem conjunction_cons (lead p : String) (ps : List String) :
    conjunction lead (p :: ps) = lead ++ p ++ conjunction " AND " ps := by
  cases ps with
  | nil => simp [conjunction]
  | cons next rest => simp [conjunction, String.append_assoc]

/-- Conditions are joined in their order, by induction on them; the number of the first value and
the lead change with each. -/
theorem Filter.texts_eq_conjunction (lead : String) (k : Nat) (fs : List Filter) :
    texts render lead k fs = conjunction lead (fs.mapIdx fun i f => f.text render (k + i)) := by
  induction fs generalizing lead k with
  | nil => rfl
  | cons f rest ih =>
    rw [texts, ih, List.mapIdx_cons, conjunction_cons]
    simp only [Nat.add_zero, Nat.add_right_comm k, Nat.add_assoc]

/-- Conditions that parameters ask for are predicates with renderings of their values. -/
theorem Filter.texts_eq
    (hslot : ∀ k column kind raw, render k (parse column kind raw).bound = slot k kind raw)
    (lead : String) (k : Nat) (pairs : List (String × ColumnKind × String)) :
    texts render lead k (pairs.map fun (column, kind, raw) => parse column kind raw) =
      conjunction lead (predicates slot k pairs) := by
  have htext : ∀ k column kind raw,
      (parse column kind raw).text render k = predicate (slot k) (column, kind, raw) := by
    intro k column kind raw
    rw [text, parse_column, parse_op, hslot, predicate]
  rw [texts_eq_conjunction]
  congr 1
  exact List.ext_getElem (by simp [predicates]) (by simp [predicates, htext])

theorem Reserved.numberText_eq {number : String → String} {k : Nat}
    (hnumber : ∀ raw, render k ⟨.parseNumeric raw, raw, none⟩ = number raw) (keyword : String)
    (raw : Option String) :
    numberText render keyword k raw = numberClause keyword (raw.map number) := by
  cases raw with
  | none => rfl
  | some raw => exact congrArg (keyword ++ ·) (hnumber raw)

/-- The text of a selection under a rendering that is known on conditions, and on the numbers of
the limit and the offset. -/
theorem Profile.selectText_eq (p : Profile) (schema : Schema) (params : Params)
    {limit offset : String → String}
    (hslot : ∀ k column kind raw, render k (Filter.parse column kind raw).bound = slot k kind raw)
    (hlimit : ∀ raw, render ((p.recognized params).length + 1) ⟨.parseNumeric raw, raw, none⟩ =
      limit raw)
    (hoffset : ∀ raw,
      render ((p.recognized params).length + 1 + params.reserved.limit.toList.length)
        ⟨.parseNumeric raw, raw, none⟩ = offset raw) :
    p.selectText render schema params =
      p.selection schema params slot (params.reserved.limit.map limit)
        (params.reserved.offset.map offset) := by
  unfold selectText clausesText Reserved.pagingText selection
  rw [p.filters_eq_map_recognized, List.length_map, Filter.texts_eq hslot,
    Reserved.numberText_eq hlimit, Reserved.numberText_eq hoffset]
  simp only [String.append_assoc]

end

/-! ### The values of a selection -/

namespace Statement

theorem params_appendTo (st : Statement) (f : Filter) :
    (f.appendTo st).params = st.params ++ [f.value] := by
  simp only [Filter.appendTo, params_pushBound, params_push, Filter.bound]

theorem params_pushConditions (lead : String) (st : Statement) (fs : List Filter) :
    (st.pushConditions lead fs).params = st.params ++ fs.map Filter.value := by
  induction fs generalizing lead st with
  | nil => exact (List.append_nil _).symm
  | cons f rest ih =>
    rw [pushConditions, ih, params_appendTo, params_push, List.map_cons, List.append_assoc,
      List.singleton_append]

theorem params_pushNumber (st : Statement) (keyword : String) (raw : Option String) :
    (st.pushNumber keyword raw).params = st.params ++ raw.toList.map .parseNumeric := by
  cases raw with
  | none => exact (List.append_nil _).symm
  | some raw => rw [pushNumber, bindVerbatim, params_pushBound, params_push]; rfl

theorem params_pushPaging (st : Statement) (r : Reserved) :
    (st.pushPaging r).params =
      st.params ++ r.limit.toList.map .parseNumeric ++ r.offset.toList.map .parseNumeric := by
  rw [pushPaging, params_pushNumber, params_pushNumber]

theorem params_pushOrder (st : Statement) (column : Ident) (ascending : Bool) :
    (st.pushOrder column ascending).params = st.params := rfl

/-- Of the reserved keys only the limit and the offset bind values. -/
theorem params_of_pushReserved {st st' : Statement} {r : Reserved}
    (h : st.pushReserved r = .ok st') :
    st'.params =
      st.params ++ r.limit.toList.map .parseNumeric ++ r.offset.toList.map .parseNumeric := by
  unfold pushReserved at h
  split at h
  · split at h
    · cases h
      rw [params_pushPaging, params_pushOrder]
    · cases h
  · cases h
    exact params_pushPaging st r

end Statement

namespace Profile

theorem map_value_filters (p : Profile) (params : Params) :
    (p.filters params).map Filter.value =
      (p.recognized params).map fun (_, kind, raw) => kind.valueOf raw := by
  rw [filters_eq_map_recognized, List.map_map]
  refine List.map_congr_left fun pair _ => ?_
  obtain ⟨column, kind, raw⟩ := pair
  exact Filter.parse_value column kind raw

theorem params_of_select {p : Profile} {schema : Schema} {params : Params} {st : Statement}
    (h : (p.select schema params).result = .ok st) :
    st.params = ((p.recognized params).map fun (_, kind, raw) => kind.valueOf raw) ++
      params.reserved.limit.toList.map .parseNumeric ++
      params.reserved.offset.toList.map .parseNumeric := by
  obtain ⟨before, hbefore, rfl⟩ := exists_of_select h
  rw [Statement.params_push, Statement.params_of_pushReserved hbefore, Statement.pushFilters,
    Statement.params_pushConditions, map_value_filters, Statement.pushTable,
    Statement.params_push, Statement.params_new, List.nil_append]

end Profile

/-- **A selection means what the parameters say.** Its values are those of the parameters of
declared columns, in their order, then the limit and the offset. Each of these parameters gives one
predicate, with the comparison of its letters and the number of its value, which is cast if it has
a fraction. The text for people is the same text with what was written in the places of the values,
in quotes for columns of text. The clauses are there if the parameters ask for them, and come in
one order whatever the order of the keys. -/
theorem meaning_of_select {p : Profile} {schema : Schema} {params : Params} {st : Statement}
    (h : (p.select schema params).result = .ok st) :
    let pairs := p.recognized params
    let r := params.reserved
    st.params = (pairs.map fun (_, kind, raw) => kind.valueOf raw) ++
      r.limit.toList.map .parseNumeric ++ r.offset.toList.map .parseNumeric ∧
    st.sql = p.selection schema params ColumnKind.placeholderOf
      (r.limit.map fun _ => "$" ++ natText (pairs.length + 1))
      (r.offset.map fun _ => "$" ++ natText (pairs.length + 1 + r.limit.toList.length)) ∧
    st.literalSql = p.selection schema params (fun _ => ColumnKind.literalOf) r.limit r.offset := by
  refine ⟨Profile.params_of_select h, ?_, ?_⟩
  · have hnumber : ∀ k raw, Bound.placeholder k ⟨.parseNumeric raw, raw, none⟩ = "$" ++ natText k :=
      fun _ _ => String.append_empty
    rw [Statement.sql, (Profile.rendered_of_select Bound.placeholder h).2]
    exact p.selectText_eq schema params
      (fun k column kind raw => Filter.parse_placeholder column kind raw k) (hnumber _) (hnumber _)
  · have htext : p.selectText (fun _ b => b.literal) schema params =
        p.selection schema params (fun _ => ColumnKind.literalOf) (params.reserved.limit.map id)
          (params.reserved.offset.map id) :=
      p.selectText_eq schema params (fun _ column kind raw => Filter.parse_literal column kind raw)
        (fun _ => rfl) (fun _ => rfl)
    rw [Statement.literalSql, (Profile.rendered_of_select (fun _ b => b.literal) h).2, htext,
      Option.map_id, id, id]

/-- Reserved keys between the others, a key that no column has, a key without a value, a text with a
quote, a fraction, and letters behind letters. -/
theorem meaning_of_mixed_select :
    ∃ st, (Profile.currentNetwork.select ⟨"Pool-Main", by decide, by decide⟩
        ⟨[("offset", "5"), ("type", "it's"), ("hmm", "ge1"), ("height", "ge1.5"), ("order", ""),
          ("limit", "10"), ("timestamp", "gtlt5")], by decide⟩).result = .ok st ∧
      st.params = [.text "it's", .parseNumeric "1.5", .parseNumeric "lt5", .parseNumeric "10",
        .parseNumeric "5"] ∧
      st.sql = "SELECT * FROM \"Pool-Main\".current_network WHERE type = $1" ++
        " AND height >= $2::numeric AND timestamp > $3 LIMIT $4 OFFSET $5;" ∧
      st.literalSql = "SELECT * FROM \"Pool-Main\".current_network WHERE type = 'it''s'" ++
        " AND height >= 1.5 AND timestamp > lt5 LIMIT 10 OFFSET 5;" := by
  have hbuilt : (Profile.currentNetwork.select ⟨"Pool-Main", by decide, by decide⟩
      ⟨[("offset", "5"), ("type", "it's"), ("hmm", "ge1"), ("height", "ge1.5"), ("order", ""),
        ("limit", "10"), ("timestamp", "gtlt5")], by decide⟩).result = .ok _ := rfl
  obtain ⟨hparams, hsql, hliteral⟩ := meaning_of_select hbuilt
  have hfraction : CompareOp.behindLetters "ge1.5" = "1.5" := by decide +kernel
  have hletters : CompareOp.behindLetters "gtlt5" = "lt5" := by decide +kernel
  refine ⟨_, hbuilt, ?_, hsql.trans ?_, hliteral.trans ?_⟩
  · rw [hparams, ← hfraction, ← hletters]
    rfl
  · decide +kernel
  · decide +kernel

end TenantSql
