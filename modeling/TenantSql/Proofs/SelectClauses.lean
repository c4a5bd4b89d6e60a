import Mathlib.Algebra.Order.BigOperators.Group.List
import Mathlib.Algebra.Order.Ring.Nat
import TenantSql.Proofs.DraftChecks
import TenantSql.Proofs.ParamsHistory
import TenantSql.Proofs.SelectMeaning
/-!
# TenantSql.Proofs.SelectClauses

Which parameters the clauses of a selection are made of, and how many of them there can be.

A column is compared wherever its name stands directly before an operator
(`Token.compared`), so the predicates of a selection are counted in its text. A query
string gives a key once, however often and in whatever spellings it comes, so no column is
compared twice and the values are no more than the columns and two (`select_ofQuery_bounded`).

A clause is made of the pairs of certain keys (`Profile.keysOf`): conditions of those of the
declared columns, the others of those of reserved keys that have a value. It does not change if
all other pairs are taken away. No key belongs to two clauses as long as no column has a reserved
name (`select_uses_each_pair_once`); the checks of a profile do not see to that
(`select_uses_limit_twice`).
-/

namespace TenantSql

/-! ### The columns that a text compares -/

namespace Token

/-- The words that stand directly before an operator. -/
def compared : List Token → List String
  | .word name :: .operator _ :: rest => name :: compared rest
  | _ :: rest => compared rest
  | [] => []

/-- Whether a token is an operator. -/
def isOperator : Token → Bool
  | .operator _ => true
  | _ => false

theorem compared_eq_nil {tokens : List Token} (h : ∀ t ∈ tokens, t.isOperator = false) :
    compared tokens = [] := by
  fun_induction compared tokens with
  | case1 name op rest ih => exact absurd (h (.operator op) (by simp)) (by simp [isOperator])
  | case2 t rest _ ih => exact ih fun t ht => h t (List.mem_cons_of_mem _ ht)
  | case3 => rfl

/-- Tokens without an operator take no part in a comparison, whatever stands before them. -/
theorem compared_append {tokens : List Token} (h : ∀ t ∈ tokens, t.isOperator = false)
    (before : List Token) : compared (before ++ tokens) = compared before := by
  fun_induction compared before with
  | case1 name op rest ih => simp [compared, ih]
  | case2 t rest hnot ih =>
    rw [List.cons_append, compared, ih]
    intro name op after ht hafter
    cases rest with
    | nil => exact absurd (h (.operator op) (by simp_all)) (by simp [isOperator])
    | cons next more =>
      obtain ⟨hnext, -⟩ := List.cons.inj hafter
      exact hnot name op more ht (congrArg (· :: more) hnext)
  | case3 => exact compared_eq_nil h

theorem conditionsTokens_ne_operator (keyword : String) (k : Nat)
    (pairs : List (String × ColumnKind × String)) (op : String) (after : List Token) :
    conditionsTokens keyword k pairs ≠ .operator op :: after := by
  cases pairs <;> simp [conditionsTokens]

/-- A condition compares its column. A cast stands behind the value, so it compares nothing. -/
theorem compared_conditionTokens (keyword : String) (k : Nat) (key : String) (kind : ColumnKind)
    (raw : String) {rest : List Token} (hrest : ∀ op after, rest ≠ .operator op :: after) :
    compared (.word keyword :: conditionTokens k key kind raw ++ rest) = key :: compared rest := by
  unfold conditionTokens
  split <;> simp [compared, hrest]

/-- Conditions compare the columns of their parameters, one each. -/
theorem compared_conditionsTokens (keyword : String) (k : Nat)
    (pairs : List (String × ColumnKind × String)) :
    compared (conditionsTokens keyword k pairs) = pairs.map Prod.fst := by
  induction pairs generalizing keyword k with
  | nil => rfl
  | cons pair rest ih =>
    obtain ⟨key, kind, raw⟩ := pair
    rw [conditionsTokens, compared_conditionTokens keyword k key kind raw
      (conditionsTokens_ne_operator "AND" (k + 1) rest), ih, List.map_cons]

theorem isOperator_of_mem_orderTokens {r : Reserved} {t : Token} (h : t ∈ r.orderTokens) :
    t.isOperator = false := by
  unfold Reserved.orderTokens at h
  split at h
  · simp only [List.mem_cons, List.not_mem_nil, or_false] at h
    rcases h with rfl | rfl | rfl | rfl <;> rfl
  · cases h

theorem isOperator_of_mem_numberTokens {keyword : String} {k : Nat} {raw : Option String}
    {t : Token} (h : t ∈ Reserved.numberTokens keyword k raw) : t.isOperator = false := by
  cases raw with
  | none => cases h
  | some raw =>
    simp only [Reserved.numberTokens, List.mem_cons, List.not_mem_nil, or_false] at h
    rcases h with rfl | rfl <;> rfl

end Token

/-- A selection compares the columns of the recognized parameters and nothing else. -/
theorem Profile.compared_selectTokens (p : Profile) (schema : Schema) (params : Params) :
    Token.compared (p.selectTokens schema params) = (p.recognized params).map Prod.fst := by
  have hrest : ∀ t ∈ params.reserved.orderTokens ++
      (params.reserved.pagingTokens ((p.recognized params).length + 1) ++ [.semicolon]),
      t.isOperator = false := by
    intro t ht
    simp only [Reserved.pagingTokens, List.mem_append, List.mem_singleton] at ht
    rcases ht with horder | (hlimit | hoffset) | rfl
    · exact Token.isOperator_of_mem_orderTokens horder
    · exact Token.isOperator_of_mem_numberTokens hlimit
    · exact Token.isOperator_of_mem_numberTokens hoffset
    · rfl
  have hhead : p.selectTokens schema params =
      [.word "SELECT", .star, .word "FROM", .quoted schema.name, .dot, .word p.table.text] ++
        conditionsTokens "WHERE" 1 (p.recognized params) ++ (params.reserved.orderTokens ++
          (params.reserved.pagingTokens ((p.recognized params).length + 1) ++ [.semicolon])) := by
    simp only [selectTokens, clausesTokens, List.append_assoc]
  rw [hhead, Token.compared_append hrest, ← Token.compared_conditionsTokens "WHERE" 1]
  simp [Token.compared, Token.conditionsTokens_ne_operator]

/-! ### One predicate to a column -/

namespace Profile

variable {p : Profile} {params : Params}

theorem isSome_kindOf?_iff {name : String} : (p.kindOf? name).isSome ↔ name ∈ p.parameters := by
  simp [kindOf?, column?, parameters]

theorem map_fst_recognized (p : Profile) (params : Params) :
    (p.recognized params).map Prod.fst =
      (params.pairs.map Prod.fst).filter fun key => (p.kindOf? key).isSome := by
  unfold recognized
  induction params.pairs with
  | nil => rfl
  | cons pair rest ih =>
    cases hkind : p.kindOf? pair.1 <;> simp [hkind, ih]

theorem mem_map_fst_recognized {name : String} :
    name ∈ (p.recognized params).map Prod.fst ↔
      name ∈ params.pairs.map Prod.fst ∧ name ∈ p.parameters := by
  rw [map_fst_recognized, List.mem_filter, isSome_kindOf?_iff]

/-- No more pairs are recognized than there are columns, since keys are distinct. -/
theorem length_recognized_le (p : Profile) (params : Params) :
    (p.recognized params).length ≤ p.columns.length := by
  have hnodup : ((p.recognized params).map Prod.fst).Nodup := by
    rw [map_fst_recognized]
    exact params.distinct.filter _
  have hsubset : (p.recognized params).map Prod.fst ⊆ p.parameters := fun _ hname =>
    (mem_map_fst_recognized.mp hname).2
  have hle := (List.subperm_of_subset hnodup hsubset).length_le
  simpa [parameters] using hle

theorem paramCount_of_select {schema : Schema} {st : Statement}
    (h : (p.select schema params).result = .ok st) :
    st.paramCount = (p.recognized params).length + params.reserved.limit.toList.length +
      params.reserved.offset.toList.length := by
  rw [← st.length_params, params_of_select h]
  simp only [List.length_append, List.length_map]

end Profile

/-- **A query string cannot inflate a selection.** However often a key is repeated in it and in
whatever spellings, the columns that are compared in the text of the selection are the declared ones
among its keys, each of them once, and the values are no more than the columns, a limit and an
offset. -/
theorem select_ofQuery_bounded {p : Profile} {schema : Schema} {query : String} {st : Statement}
    (h : (p.select schema (.ofQuery query)).result = .ok st) :
    (∃ tokens, Token.scan? st.sql.toList = some tokens ∧ (Token.compared tokens).Nodup ∧
      ∀ name, name ∈ Token.compared tokens ↔
        name ∈ (QueryString.pairs (Utf8.encode query)).map Prod.fst ∧ name ∈ p.parameters) ∧
    st.paramCount ≤ p.columns.length + 2 := by
  have htracks : Params.Tracks (.ofQuery query) (QueryString.pairs (Utf8.encode query)) :=
    Params.Tracks.ofList _
  constructor
  · obtain ⟨hname, htext⟩ := Profile.rendered_of_select Bound.placeholder h
    refine ⟨p.selectTokens schema (.ofQuery query), ?_, ?_, fun name => ?_⟩
    · rw [Statement.sql, htext, p.scan?_selectText schema hname]
    · rw [p.compared_selectTokens, p.map_fst_recognized]
      exact (Params.ofQuery query).distinct.filter _
    · rw [p.compared_selectTokens, Profile.mem_map_fst_recognized, htracks.keys,
        List.mem_eraseDups]
  · have hcolumns := p.length_recognized_le (.ofQuery query)
    have hlimit : (Params.ofQuery query).reserved.limit.toList.length ≤ 1 :=
      Option.length_toList_le
    have hoffset : (Params.ofQuery query).reserved.offset.toList.length ≤ 1 :=
      Option.length_toList_le
    rw [Profile.paramCount_of_select h]
    omega

/-- Keys that come again, with letters written as bytes, and an empty limit. -/
theorem select_ofQuery_bounded_of_repeated_keys :
    ∃ st, (Profile.currentNetwork.select ⟨"Pool-Main", by decide, by decide⟩
        (.ofQuery "height=ge5&h%65ight=lt9&limit=&l%69mit=2&%68eight=7&hmm=1")).result = .ok st ∧
      st.sql = "SELECT * FROM \"Pool-Main\".current_network WHERE height = $1 LIMIT $2;" ∧
      (∃ tokens, Token.scan? st.sql.toList = some tokens ∧ (Token.compared tokens).Nodup ∧
        "height" ∈ Token.compared tokens ∧ "type" ∉ Token.compared tokens) ∧
      st.paramCount ≤ 7 := by
  have hquery : Params.ofQuery "height=ge5&h%65ight=lt9&limit=&l%69mit=2&%68eight=7&hmm=1" =
      ⟨[("height", "7"), ("limit", "2"), ("hmm", "1")], by decide⟩ := by decide +kernel
  have hbuilt : (Profile.currentNetwork.select ⟨"Pool-Main", by decide, by decide⟩
      ⟨[("height", "7"), ("limit", "2"), ("hmm", "1")], by decide⟩).result = .ok _ := rfl
  rw [← hquery] at hbuilt
  obtain ⟨⟨tokens, htokens, hnodup, hcompared⟩, hcount⟩ := select_ofQuery_bounded hbuilt
  have hheight : "height" ∈ Token.compared tokens :=
    (hcompared _).mpr ⟨by decide +kernel, by decide⟩
  have htype : "type" ∉ Token.compared tokens := by
    intro hmem
    exact absurd ((hcompared _).mp hmem).1 (by decide +kernel)
  exact ⟨_, hbuilt, by decide +kernel, ⟨tokens, htokens, hnodup, hheight, htype⟩, hcount⟩

/-! ### What a clause is made of -/

/-- A clause that parameters give a selection. -/
inductive SelectClause where
  | conditions
  | order
  | limit
  | offset
deriving DecidableEq

/-- The clauses in the order in which they stand. -/
def SelectClause.all : List SelectClause := [conditions, order, limit, offset]

/-- The clause that a key is reserved for; other keys are for conditions. -/
def SelectClause.ofKey (key : String) : SelectClause :=
  if key = Params.orderKey ∨ key = Params.directionKey then order
  else if key = Params.limitKey then limit
  else if key = Params.offsetKey then offset
  else conditions

namespace Params

/-- The keys that are reserved for ordering and paging. -/
def reservedKeys : List String := [orderKey, directionKey, limitKey, offsetKey]

/-- Those of some keys that are there with a value that is not empty. -/
def said (params : Params) (keys : List String) : List String :=
  keys.filter fun key => (params.nonEmpty? key).isSome

theorem nodup_keys_filter (params : Params) (q : String × String → Bool) :
    ((params.pairs.filter q).map Prod.fst).Nodup :=
  params.distinct.sublist (List.filter_sublist.map _)

/-- The pairs of some keys. -/
def only (params : Params) (keys : List String) : Params :=
  ⟨params.pairs.filter fun pair => keys.contains pair.1, params.nodup_keys_filter _⟩

/-- The pairs of all other keys. -/
def without (params : Params) (keys : List String) : Params :=
  ⟨params.pairs.filter fun pair => !keys.contains pair.1, params.nodup_keys_filter _⟩

end Params

namespace Profile

/-- The keys of the pairs that a clause is made of. -/
def keysOf (p : Profile) (params : Params) : SelectClause → List String
  | .conditions => (p.recognized params).map Prod.fst
  | .order => params.said [Params.orderKey, Params.directionKey]
  | .limit => params.said [Params.limitKey]
  | .offset => params.said [Params.offsetKey]

/-- The tokens of a clause whose first value has number `k`. -/
def clauseTokens (p : Profile) (params : Params) (k : Nat) : SelectClause → List Token
  | .conditions => conditionsTokens "WHERE" k (p.recognized params)
  | .order => params.reserved.orderTokens
  | .limit => Reserved.numberTokens "LIMIT" k params.reserved.limit
  | .offset => Reserved.numberTokens "OFFSET" k params.reserved.offset

/-- The values of a clause. -/
def clauseValues (p : Profile) (params : Params) : SelectClause → List Value
  | .conditions => (p.recognized params).map fun (_, kind, raw) => kind.valueOf raw
  | .order => []
  | .limit => params.reserved.limit.toList.map .parseNumeric
  | .offset => params.reserved.offset.toList.map .parseNumeric

/-- The tokens of clauses one behind the other, with values numbered from `k`. -/
def tokensFrom (p : Profile) (params : Params) (k : Nat) : List SelectClause → List Token
  | [] => []
  | clause :: rest =>
    p.clauseTokens params k clause ++
      p.tokensFrom params (k + (p.clauseValues params clause).length) rest

end Profile

namespace Params

variable {params : Params} {keys : List String} {key : String}

theorem get?_only (params : Params) (keys : List String) (key : String) :
    (params.only keys).get? key = if key ∈ keys then params.get? key else none := by
  unfold only get?
  dsimp only
  induction params.pairs with
  | nil => simp
  | cons pair rest ih =>
    rw [List.filter_cons, Keyed.lookup_entry]
    by_cases hkey : key = pair.1
    · by_cases hmem : pair.1 ∈ keys
      · simp [hkey, hmem, Keyed.lookup_entry]
      · simpa [hkey, hmem] using ih
    · rw [if_neg hkey]
      split
      · rw [Keyed.lookup_entry, if_neg hkey, ih]
      · exact ih

/-- A reserved key that is not said is as good as absent. -/
theorem nonEmpty?_only_said (h : key ∈ keys) :
    (params.only (params.said keys)).nonEmpty? key = params.nonEmpty? key := by
  cases hvalue : params.nonEmpty? key with
  | none =>
    have hunsaid : key ∉ params.said keys := by simp [said, hvalue]
    rw [nonEmpty?, get?_only, if_neg hunsaid, Option.filter_none]
  | some value =>
    have hsaid : key ∈ params.said keys := by simp [said, h, hvalue]
    rw [nonEmpty?, get?_only, if_pos hsaid, ← nonEmpty?, hvalue]

theorem only_without {others : List String} (h : keys.Disjoint others) :
    (params.without keys).only others = params.only others := by
  have hpair : ∀ pair : String × String, (others.contains pair.1 && !keys.contains pair.1) =
      others.contains pair.1 := by
    intro pair
    cases hothers : others.contains pair.1 with
    | false => rfl
    | true =>
      have hkeys : pair.1 ∉ keys := fun hmem => h hmem (List.contains_iff_mem.mp hothers)
      simp [hkeys]
  refine Params.ext ?_
  simp only [only, without, List.filter_filter, hpair]

theorem size_only_add (params : Params) (keys : List String) :
    (params.only keys).size + (params.without keys).size = params.size :=
  (List.length_eq_length_filter_add _).symm

/-- Lists of keys that have none in common share the pairs out among them. -/
theorem sum_size_only_le {keyLists : List (List String)} (h : keyLists.Pairwise List.Disjoint)
    (params : Params) : (keyLists.map fun keys => (params.only keys).size).sum ≤ params.size := by
  induction keyLists generalizing params with
  | nil => exact Nat.zero_le _
  | cons keys rest ih =>
    obtain ⟨hkeys, hrest⟩ := List.pairwise_cons.mp h
    have hsame : rest.map (fun others => ((params.without keys).only others).size) =
        rest.map fun others => (params.only others).size := by
      refine List.map_congr_left fun others hothers => ?_
      rw [only_without (hkeys others hothers)]
    have hsum := ih hrest (params.without keys)
    rw [hsame] at hsum
    have hsplit := params.size_only_add keys
    rw [List.map_cons, List.sum_cons]
    omega

theorem length_nonEmpty?_le (params : Params) (key : String) :
    (params.nonEmpty? key).toList.length ≤ params.size := by
  unfold nonEmpty? get? size
  cases params.pairs with
  | nil => exact le_rfl
  | cons pair rest => exact Option.length_toList_le.trans (Nat.succ_pos _)

end Params

namespace Profile

variable {p : Profile} {params : Params} {schema : Schema} {st : Statement}

theorem selectTokens_eq (p : Profile) (schema : Schema) (params : Params) :
    p.selectTokens schema params =
      [.word "SELECT", .star, .word "FROM", .quoted schema.name, .dot, .word p.table.text] ++
        p.tokensFrom params 1 SelectClause.all ++ [.semicolon] := by
  simp [selectTokens, clausesTokens, SelectClause.all, tokensFrom, clauseTokens, clauseValues,
    Reserved.pagingTokens, Nat.add_comm]

theorem params_eq_flatMap_clauseValues (h : (p.select schema params).result = .ok st) :
    st.params = SelectClause.all.flatMap (p.clauseValues params) := by
  rw [params_of_select h]
  simp [SelectClause.all, clauseValues]

/-- The same parameters are recognized among the pairs of some keys, if no declared key is
missing. -/
theorem recognized_only_of_forall {keys : List String}
    (h : ∀ key ∈ params.pairs.map Prod.fst, key ∈ p.parameters → key ∈ keys) :
    p.recognized (params.only keys) = p.recognized params := by
  unfold Params.only
  rw [recognized, List.filterMap_filter]
  refine List.filterMap_congr fun pair hpair => ?_
  cases hkind : p.kindOf? pair.1 with
  | none => simp [hkind]
  | some kind =>
    have hkey : pair.1 ∈ keys :=
      h pair.1 (List.mem_map_of_mem hpair) (isSome_kindOf?_iff.mp (by simp [hkind]))
    simp [hkey]

theorem recognized_only :
    p.recognized (params.only (p.keysOf params .conditions)) = p.recognized params :=
  recognized_only_of_forall fun _ hkey hdeclared => mem_map_fst_recognized.mpr ⟨hkey, hdeclared⟩

/-- A clause says the same without the pairs of all other keys. -/
theorem clauseTokens_only (clause : SelectClause) (k : Nat) :
    p.clauseTokens (params.only (p.keysOf params clause)) k clause =
      p.clauseTokens params k clause := by
  cases clause with
  | conditions => exact congrArg (conditionsTokens "WHERE" k) recognized_only
  | order =>
    simp [clauseTokens, keysOf, Reserved.orderTokens, Reserved.hasOrdering, Reserved.orderColumn,
      Reserved.isAscending, Params.reserved, Params.nonEmpty?_only_said]
  | limit => simp [clauseTokens, keysOf, Params.reserved, Params.nonEmpty?_only_said]
  | offset => simp [clauseTokens, keysOf, Params.reserved, Params.nonEmpty?_only_said]

theorem clauseValues_only (clause : SelectClause) :
    p.clauseValues (params.only (p.keysOf params clause)) clause =
      p.clauseValues params clause := by
  cases clause with
  | conditions => exact congrArg (List.map _) recognized_only
  | order => rfl
  | limit => simp [clauseValues, keysOf, Params.reserved, Params.nonEmpty?_only_said]
  | offset => simp [clauseValues, keysOf, Params.reserved, Params.nonEmpty?_only_said]

theorem length_clauseValues_le (p : Profile) (params : Params) (clause : SelectClause) :
    (p.clauseValues params clause).length ≤ params.size := by
  cases clause with
  | conditions => exact (List.length_map _).trans_le (List.length_filterMap_le _ params.pairs)
  | order => exact Nat.zero_le _
  | limit => exact (List.length_map _).trans_le (params.length_nonEmpty?_le Params.limitKey)
  | offset => exact (List.length_map _).trans_le (params.length_nonEmpty?_le Params.offsetKey)

/-- A clause that is not of conditions is made of pairs of keys that are reserved for it. -/
theorem reserved_of_mem_keysOf {clause : SelectClause} (hclause : clause ≠ .conditions)
    {key : String} (h : key ∈ p.keysOf params clause) :
    key ∈ Params.reservedKeys ∧ params.nonEmpty? key ≠ none ∧ SelectClause.ofKey key = clause := by
  have hsaid : ∀ keys, key ∈ params.said keys → key ∈ keys ∧ params.nonEmpty? key ≠ none := by
    intro keys hkey
    obtain ⟨hmem, hsome⟩ := List.mem_filter.mp hkey
    exact ⟨hmem, Option.isSome_iff_ne_none.mp hsome⟩
  cases clause with
  | conditions => exact absurd rfl hclause
  | order =>
    obtain ⟨hmem, hne⟩ := hsaid _ h
    simp only [List.mem_cons, List.not_mem_nil, or_false] at hmem
    rcases hmem with rfl | rfl
    · exact ⟨by decide, hne, by decide⟩
    · exact ⟨by decide, hne, by decide⟩
  | limit =>
    obtain ⟨hmem, hne⟩ := hsaid _ h
    obtain rfl := List.mem_singleton.mp hmem
    exact ⟨by decide, hne, by decide⟩
  | offset =>
    obtain ⟨hmem, hne⟩ := hsaid _ h
    obtain rfl := List.mem_singleton.mp hmem
    exact ⟨by decide, hne, by decide⟩

/-- A pair of a condition is in no other clause, unless a column has the reserved name. -/
theorem eq_conditions_of_mem_keysOf
    (hfree : ∀ key ∈ Params.reservedKeys, key ∈ p.parameters → params.nonEmpty? key = none)
    {key : String} {clause : SelectClause} (h : key ∈ p.keysOf params .conditions)
    (hclause : key ∈ p.keysOf params clause) : clause = .conditions := by
  by_contra hne
  obtain ⟨hreserved, hvalue, -⟩ := reserved_of_mem_keysOf hne hclause
  exact hvalue (hfree key hreserved (mem_map_fst_recognized.mp h).2)

/-- No key belongs to two clauses, unless a column has a reserved name. -/
theorem eq_of_mem_keysOf
    (hfree : ∀ key ∈ Params.reservedKeys, key ∈ p.parameters → params.nonEmpty? key = none)
    {key : String} {clause other : SelectClause} (h : key ∈ p.keysOf params clause)
    (hother : key ∈ p.keysOf params other) : clause = other := by
  by_cases hclause : clause = .conditions
  · rw [hclause] at h ⊢
    exact (eq_conditions_of_mem_keysOf hfree h hother).symm
  · have hkey := (reserved_of_mem_keysOf hclause h).2.2
    by_cases hconditions : other = .conditions
    · rw [hconditions] at hother
      exact absurd (eq_conditions_of_mem_keysOf hfree hother h) hclause
    · rw [← hkey, (reserved_of_mem_keysOf hconditions hother).2.2]

end Profile

/-- **Each pair is used once.** In a selection the clauses that the parameters ask for stand one
behind the other, and so do their values. Every clause is made of the pairs of its own keys, as it
says the same without all others. Unless a reserved key that is said is also the name of a column,
no key belongs to two clauses, and so there are no more values than pairs. -/
theorem select_uses_each_pair_once {p : Profile} {schema : Schema} {params : Params}
    {st : Statement}
    (hfree : ∀ key ∈ Params.reservedKeys, key ∈ p.parameters → params.nonEmpty? key = none)
    (h : (p.select schema params).result = .ok st) :
    Token.scan? st.sql.toList = some
      ([.word "SELECT", .star, .word "FROM", .quoted schema.name, .dot, .word p.table.text] ++
        p.tokensFrom params 1 SelectClause.all ++ [.semicolon]) ∧
    st.params = SelectClause.all.flatMap (p.clauseValues params) ∧
    (∀ clause,
      (∀ k, p.clauseTokens (params.only (p.keysOf params clause)) k clause =
        p.clauseTokens params k clause) ∧
      p.clauseValues (params.only (p.keysOf params clause)) clause =
        p.clauseValues params clause) ∧
    (∀ key clause other, key ∈ p.keysOf params clause → key ∈ p.keysOf params other →
      clause = other) ∧
    st.paramCount ≤ params.size := by
  obtain ⟨hname, htext⟩ := Profile.rendered_of_select Bound.placeholder h
  have hvalues := Profile.params_eq_flatMap_clauseValues h
  have hapart : (SelectClause.all.map (p.keysOf params)).Pairwise List.Disjoint := by
    rw [List.pairwise_map]
    have hdistinct : SelectClause.all.Pairwise (· ≠ ·) := by decide
    exact hdistinct.imp fun hne _ hkey hother =>
      hne (Profile.eq_of_mem_keysOf hfree hkey hother)
  refine ⟨?_, hvalues, fun clause => ⟨p.clauseTokens_only clause, p.clauseValues_only clause⟩,
    fun key clause other => Profile.eq_of_mem_keysOf hfree, ?_⟩
  · rw [Statement.sql, htext, p.scan?_selectText schema hname, p.selectTokens_eq]
  · calc st.paramCount
        = (SelectClause.all.map fun clause => (p.clauseValues params clause).length).sum := by
          rw [← st.length_params, hvalues, List.length_flatMap]
      _ ≤ (SelectClause.all.map fun clause => (params.only (p.keysOf params clause)).size).sum := by
          refine List.sum_le_sum fun clause _ => ?_
          rw [← p.clauseValues_only clause]
          exact p.length_clauseValues_le _ clause
      _ ≤ params.size := by
          have hshares := Params.sum_size_only_le hapart params
          rwa [List.map_map] at hshares

/-- A reserved key in the place of a column, a word in the place of a number, and an empty value. -/
theorem select_uses_each_pair_once_of_reserved_pairs :
    ∃ st, (Profile.currentNetwork.select ⟨"Pool-Main", by decide, by decide⟩
        ⟨[("offset", "limit"), ("height", "ge5"), ("direction", ""), ("order", "limit"),
          ("limit", "10")], by decide⟩).result = .ok st ∧
      Token.scan? st.sql.toList = some [.word "SELECT", .star, .word "FROM", .quoted "Pool-Main",
        .dot, .word "current_network", .word "WHERE", .word "height", .operator ">=", .param 1,
        .word "ORDER", .word "BY", .word "limit", .word "DESC", .word "LIMIT", .param 2,
        .word "OFFSET", .param 3, .semicolon] ∧
      st.params = [.parseNumeric "5", .parseNumeric "10", .parseNumeric "limit"] ∧
      st.paramCount ≤ 5 := by
  have hbuilt : (Profile.currentNetwork.select ⟨"Pool-Main", by decide, by decide⟩
      ⟨[("offset", "limit"), ("height", "ge5"), ("direction", ""), ("order", "limit"),
        ("limit", "10")], by decide⟩).result = .ok _ := rfl
  obtain ⟨htokens, hvalues, -, -, hcount⟩ := select_uses_each_pair_once (by decide) hbuilt
  have hnumber : CompareOp.behindLetters "ge5" = "5" := by decide +kernel
  refine ⟨_, hbuilt, ?_, ?_, hcount⟩
  · rw [htokens]
    decide +kernel
  · rw [hvalues, ← hnumber]
    rfl

/-- A column may be called `limit`. The one pair of that key is then a condition and a limit. -/
theorem select_uses_limit_twice :
    ∃ p st, (Draft.ofCalls "t" [.column "limit" .numeric, .uniqueConstraint "u",
        .onConflict (.doNothing "limit")]).build = .ok p ∧
      (p.select ⟨"s", by decide, by decide⟩ (.ofQuery "limit=5")).result = .ok st ∧
      st.sql = "SELECT * FROM \"s\".t WHERE limit = $1 LIMIT $2;" ∧
      st.paramCount = 2 ∧ (Params.ofQuery "limit=5").size = 1 := by
  have hprofile : (Draft.ofCalls "t" [.column "limit" .numeric, .uniqueConstraint "u",
      .onConflict (.doNothing "limit")]).build = .ok ⟨⟨"t", by decide⟩,
        [⟨⟨"limit", by decide⟩, .numeric⟩], [], ⟨"u", by decide⟩, .doNothing ⟨"limit", by decide⟩,
        none, none⟩ := rfl
  have hquery : Params.ofQuery "limit=5" = ⟨[("limit", "5")], by decide⟩ := by decide +kernel
  rw [hquery]
  exact ⟨_, _, hprofile, rfl, by decide +kernel, rfl, rfl⟩

end TenantSql
