import Mathlib.Logic.Relation
import TenantSql.Proofs.InsertLayout
import TenantSql.Proofs.NumericText
import TenantSql.Proofs.QueryJoin
import TenantSql.Proofs.SelectClauses
/-!
# TenantSql.Proofs.QueryEdits

What else is asked for does not disturb the filters.

A selection is made of two things: the pairs of declared columns, in their order, and what
the reserved keys say (`Profile.select_eq_of_only_eq`). Parameters hold among some keys what
inserting the pairs of these keys alone gives (`Params.only_extend`), so of a query string the
order of pairs matters only within a group: all declared keys are one, and each reserved key
is one of its own (`Profile.keyGroups`).

An edit of a query string leaves the pairs of every group as they are
(`Profile.Edit.pairsOf_eq`), and so does any number of edits, by induction on how they lead
from one query string to another (`Profile.select_eq_of_edits`).
-/

namespace TenantSql

/-! ### The pairs of some keys -/

namespace Params

/-- The pairs of some keys, in their order. -/
def pairsOf (keys : List String) (pairs : List (String × String)) : List (String × String) :=
  pairs.filter fun pair => keys.contains pair.1

variable {keys : List String}

theorem pairsOf_append (keys : List String) (pairs more : List (String × String)) :
    pairsOf keys (pairs ++ more) = pairsOf keys pairs ++ pairsOf keys more :=
  List.filter_append ..

theorem pairsOf_eq_nil {pairs : List (String × String)}
    (h : keys.Disjoint (pairs.map Prod.fst)) : pairsOf keys pairs = [] := by
  rw [pairsOf, List.filter_eq_nil_iff]
  intro pair hpair hkey
  exact h (List.contains_iff_mem.mp hkey) (List.mem_map_of_mem hpair)

/-- A key that is put shows among some keys exactly if it is one of them. -/
theorem pairsOf_put (keys : List String) (key value : String) (pairs : List (String × String)) :
    pairsOf keys (put key value pairs) =
      if key ∈ keys then put key value (pairsOf keys pairs) else pairsOf keys pairs := by
  unfold pairsOf
  induction pairs with
  | nil => by_cases hkey : key ∈ keys <;> simp [put, hkey]
  | cons pair rest ih =>
    by_cases hpair : pair.1 = key
    · subst hpair
      by_cases hkey : pair.1 ∈ keys <;> simp [put, hkey]
    · by_cases hkey : key ∈ keys <;> by_cases hmem : pair.1 ∈ keys <;>
        simp_all [put]

theorem only_insert (params : Params) (keys : List String) (key value : String) :
    (params.insert key value).only keys =
      if key ∈ keys then (params.only keys).insert key value else params.only keys := by
  have hput := pairsOf_put keys key value params.pairs
  by_cases hkey : key ∈ keys
  · rw [if_pos hkey] at hput ⊢
    exact Params.ext hput
  · rw [if_neg hkey] at hput ⊢
    exact Params.ext hput

/-- Among some keys only the pairs of these keys show, whatever other pairs are inserted in
between. -/
theorem only_extend (params : Params) (keys : List String) (pairs : List (String × String)) :
    (params.extend pairs).only keys = (params.only keys).extend (pairsOf keys pairs) := by
  induction pairs generalizing params with
  | nil => rfl
  | cons pair rest ih =>
    have hstep : params.extend (pair :: rest) = (params.insert pair.1 pair.2).extend rest := rfl
    rw [hstep, ih, only_insert]
    by_cases hkey : pair.1 ∈ keys
    · simp [pairsOf, hkey, extend]
    · simp [pairsOf, hkey]

theorem only_ofList (keys : List String) (pairs : List (String × String)) :
    (ofList pairs).only keys = ofList (pairsOf keys pairs) :=
  only_extend .empty keys pairs

/-- What is said of a reserved key is in its own pairs. -/
theorem nonEmpty?_only (params : Params) {keys : List String} {key : String} (h : key ∈ keys) :
    (params.only keys).nonEmpty? key = params.nonEmpty? key := by
  rw [nonEmpty?, get?_only, if_pos h, nonEmpty?]

end Params

/-! ### What a selection is made of -/

namespace Profile

variable {p : Profile}

theorem filters_only (p : Profile) (params : Params) :
    p.filters (params.only p.parameters) = p.filters params := by
  rw [filters_eq_map_recognized, filters_eq_map_recognized,
    recognized_only_of_forall fun _ _ hdeclared => hdeclared]

/-- A selection is made of the pairs of declared columns and of what the reserved keys say. -/
theorem select_eq_of_only_eq (schema : Schema) {params params' : Params}
    (hdeclared : params.only p.parameters = params'.only p.parameters)
    (hreserved : params.reserved = params'.reserved) :
    p.select schema params = p.select schema params' := by
  have hfilters : p.filters params = p.filters params' := by
    rw [← p.filters_only params, hdeclared, p.filters_only]
  unfold select selectStatement Statement.pushFilters
  rw [hfilters, hreserved]

/-- Whatever the parameters are, the statement of a selection compares as equal to itself, as no
value of it is no number. -/
theorem beq_self_of_select {schema : Schema} {params : Params} {st : Statement}
    (h : (p.select schema params).result = .ok st) : (st == st) = true :=
  Statement.beq_self fun _ hx => BinaryFloat.isNaN_of_isFinite (isDefinite_of_mem_params h hx)

/-! ### Edits that do not show -/

/-- The keys whose pairs must stay in order among themselves: all declared ones, and each reserved
one by itself. -/
def keyGroups (p : Profile) : List (List String) :=
  p.parameters :: Params.reservedKeys.map fun key => [key]

/-- Lists of pairs that agree on the pairs of each group ask for the same. -/
theorem select_eq_of_pairsOf_eq (schema : Schema) {pairs pairs' : List (String × String)}
    (h : ∀ keys ∈ p.keyGroups, Params.pairsOf keys pairs = Params.pairsOf keys pairs') :
    p.select schema (.ofList pairs) = p.select schema (.ofList pairs') := by
  have honly : ∀ keys ∈ p.keyGroups, (Params.ofList pairs).only keys =
      (Params.ofList pairs').only keys := fun keys hkeys => by
    rw [Params.only_ofList, Params.only_ofList, h keys hkeys]
  have hsaid : ∀ key ∈ Params.reservedKeys, (Params.ofList pairs).nonEmpty? key =
      (Params.ofList pairs').nonEmpty? key := fun key hkey => by
    have hgroup : [key] ∈ p.keyGroups := List.mem_cons_of_mem _ (List.mem_map_of_mem hkey)
    rw [← Params.nonEmpty?_only _ (List.mem_singleton_self key), honly _ hgroup,
      Params.nonEmpty?_only _ (List.mem_singleton_self key)]
  refine select_eq_of_only_eq schema (honly _ List.mem_cons_self) ?_
  unfold Params.reserved
  rw [hsaid _ (by decide), hsaid _ (by decide), hsaid _ (by decide), hsaid _ (by decide)]

end Profile

namespace QueryString

/-- The keys of a query string, each as often as it comes. -/
def keys (query : String) : List String := (pairs (Utf8.encode query)).map Prod.fst

/-- The pairs that pieces of a query string give. -/
def piecesPairs (pieces : List String) : List (String × String) :=
  pieces.flatMap fun piece => pairs (Utf8.encode piece)

theorem pairs_encode_intercalate (pieces : List String) :
    pairs (Utf8.encode ("&".intercalate pieces)) = piecesPairs pieces := by
  induction pieces with
  | nil => rfl
  | cons piece rest ih =>
    cases rest with
    | nil => exact (List.append_nil _).symm
    | cons next more =>
      rw [String.intercalate_cons_cons, pairs_encode_join, ih]
      rfl

theorem piecesPairs_append (pieces more : List String) :
    piecesPairs (pieces ++ more) = piecesPairs pieces ++ piecesPairs more :=
  List.flatMap_append

theorem pairsOf_piecesPairs_eq_nil {keys : List String} {pieces : List String}
    (h : ∀ piece ∈ pieces, keys.Disjoint (QueryString.keys piece)) :
    Params.pairsOf keys (piecesPairs pieces) = [] := by
  refine Params.pairsOf_eq_nil fun key hkey hmem => ?_
  obtain ⟨pair, hpair, rfl⟩ := List.mem_map.mp hmem
  obtain ⟨piece, hpiece, hpair⟩ := List.mem_flatMap.mp hpair
  exact h piece hpiece hkey (List.mem_map_of_mem hpair)

end QueryString

namespace Profile

variable {p : Profile}

/-- An edit of the pieces of a query string. A piece comes in whose keys are neither declared nor
reserved; or a piece whose keys are not declared goes behind pieces that have none of them. -/
inductive Edit (p : Profile) : List String → List String → Prop
  | insert (before : List String) (piece : String) (after : List String)
      (hkeys : ∀ key ∈ QueryString.keys piece, key ∉ p.parameters ∧ key ∉ Params.reservedKeys) :
      Edit p (before ++ after) (before ++ [piece] ++ after)
  | move (before : List String) (piece : String) (between after : List String)
      (hkeys : ∀ key ∈ QueryString.keys piece, key ∉ p.parameters)
      (hbetween : ∀ other ∈ between, ∀ key ∈ QueryString.keys piece, key ∉ QueryString.keys other) :
      Edit p (before ++ [piece] ++ between ++ after) (before ++ between ++ [piece] ++ after)

/-- A piece without declared keys has no pair of a group, unless the group is that of a reserved key
it has. -/
theorem disjoint_or_of_mem_keyGroups {keys : List String} (hgroup : keys ∈ p.keyGroups)
    {piece : String} (hkeys : ∀ key ∈ QueryString.keys piece, key ∉ p.parameters) :
    keys.Disjoint (QueryString.keys piece) ∨
      ∃ key ∈ Params.reservedKeys, keys = [key] ∧ key ∈ QueryString.keys piece := by
  rcases List.mem_cons.mp hgroup with rfl | hreserved
  · exact .inl fun key hkey hmem => hkeys key hmem hkey
  · obtain ⟨key, hkey, rfl⟩ := List.mem_map.mp hreserved
    by_cases hmem : key ∈ QueryString.keys piece
    · exact .inr ⟨key, hkey, rfl, hmem⟩
    · exact .inl (List.singleton_disjoint.mpr hmem)

/-- An edit leaves the pairs of every group as they are. A piece that goes behind others has no pair
of the group, or these have none. -/
theorem Edit.pairsOf_eq {pieces pieces' : List String} (h : p.Edit pieces pieces')
    {keys : List String} (hgroup : keys ∈ p.keyGroups) :
    Params.pairsOf keys (QueryString.piecesPairs pieces) =
      Params.pairsOf keys (QueryString.piecesPairs pieces') := by
  cases h with
  | insert before piece after hkeys =>
    have hpiece : Params.pairsOf keys (QueryString.piecesPairs [piece]) = [] := by
      refine QueryString.pairsOf_piecesPairs_eq_nil (List.forall_mem_singleton.mpr ?_)
      have hundeclared : ∀ key ∈ QueryString.keys piece, key ∉ p.parameters :=
        fun key hkey => (hkeys key hkey).1
      rcases disjoint_or_of_mem_keyGroups hgroup hundeclared with hpiece | ⟨key, hreserved, -, hmem⟩
      · exact hpiece
      · exact absurd hreserved (hkeys key hmem).2
    simp only [QueryString.piecesPairs_append, Params.pairsOf_append, hpiece, List.append_nil]
  | move before piece between after hkeys hbetween =>
    simp only [QueryString.piecesPairs_append, Params.pairsOf_append]
    rcases disjoint_or_of_mem_keyGroups hgroup hkeys with hpiece | ⟨key, -, rfl, hmem⟩
    · have hnothing : Params.pairsOf keys (QueryString.piecesPairs [piece]) = [] :=
        QueryString.pairsOf_piecesPairs_eq_nil (List.forall_mem_singleton.mpr hpiece)
      simp only [hnothing, List.append_nil]
    · have hnothing : Params.pairsOf [key] (QueryString.piecesPairs between) = [] :=
        QueryString.pairsOf_piecesPairs_eq_nil fun other hother =>
          List.singleton_disjoint.mpr (hbetween other hother key hmem)
      simp only [hnothing, List.append_nil]

/-- Whatever edits lead from one query string to another, forth and back, both select the same. -/
theorem select_eq_of_edits (schema : Schema) {pieces pieces' : List String}
    (h : Relation.EqvGen p.Edit pieces pieces') :
    p.select schema (.ofQuery ("&".intercalate pieces)) =
      p.select schema (.ofQuery ("&".intercalate pieces')) := by
  have hsame : ∀ keys ∈ p.keyGroups, Params.pairsOf keys (QueryString.piecesPairs pieces) =
      Params.pairsOf keys (QueryString.piecesPairs pieces') := by
    intro keys hgroup
    induction h with
    | rel _ _ hedit => exact hedit.pairsOf_eq hgroup
    | refl => rfl
    | symm _ _ _ ih => exact ih.symm
    | trans _ _ _ _ _ ih ih' => exact ih.trans ih'
  rw [Params.ofQuery, Params.ofQuery, QueryString.pairs_encode_intercalate,
    QueryString.pairs_encode_intercalate]
  exact select_eq_of_pairsOf_eq schema hsame

end Profile

/-- **What else is asked for does not disturb the filters.** If parameters have the same pairs of
declared columns, in the same order, and their reserved keys say the same, then they select the
same: the same statement, which also compares as equal, or the same error. So edits of the pieces of
a query string do not show, in any number, forth and back: pieces whose keys are neither declared
nor reserved come in anywhere, and pieces whose keys are not declared change places with pieces that
have none of these keys. -/
theorem select_ignores_rest (p : Profile) (schema : Schema) :
    (∀ params params' : Params, params.only p.parameters = params'.only p.parameters →
      params.reserved = params'.reserved →
      p.select schema params = p.select schema params') ∧
    (∀ pieces pieces', Relation.EqvGen p.Edit pieces pieces' →
      p.select schema (.ofQuery ("&".intercalate pieces)) =
        p.select schema (.ofQuery ("&".intercalate pieces'))) ∧
    ∀ params st, (p.select schema params).result = .ok st → (st == st) = true :=
  ⟨fun _ _ => Profile.select_eq_of_only_eq schema, fun _ _ => Profile.select_eq_of_edits schema,
    fun _ _ => Profile.beq_self_of_select⟩

/-- A piece that nobody knows comes in at the front, and the limit goes behind two spellings of one
column. -/
theorem select_ignores_rest_of_edited_query :
    let schema : Schema := ⟨"Pool-Main", by decide, by decide⟩
    Profile.currentNetwork.select schema
        (.ofQuery "limit=5&height=ge5&%68eight=ge7") =
      Profile.currentNetwork.select schema
        (.ofQuery "hmm=%ff&height=ge5&%68eight=ge7&limit=5") ∧
    Profile.currentNetwork.select schema
        ⟨[("limit", "5"), ("height", "ge7"), ("hmm", "")], by decide⟩ =
      Profile.currentNetwork.select schema
        ⟨[("height", "ge7"), ("limit", "5"), ("order", "")], by decide⟩ ∧
    ∃ st, (Profile.currentNetwork.select schema
        ⟨[("height", "ge7"), ("limit", "5")], by decide⟩).result = .ok st ∧
      st.paramCount = 2 ∧ (st == st) = true := by
  intro schema
  obtain ⟨honly, hedits, hself⟩ := select_ignores_rest Profile.currentNetwork schema
  have hbuilt : (Profile.currentNetwork.select schema
      ⟨[("height", "ge7"), ("limit", "5")], by decide⟩).result = .ok _ := rfl
  refine ⟨?_, honly _ _ (by decide +kernel) (by decide +kernel), _, hbuilt, rfl, hself _ _ hbuilt⟩
  have hinsert := Profile.Edit.insert (p := .currentNetwork) [] "hmm=%ff"
    ["limit=5", "height=ge5", "%68eight=ge7"] (by decide +kernel)
  have hmove := Profile.Edit.move (p := .currentNetwork) ["hmm=%ff"] "limit=5"
    ["height=ge5", "%68eight=ge7"] [] (by decide +kernel) (by decide +kernel)
  have hbefore : "&".intercalate ["limit=5", "height=ge5", "%68eight=ge7"] =
      "limit=5&height=ge5&%68eight=ge7" := by decide +kernel
  have hafter : "&".intercalate ["hmm=%ff", "height=ge5", "%68eight=ge7", "limit=5"] =
      "hmm=%ff&height=ge5&%68eight=ge7&limit=5" := by decide +kernel
  have hsame := hedits _ _ (.trans _ _ _ (.rel _ _ hinsert) (.rel _ _ hmove))
  rw [← hbefore, ← hafter]
  exact hsame

end TenantSql
