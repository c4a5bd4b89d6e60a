import TenantSql.Proofs.ParamsHistory
/-!
# TenantSql.Proofs.QueryJoin

Query strings compose: reading two of them joined by `&` gives what merging the two readings
gives.

The pairs of the joined string are those of the first and then those of the second, so the
parameters are one more run of insertions on top of the first. What is left is that this run
may take the second reading instead of its pairs. Parameters hold each key once, at its first
place and with its last value, and inserting them does what inserting the pairs in full does,
on top of any parameters (`extend_pairs_ofList`): a key that is there already keeps its place
(`put_comm_of_mem`), so its value may as well be put when it first comes.
-/

namespace TenantSql

namespace Params

/-! ### Insertions one after the other -/

theorem mem_keys_put {key k value : String} {pairs : List (String × String)} :
    k ∈ (put key value pairs).map Prod.fst ↔ k = key ∨ k ∈ pairs.map Prod.fst := by
  rw [keys_put]
  split
  · rename_i hold
    exact ⟨.inr, fun h => h.elim (fun heq => heq ▸ hold) id⟩
  · rw [List.mem_append, List.mem_singleton, or_comm]

/-- The last value of a key replaces the one before. -/
theorem put_put (key first last : String) (pairs : List (String × String)) :
    put key last (put key first pairs) = put key last pairs := by
  induction pairs with
  | nil => simp [put]
  | cons p rest ih =>
    by_cases hp : p.1 = key
    · simp [put, hp]
    · simp [put, hp, ih]

/-- A key that is there already does not mind when another one is put. -/
theorem put_comm_of_mem {key k : String} (hne : k ≠ key) (value w : String)
    {pairs : List (String × String)} (h : key ∈ pairs.map Prod.fst) :
    put k w (put key value pairs) = put key value (put k w pairs) := by
  induction pairs with
  | nil => cases h
  | cons p rest ih =>
    by_cases hp : p.1 = key
    · have hk : p.1 ≠ k := fun heq => hne (heq.symm.trans hp)
      simp [put, hp, Ne.symm hne]
    · have hrest : key ∈ rest.map Prod.fst :=
        (List.mem_cons.mp h).resolve_left (Ne.symm hp)
      by_cases hk : p.1 = k
      · simp [put, hk, hne]
      · simp [put, hp, hk, ih hrest]

theorem extend_append (ps : Params) (pairs more : List (String × String)) :
    ps.extend (pairs ++ more) = (ps.extend pairs).extend more :=
  List.foldl_append

theorem extend_append_singleton (ps : Params) (pairs : List (String × String))
    (p : String × String) : ps.extend (pairs ++ [p]) = (ps.extend pairs).insert p.1 p.2 :=
  extend_append ps pairs [p]

theorem ofList_append (pairs more : List (String × String)) :
    ofList (pairs ++ more) = (ofList pairs).extend more :=
  extend_append .empty pairs more

/-- A key that is there already may be put before or behind pairs of other keys. -/
theorem insert_extend_of_not_mem {key : String} (value : String) {pairs : List (String × String)}
    (hpairs : key ∉ pairs.map Prod.fst) {ps : Params} (hps : key ∈ ps.pairs.map Prod.fst) :
    (ps.extend pairs).insert key value = (ps.insert key value).extend pairs := by
  induction pairs generalizing ps with
  | nil => rfl
  | cons p rest ih =>
    obtain ⟨hne, hrest⟩ := not_or.mp (mt List.mem_cons.mpr hpairs)
    have hcomm : (ps.insert p.1 p.2).insert key value = (ps.insert key value).insert p.1 p.2 :=
      Params.ext (put_comm_of_mem (Ne.symm hne) value p.2 hps).symm
    have hkept : key ∈ (ps.insert p.1 p.2).pairs.map Prod.fst := mem_keys_put.mpr (.inr hps)
    have hstep := ih hrest hkept
    rw [hcomm] at hstep
    exact hstep

/-- Putting a value among pairs of distinct keys and inserting them all is inserting the pairs and
then the value. -/
theorem extend_put (ps : Params) (key value : String) {pairs : List (String × String)}
    (h : (pairs.map Prod.fst).Nodup) :
    ps.extend (put key value pairs) = (ps.extend pairs).insert key value := by
  induction pairs generalizing ps with
  | nil => rfl
  | cons p rest ih =>
    obtain ⟨hfresh, hrest⟩ := List.nodup_cons.mp h
    unfold put
    split
    · rename_i hp
      subst hp
      have hthere : p.1 ∈ (ps.insert p.1 p.2).pairs.map Prod.fst := mem_keys_put.mpr (.inl rfl)
      have hmoved := insert_extend_of_not_mem value hfresh hthere
      have hlast : (ps.insert p.1 p.2).insert p.1 value = ps.insert p.1 value :=
        Params.ext (put_put p.1 p.2 value ps.pairs)
      rw [hlast] at hmoved
      exact hmoved.symm
    · exact ih (ps.insert p.1 p.2) hrest

/-- Inserting the parameters of pairs does what inserting the pairs does, by induction from the last
pair: the parameters of all others hold each key once. -/
theorem extend_pairs_ofList (ps : Params) (pairs : List (String × String)) :
    ps.extend (ofList pairs).pairs = ps.extend pairs := by
  induction pairs using List.reverseRecOn with
  | nil => rfl
  | append_singleton pairs p ih =>
    have hput : (ofList (pairs ++ [p])).pairs = put p.1 p.2 (ofList pairs).pairs := by
      rw [ofList, extend_append_singleton, ← ofList, insert]
    rw [hput, extend_put ps p.1 p.2 (ofList pairs).distinct, ih, extend_append_singleton]

/-! ### What merged parameters hold -/

/-- New keys come behind the old ones, in the order in which they first come. -/
theorem keys_extend (ps : Params) (pairs : List (String × String)) :
    (ps.extend pairs).pairs.map Prod.fst = ps.pairs.map Prod.fst ++
      ((ofList pairs).pairs.map Prod.fst).filter (· ∉ ps.pairs.map Prod.fst) := by
  induction pairs using List.reverseRecOn with
  | nil => exact (List.append_nil _).symm
  | append_singleton pairs p ih =>
    rw [extend_append_singleton, ofList, extend_append_singleton, ← ofList, insert, insert,
      keys_put, keys_put, ih]
    by_cases hold : p.1 ∈ ps.pairs.map Prod.fst
    · rw [if_pos (List.mem_append_left _ hold)]
      split
      · rfl
      · simp [List.filter_append, hold]
    · by_cases hgiven : p.1 ∈ (ofList pairs).pairs.map Prod.fst
      · rw [if_pos hgiven, if_pos]
        exact List.mem_append_right _ (List.mem_filter.mpr ⟨hgiven, decide_eq_true hold⟩)
      · rw [if_neg hgiven, if_neg]
        · simp [List.filter_append, hold]
        · exact fun hmem => (List.mem_append.mp hmem).elim hold
            fun hnew => hgiven (List.mem_of_mem_filter hnew)

/-- What pairs say about a key goes before what was there. -/
theorem get?_extend (ps : Params) (pairs : List (String × String)) (key : String) :
    (ps.extend pairs).get? key = ((ofList pairs).get? key).or (ps.get? key) := by
  induction pairs using List.reverseRecOn with
  | nil => rfl
  | append_singleton pairs p ih =>
    rw [extend_append_singleton, ofList, extend_append_singleton, ← ofList, get?, insert,
      lookup_put, get?, insert, lookup_put]
    split
    · rfl
    · exact ih

end Params

/-! ### Query strings -/

/-- A separator between two query strings is one between their pairs, whatever the strings are. -/
theorem QueryString.pairs_encode_join (first second : String) :
    pairs (Utf8.encode (first ++ "&" ++ second)) =
      pairs (Utf8.encode first) ++ pairs (Utf8.encode second) := by
  have hbytes : Utf8.encode (first ++ "&" ++ second) =
      Utf8.encode first ++ 0x26 :: Utf8.encode second := by
    rw [Utf8.encode, Utf8.encode, Utf8.encode, String.toList_append, String.toList_append,
      List.append_assoc]
    exact List.flatMap_append
  rw [hbytes, pairs_append]

/-- **Query strings compose.** Reading two query strings joined by `&` gives what reading each and
merging the second reading into the first gives, and so it does not matter that each reading has
dropped repetitions of its own. The keys of the first come first, and then those that only the
second has. A key has the value that the second gives it, or else the one of the first. -/
theorem Params.ofQuery_join (first second : String) :
    ofQuery (first ++ "&" ++ second) = (ofQuery first).extend (ofQuery second).pairs ∧
    (ofQuery (first ++ "&" ++ second)).pairs.map Prod.fst =
      (ofQuery first).pairs.map Prod.fst ++
        ((ofQuery second).pairs.map Prod.fst).filter (· ∉ (ofQuery first).pairs.map Prod.fst) ∧
    ∀ key, (ofQuery (first ++ "&" ++ second)).get? key =
      ((ofQuery second).get? key).or ((ofQuery first).get? key) := by
  have hmerged : ofQuery (first ++ "&" ++ second) =
      (ofQuery first).extend (QueryString.pairs (Utf8.encode second)) := by
    rw [ofQuery, QueryString.pairs_encode_join, ofList_append]
    rfl
  refine ⟨?_, ?_, fun key => ?_⟩
  · rw [hmerged]
    exact (extend_pairs_ofList _ _).symm
  · rw [hmerged, keys_extend]
    rfl
  · rw [hmerged, get?_extend]
    rfl

/-- Empty pieces at the joint, a percent sign without digits, and a byte that is no UTF-8. -/
example : Params.ofQuery ("a=1&b=%zz&" ++ "&" ++ "&b=%ff&c&a=2") =
    ⟨[("a", "2"), ("b", "\uFFFD"), ("c", "")], by decide⟩ := by decide +kernel

end TenantSql
