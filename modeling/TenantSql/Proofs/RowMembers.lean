import TenantSql.Row
/-!
# TenantSql.Proofs.RowMembers

The row of a JSON object has, under each key, the scalar of the last member with that
key (`Row.get?_of_ofJson`).

Collected entries have their keys in order (`Keyed.ordered`), so a key stands once among
them, and the second collection, that of the scalars, has nothing left to drop.
-/

namespace TenantSql

namespace Keyed

variable {α : Type}

/-! ### Looking up -/

/-- Of collected entries the last one with a key is found under it. -/
theorem get?_ofList (pairs : List (String × α)) (k : String) :
    (ofList pairs).get? k = pairs.reverse.lookup k := by
  have hfold : ∀ m : Keyed α, (pairs.foldl (fun m e => m.insert e.1 e.2) m).get? k =
      (pairs.reverse.lookup k).or (m.get? k) := by
    induction pairs with
    | nil => exact fun m => rfl
    | cons p rest ih =>
      intro m
      rw [List.foldl_cons, ih, get?_insert, List.reverse_cons, List.lookup_append, lookup_entry]
      cases rest.reverse.lookup k with
      | some value => rfl
      | none => by_cases hk : k = p.1 <;> simp [hk]
  rw [ofList, hfold]
  exact Option.or_none

/-- Where keys are in order it does not matter which end is searched first. -/
theorem lookup_reverse {es : List (String × α)} (h : es.Pairwise fun a b => a.1 < b.1)
    (k : String) : es.reverse.lookup k = es.lookup k := by
  induction es with
  | nil => rfl
  | cons e rest ih =>
    obtain ⟨hfirst, hrest⟩ := List.pairwise_cons.mp h
    rw [List.reverse_cons, List.lookup_append, ih hrest, lookup_entry, lookup_entry]
    by_cases hk : k = e.1
    · have hnone : rest.lookup k = none := by
        rw [List.lookup_eq_none_iff]
        intro p hp
        rw [hk]
        exact bne_iff_ne.mpr fun heq => String.lt_irrefl p.1 (heq ▸ hfirst p hp)
      rw [hnone, if_pos hk, if_pos hk, Option.none_or]
    · rw [if_neg hk, if_neg hk]
      exact Option.or_none

end Keyed

namespace Row

/-! ### Scalars -/

/-- Scalars stand under the keys of their members. -/
theorem map_fst_scalars {members : List (String × Json)} {values : List (String × Value)}
    (h : scalars members = .ok values) : values.map Prod.fst = members.map Prod.fst := by
  induction members generalizing values with
  | nil =>
    cases h
    rfl
  | cons member rest ih =>
    unfold scalars at h
    split at h
    · cases h
    split at h
    · cases h
    · rename_i hrest
      cases h
      rw [List.map_cons, List.map_cons, ih hrest]

/-- The scalar under a key is that of the member under the key. -/
theorem lookup_scalars {members : List (String × Json)} {values : List (String × Value)}
    (h : scalars members = .ok values) (k : String) :
    values.lookup k = (members.lookup k).bind fun json => (Value.ofJson json).toOption := by
  induction members generalizing values with
  | nil =>
    cases h
    rfl
  | cons member rest ih =>
    unfold scalars at h
    split at h
    · cases h
    rename_i value hvalue
    split at h
    · cases h
    · rename_i hrest
      cases h
      rw [Keyed.lookup_entry, Keyed.lookup_entry, ih hrest]
      by_cases hk : k = member.1
      · rw [if_pos hk, if_pos hk, Option.bind_some, hvalue]
        rfl
      · rw [if_neg hk, if_neg hk]

/-- A row has the scalar of the last member with a key. -/
theorem get?_of_ofJson {members : List (String × Json)} {row : Row}
    (h : ofJson (.object members) = .ok row) (key : String) :
    row.get? key =
      (members.reverse.lookup key).bind fun json => (Value.ofJson json).toOption := by
  unfold ofJson at h
  dsimp only at h
  split at h
  · rename_i values hvalues
    cases h
    -- Scalars have the keys of their members, so they are in order too.
    have hsorted : values.Pairwise fun a b => a.1 < b.1 := by
      rw [← List.pairwise_map, map_fst_scalars hvalues, List.pairwise_map]
      exact (Keyed.ofList members).ordered
    have hmember : (Keyed.ofList members).entries.lookup key = members.reverse.lookup key :=
      Keyed.get?_ofList members key
    rw [get?, ofList, Keyed.get?_ofList, Keyed.lookup_reverse hsorted, lookup_scalars hvalues,
      hmember]
  · cases h

end Row

end TenantSql
