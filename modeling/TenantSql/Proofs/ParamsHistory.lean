import Mathlib.Data.Finset.Dedup
import Mathlib.Data.Finset.Card
import Mathlib.Data.List.Nodup
import TenantSql.Json.Document
import TenantSql.Keyed
import TenantSql.Params
/-!
# TenantSql.Proofs.ParamsHistory

What parameters hold after any calls on them. `Params.given` collects the pairs that
the calls gave since the last one that began anew, repeated keys and all; the parameters
are those pairs with every key at its first place and with its last value.

`Params.Tracks` is the invariant. One pair keeps it (`Tracks.insert`), and all ways
into parameters but the empty ones lead through that.
-/

namespace TenantSql.Params

open Keyed (lookup_eq_some_of_mem)

/-! ### One pair -/

theorem lookup_put (key value k : String) (pairs : List (String × String)) :
    (put key value pairs).lookup k = if k = key then some value else pairs.lookup k := by
  induction pairs with
  | nil => exact Keyed.lookup_entry (key, value) [] k
  | cons p rest ih =>
    unfold put
    split
    · rename_i hp
      subst hp
      by_cases hk : k = p.1 <;> simp [Keyed.lookup_entry, hk]
    · rename_i hp
      rw [Keyed.lookup_entry, Keyed.lookup_entry, ih]
      by_cases hk : k = p.1
      · simp [hk, hp]
      · simp [hk]

/-- First places, one element at a time. -/
theorem eraseDups_append_singleton (keys : List String) (key : String) :
    (keys ++ [key]).eraseDups =
      if key ∈ keys then keys.eraseDups else keys.eraseDups ++ [key] := by
  rw [List.eraseDups_append]
  split
  · rename_i hold
    simp [List.removeAll, hold]
  · rename_i hnew
    simp [List.removeAll, hnew, List.eraseDups_cons]

/-! ### The invariant -/

/-- The parameters are the given pairs, with every key at its first place and with its last
value. -/
structure Tracks (ps : Params) (given : List (String × String)) : Prop where
  keys : ps.pairs.map Prod.fst = (given.map Prod.fst).eraseDups
  lookup : ∀ k, ps.pairs.lookup k = given.reverse.lookup k

namespace Tracks

variable {ps : Params} {given : List (String × String)}

theorem empty : Tracks .empty [] := ⟨rfl, fun _ => rfl⟩

/-- A key that was never given comes last; one that was keeps its place. -/
theorem insert (h : Tracks ps given) (key value : String) :
    Tracks (ps.insert key value) (given ++ [(key, value)]) := by
  have hmem : key ∈ ps.pairs.map Prod.fst ↔ key ∈ given.map Prod.fst := by
    rw [h.keys, List.mem_eraseDups]
  refine ⟨?_, fun k => ?_⟩
  · rw [Params.insert, keys_put, List.map_append, List.map_singleton, eraseDups_append_singleton,
      ← h.keys]
    simp only [hmem]
  · rw [Params.insert, lookup_put, List.reverse_append, List.reverse_singleton,
      List.singleton_append, Keyed.lookup_entry, h.lookup]

theorem extend (h : Tracks ps given) (pairs : List (String × String)) :
    Tracks (ps.extend pairs) (given ++ pairs) := by
  induction pairs generalizing ps given with
  | nil => exact (List.append_nil given).symm ▸ h
  | cons p rest ih =>
    have hnext := ih (h.insert p.1 p.2)
    rw [List.append_assoc, List.singleton_append] at hnext
    exact hnext

theorem ofList (pairs : List (String × String)) : Tracks (.ofList pairs) pairs :=
  empty.extend pairs

end Tracks

/-! ### Calls -/

/-- A call on parameters. -/
inductive Call where
  | new
  | parse (query : String)
  /-- Reads a JSON document; one that is no object of strings is refused. -/
  | json (text : String)
  | collect (pairs : List (String × String))
  | extend (pairs : List (String × String))
  /-- Gives one key a value, by itself or in a chain of calls. -/
  | insert (key value : String)

/-- The members of a JSON document that is an object of strings. -/
def members? (text : String) : Option (List (String × String)) :=
  match Json.read? text with
  | some (.object members) => textMembers? members
  | _ => none

namespace Call

/-- The parameters after a call; a refused document leaves them as they were. -/
def apply (ps : Params) : Call → Params
  | new => .empty
  | parse query => .ofQuery query
  | json text => ((Json.read? text).bind ofJson?).getD ps
  | collect pairs => .ofList pairs
  | extend pairs => ps.extend pairs
  | insert key value => ps.insert key value

/-- The given pairs after a call: those before it too, unless the call begins anew. -/
def record (given : List (String × String)) : Call → List (String × String)
  | new => []
  | parse query => QueryString.pairs (Utf8.encode query)
  | json text => (members? text).getD given
  | collect pairs => pairs
  | extend pairs => given ++ pairs
  | insert key value => given ++ [(key, value)]

end Call

/-- The parameters after calls in order. -/
def run (calls : List Call) : Params := calls.foldl Call.apply .empty

/-- The pairs that calls gave since the last one that began anew. -/
def given (calls : List Call) : List (String × String) := calls.foldl Call.record []

theorem textMembers?_eq_some_iff {members : List (String × Json)}
    {texts : List (String × String)} :
    textMembers? members = some texts ↔ members = texts.map fun m => (m.1, .string m.2) := by
  induction members generalizing texts with
  | nil => cases texts <;> simp [textMembers?]
  | cons m rest ih =>
    obtain ⟨key, json⟩ := m
    cases texts with
    | nil => cases json <;> simp [textMembers?]
    | cons t texts => cases json <;> simp [textMembers?, ih, Prod.ext_iff, and_comm, and_assoc]

theorem members?_eq_some_iff {text : String} {members : List (String × String)} :
    members? text = some members ↔
      Json.read? text = some (.object (members.map fun m => (m.1, .string m.2))) := by
  unfold members?
  split
  · rename_i heq
    rw [heq, textMembers?_eq_some_iff, Option.some_inj, Json.object.injEq]
  · rename_i hno
    exact ⟨nofun, fun h => absurd h (hno _)⟩

/-- A document that is no object of strings gives no parameters; one that is gives those of its
members. -/
theorem read_ofJson? (text : String) :
    (Json.read? text).bind ofJson? = (members? text).map ofList := by
  unfold members?
  cases Json.read? text with
  | none => rfl
  | some json => cases json <;> rfl

/-- What one call preserves. -/
theorem Tracks.apply {ps : Params} {given : List (String × String)} (h : Tracks ps given)
    (call : Call) : Tracks (call.apply ps) (call.record given) := by
  cases call with
  | new => exact .empty
  | parse query => exact .ofList _
  | json text =>
    rw [Call.apply, Call.record, read_ofJson?]
    cases members? text with
    | none => exact h
    | some members => exact .ofList members
  | collect pairs => exact .ofList pairs
  | extend pairs => exact h.extend pairs
  | insert key value => exact h.insert key value

theorem tracks_run (calls : List Call) : Tracks (run calls) (given calls) := by
  have hfold : ∀ (ps : Params) (past : List (String × String)), Tracks ps past →
      Tracks (calls.foldl Call.apply ps) (calls.foldl Call.record past) := by
    induction calls with
    | nil => exact fun _ _ h => h
    | cons call rest ih => exact fun _ _ h => ih _ _ (h.apply call)
  exact hfold _ _ .empty

/-! ### What the invariant says -/

theorem lookup_reverse_eq_none_iff {pairs : List (String × String)} {key : String} :
    pairs.reverse.lookup key = none ↔ key ∉ pairs.map Prod.fst := by
  rw [Keyed.lookup_eq_none_iff, List.map_reverse, List.mem_reverse]

theorem Tracks.size_eq {ps : Params} {given : List (String × String)} (h : Tracks ps given) :
    ps.size = (given.map Prod.fst).toFinset.card := by
  have hkeys : (ps.pairs.map Prod.fst).toFinset = (given.map Prod.fst).toFinset := by
    ext key
    rw [List.mem_toFinset, List.mem_toFinset, h.keys, List.mem_eraseDups]
  rw [← hkeys, List.toFinset_card_of_nodup ps.distinct, List.length_map, size]

/-- **Parameters keep first places and last values.** After any calls the keys are distinct and
stand in the order in which they first came since the last call that began anew, each with the last
value it was given since; a look for a key finds exactly that, and nothing for a key that never
came. There are as many pairs as distinct keys. Reading a document that is an object of strings
does what collecting its members does, in the order of the document and with repetitions. -/
theorem params_of_calls (calls : List Call) :
    ((run calls).pairs.map Prod.fst).Nodup ∧
    (run calls).pairs.map Prod.fst = ((given calls).map Prod.fst).eraseDups ∧
    (∀ p ∈ (run calls).pairs, (given calls).reverse.lookup p.1 = some p.2) ∧
    (∀ key, (run calls).get? key = (given calls).reverse.lookup key) ∧
    (∀ key, (run calls).get? key = none ↔ key ∉ (given calls).map Prod.fst) ∧
    (run calls).size = ((given calls).map Prod.fst).toFinset.card ∧
    ∀ (text : String) (members : List (String × String)),
      Json.read? text = some (.object (members.map fun m => (m.1, .string m.2))) →
      run (calls ++ [.json text]) = run (calls ++ [.collect members]) := by
  have h := tracks_run calls
  refine ⟨(run calls).distinct, h.keys, fun p hp => ?_, h.lookup, fun key => ?_, h.size_eq,
    fun text members hread => ?_⟩
  · rw [← h.lookup, lookup_eq_some_of_mem (run calls).distinct hp]
  · rw [get?, h.lookup, lookup_reverse_eq_none_iff]
  · have hmembers : members? text = some members := members?_eq_some_iff.mpr hread
    rw [run, run, List.foldl_append, List.foldl_append, List.foldl_cons, List.foldl_cons,
      Call.apply, read_ofJson?, hmembers, Option.map_some, Option.getD_some, Call.apply]

/-- A key that comes again in a query and in a document, and one that is put anew behind it. -/
theorem params_of_repeating_calls :
    let calls := [.insert "z" "0", .parse "type=a&height=ge1&type=b",
      .json "[]", .extend [("height", "lt5"), ("limit", "2")], .insert "type" ""]
    (run calls).get? "type" = some "" ∧
    (run calls).get? "z" = none ∧
    (run calls).size = 3 ∧
    run (calls ++ [.json "\x7b\"a\":\"1\",\"b\":\"2\",\"a\":\"3\"\x7d"]) =
      run (calls ++ [.collect [("a", "1"), ("b", "2"), ("a", "3")]]) := by
  intro calls
  have hgiven : given calls = [("type", "a"), ("height", "ge1"), ("type", "b"),
    ("height", "lt5"), ("limit", "2"), ("type", "")] := by decide +kernel
  obtain ⟨-, -, -, hget, hnone, hsize, hjson⟩ := params_of_calls calls
  refine ⟨?_, ?_, ?_, hjson _ _ (members?_eq_some_iff.mp ?_)⟩
  · rw [hget, hgiven]
    decide
  · rw [hnone, hgiven]
    decide
  · rw [hsize, hgiven]
    decide
  · decide +kernel

end TenantSql.Params
