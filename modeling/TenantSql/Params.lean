import TenantSql.Json.Basic
import TenantSql.Text.QueryString
/-!
# TenantSql.Params

Filter parameters: pairs of texts in the order in which their keys first came, of which no two
have one key. The order matters, since filters stand in a statement in the order of their
parameters. Four keys are reserved for ordering and paging.
-/

namespace TenantSql

/-- The pairs of a request, one to a key. -/
@[ext]
structure Params where
  pairs : List (String × String)
  distinct : (pairs.map Prod.fst).Nodup
deriving DecidableEq, Repr

/-- What the reserved keys say; an empty value says nothing. -/
structure Reserved where
  order : Option String
  direction : Option String
  limit : Option String
  offset : Option String
deriving DecidableEq, Repr

namespace Params

/-- No pairs. -/
def empty : Params := ⟨[], List.nodup_nil⟩

/-- Gives a key a value: in place if the key is there, else at the end. -/
def put (key value : String) : List (String × String) → List (String × String)
  | [] => [(key, value)]
  | p :: rest => if p.1 = key then (key, value) :: rest else p :: put key value rest

theorem keys_put (key value : String) (pairs : List (String × String)) :
    (put key value pairs).map Prod.fst =
      if key ∈ pairs.map Prod.fst then pairs.map Prod.fst else pairs.map Prod.fst ++ [key] := by
  induction pairs with
  | nil => rfl
  | cons p rest ih =>
    unfold put
    by_cases hp : p.1 = key
    · simp [hp]
    · have hmem : key ∈ (p :: rest).map Prod.fst ↔ key ∈ rest.map Prod.fst := by
        simp [Ne.symm hp]
      rw [if_neg hp, List.map_cons, ih]
      simp only [hmem]
      split <;> rfl

/-- A key is only added where it was not there. -/
theorem nodup_keys_put (key value : String) {pairs : List (String × String)}
    (h : (pairs.map Prod.fst).Nodup) : ((put key value pairs).map Prod.fst).Nodup := by
  rw [keys_put]
  split
  · exact h
  · rename_i hnew
    refine List.nodup_append.mpr ⟨h, List.pairwise_singleton _ _, fun a ha b hb heq => hnew ?_⟩
    rw [← List.mem_singleton.mp hb, ← heq]
    exact ha

/-- Gives a key a value. -/
def insert (ps : Params) (key value : String) : Params :=
  ⟨put key value ps.pairs, nodup_keys_put key value ps.distinct⟩

/-- Gives keys values, one after the other. -/
def extend (ps : Params) (pairs : List (String × String)) : Params :=
  pairs.foldl (fun ps p => ps.insert p.1 p.2) ps

/-- The parameters of a list of pairs. -/
def ofList (pairs : List (String × String)) : Params :=
  empty.extend pairs

/-- The value of a key. -/
def get? (ps : Params) (key : String) : Option String :=
  ps.pairs.lookup key

/-- Number of keys. -/
def size (ps : Params) : Nat := ps.pairs.length

/-- Whether there are no pairs. -/
def isEmpty (ps : Params) : Bool := ps.pairs.isEmpty

/-- The parameters of a query string. -/
def ofQuery (query : String) : Params :=
  .ofList (QueryString.pairs (Utf8.encode query))

/-- The members of a document, if all are strings. -/
def textMembers? : List (String × Json) → Option (List (String × String))
  | [] => some []
  | (key, .string value) :: rest => (textMembers? rest).map ((key, value) :: ·)
  | _ => none

/-- The parameters that an object of strings gives, in document order. -/
def ofJson? : Json → Option Params
  | .object members => (textMembers? members).map ofList
  | _ => none

/-! ### Reserved keys -/

/-- Names the column to order by. -/
def orderKey : String := "order"

/-- Says which way the order goes. -/
def directionKey : String := "direction"

/-- Limits the number of rows. -/
def limitKey : String := "limit"

/-- Skips rows. -/
def offsetKey : String := "offset"

/-- The value of a key, if it is not empty. -/
def nonEmpty? (ps : Params) (key : String) : Option String :=
  (ps.get? key).filter (· != "")

/-- What the reserved keys say. -/
def reserved (ps : Params) : Reserved :=
  ⟨ps.nonEmpty? orderKey, ps.nonEmpty? directionKey, ps.nonEmpty? limitKey,
    ps.nonEmpty? offsetKey⟩

end Params

namespace Reserved

/-- Whether an order is asked for; a direction alone asks for one too. -/
def hasOrdering (r : Reserved) : Bool :=
  r.order.isSome || r.direction.isSome

/-- The column to order by. -/
def orderColumn (r : Reserved) : String :=
  r.order.getD "id"

/-- Whether the order goes up; any other word than this one means down. -/
def isAscending (r : Reserved) : Bool :=
  r.direction == some "ascending"

end Reserved

end TenantSql
