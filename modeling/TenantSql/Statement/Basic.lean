import TenantSql.Ident
import TenantSql.Value.Basic
/-!
# TenantSql.Statement.Basic

A statement under construction: raw SQL, and values bound at placeholders.

* `Statement.sql` numbers the placeholders; with `Statement.params` it is what
  runs.
* `Statement.literalSql` writes every value where its placeholder stands; it is
  for people to read.

Raw SQL and places for values stand in one list, the bound values in another, and
only a rendering joins the two again. A statement has as many places as values, so a
rendering runs out of neither. Both lists are kept last first, since all operations
append. What an operation does to a view is one equation per operation, stated below
the operations. Statements that run over several lines begin each of them with one of two
texts (`Layout`).
-/

namespace TenantSql

namespace Layout

/-- Begins a line of a statement. -/
def line : String := "\n      "

/-- Begins a line inside a list. -/
def nested : String := "\n        "

end Layout

/-- A bound value with the text it has in the literal form, and the type its placeholder is cast
to. -/
structure Bound where
  value : Value
  literal : String
  cast : Option String
deriving BEq

/-- A placeholder with its number and cast. -/
def Bound.placeholder (number : Nat) (b : Bound) : String :=
  "$" ++ natText number ++
    match b.cast with
    | some type => "::" ++ type
    | none => ""

/-- A piece of a statement: raw text, or the place of a value. -/
inductive Part where
  | raw (text : String)
  | place
deriving DecidableEq, Repr

namespace Part

/-- Number of places. -/
def places (parts : List Part) : Nat := parts.count .place

/-- The parts in order, with a rendering of its value in each place. Values are taken in order and
numbered from `number`; a place without a value is skipped. -/
def rendered (render : Nat → Bound → String) : Nat → List Part → List Bound → String
  | _, [], _ => ""
  | number, .raw text :: parts, bounds => text ++ rendered render number parts bounds
  | number, .place :: parts, b :: bounds =>
    render number b ++ rendered render (number + 1) parts bounds
  | number, .place :: parts, [] => rendered render number parts []

/-- Appends raw text to parts that are last first; text goes into the raw part before it, and
nothing is no part. -/
def push (text : String) (parts : List Part) : List Part :=
  -- Equality compares parts, so the same text pushed in other pieces has to give the same parts.
  if text = "" then parts
  else match parts with
    | .raw before :: rest => .raw (before ++ text) :: rest
    | parts => .raw text :: parts

@[simp] theorem places_nil : places [] = 0 := rfl

@[simp] theorem places_raw (text : String) (parts : List Part) :
    places (.raw text :: parts) = places parts :=
  List.count_cons_of_ne (nofun : Part.raw text ≠ .place)

@[simp] theorem places_place (parts : List Part) : places (.place :: parts) = places parts + 1 :=
  List.count_cons_self

theorem places_reverse (parts : List Part) : places parts.reverse = places parts :=
  List.count_reverse

@[simp] theorem places_push (text : String) (parts : List Part) :
    places (push text parts) = places parts := by
  unfold push
  split
  · rfl
  · split <;> simp only [places_raw]

/-- Raw text behind all places reads last, whatever the values are. -/
theorem rendered_append_raw (render : Nat → Bound → String) (number : Nat) (parts : List Part)
    (bounds : List Bound) (text : String) :
    rendered render number (parts ++ [.raw text]) bounds =
      rendered render number parts bounds ++ text := by
  induction parts generalizing number bounds with
  | nil => exact String.append_empty.trans String.empty_append.symm
  | cons part parts ih =>
    cases part with
    | raw before =>
      simp only [List.cons_append, rendered]
      rw [ih, String.append_assoc]
    | place =>
      cases bounds with
      | nil => exact ih number []
      | cons b bounds =>
        simp only [List.cons_append, rendered]
        rw [ih, String.append_assoc]

/-- A place behind as many others as there are values takes the next one. -/
theorem rendered_append_place (render : Nat → Bound → String) (number : Nat) {parts : List Part}
    {bounds : List Bound} (h : places parts = bounds.length) (b : Bound) :
    rendered render number (parts ++ [.place]) (bounds ++ [b]) =
      rendered render number parts bounds ++ render (number + bounds.length) b := by
  induction parts generalizing number bounds with
  | nil =>
    obtain rfl : bounds = [] := List.length_eq_zero_iff.mp h.symm
    exact String.append_empty.trans String.empty_append.symm
  | cons part parts ih =>
    cases part with
    | raw before =>
      rw [places_raw] at h
      simp only [List.cons_append, rendered]
      rw [ih number h, String.append_assoc]
    | place =>
      cases bounds with
      | nil => simp at h
      | cons c bounds =>
        rw [places_place, List.length_cons, Nat.add_right_cancel_iff] at h
        simp only [List.cons_append, rendered, List.length_cons]
        rw [ih (number + 1) h, String.append_assoc, Nat.add_assoc, Nat.add_comm 1]

theorem rendered_push (render : Nat → Bound → String) (number : Nat) (text : String)
    (parts : List Part) (bounds : List Bound) :
    rendered render number (push text parts).reverse bounds =
      rendered render number parts.reverse bounds ++ text := by
  unfold push
  split
  · rename_i h
    subst h
    exact String.append_empty.symm
  · split
    · rw [List.reverse_cons, List.reverse_cons, rendered_append_raw, rendered_append_raw,
        String.append_assoc]
    · rw [List.reverse_cons, rendered_append_raw]

end Part

/-- Gives the last of the values, which are last first, a cast. -/
def Bound.castLast (type : String) : List Bound → List Bound
  | [] => []
  | b :: before => { b with cast := some type } :: before

@[simp] theorem Bound.length_castLast (type : String) (bounds : List Bound) :
    (castLast type bounds).length = bounds.length := by
  cases bounds <;> rfl

/-- Raw text with places, and the values for the places; both last first. -/
structure Statement where
  parts : List Part
  bounds : List Bound
  aligned : Part.places parts = bounds.length

namespace Statement

instance : BEq Statement := ⟨fun a b => a.parts == b.parts && a.bounds == b.bounds⟩

/-- The statement of no parts. -/
def empty : Statement := ⟨[], [], rfl⟩

/-- A statement that begins with a raw part, be it of no text. -/
def new (text : String) : Statement := ⟨[.raw text], [], rfl⟩

/-! ### Views -/

/-- The bound values, in order. -/
def params (st : Statement) : List Value := (st.bounds.map Bound.value).reverse

/-- Number of bound values. -/
def paramCount (st : Statement) : Nat := st.bounds.length

/-- The text with a rendering of its value in each place, values numbered from one. -/
def rendered (render : Nat → Bound → String) (st : Statement) : String :=
  Part.rendered render 1 st.parts.reverse st.bounds.reverse

/-- The text with numbered placeholders. -/
def sql (st : Statement) : String := st.rendered Bound.placeholder

/-- The text with every value in place. -/
def literalSql (st : Statement) : String := st.rendered fun _ b => b.literal

theorem length_params (st : Statement) : st.params.length = st.paramCount := by
  simp [params, paramCount]

/-! ### Operations -/

/-- Appends raw text. -/
def push (st : Statement) (text : String) : Statement where
  parts := Part.push text st.parts
  bounds := st.bounds
  aligned := (Part.places_push text st.parts).trans st.aligned

/-- Appends a placeholder with its value. -/
def pushBound (st : Statement) (b : Bound) : Statement where
  parts := .place :: st.parts
  bounds := b :: st.bounds
  aligned := (Part.places_place st.parts).trans (congrArg (· + 1) st.aligned)

/-- Casts the last placeholder to a type. -/
def castLast (st : Statement) (type : String) : Statement where
  parts := st.parts
  bounds := Bound.castLast type st.bounds
  aligned := st.aligned.trans (Bound.length_castLast type st.bounds).symm

/-- Appends a name. -/
def pushIdent (st : Statement) (name : Ident) : Statement := st.push name.text

/-- Appends a table in a schema. -/
def pushTable (st : Statement) (schema : Schema) (table : Ident) : Statement :=
  st.push (schema.sql ++ "." ++ table.text)

/-- Binds a value with its SQL literal. -/
def bind (st : Statement) (value : Value) : Statement :=
  st.pushBound ⟨value, value.literal, none⟩

/-- Binds a value that is written as `raw` in the literal form. -/
def bindVerbatim (st : Statement) (value : Value) (raw : String) : Statement :=
  st.pushBound ⟨value, raw, none⟩

/-- Binds a value whose placeholder is cast to a type. -/
def bindCast (st : Statement) (value : Value) (raw cast : String) : Statement :=
  (st.bindVerbatim value raw).castLast cast

/-- Binds values with commas between. -/
def bindRest (st : Statement) (values : List Value) : Statement :=
  values.foldl (fun st v => (st.push ", ").bind v) st

/-- Binds a list of values with commas between; no values are the keyword `NULL`, which nothing
equals. -/
def bindList (st : Statement) : List Value → Statement
  | [] => st.push "NULL"
  | v :: rest => (st.bind v).bindRest rest

/-! ### What each operation does to each view -/

@[simp] theorem rendered_push (render : Nat → Bound → String) (st : Statement) (text : String) :
    (st.push text).rendered render = st.rendered render ++ text :=
  Part.rendered_push render 1 text st.parts st.bounds.reverse

@[simp] theorem rendered_pushBound (render : Nat → Bound → String) (st : Statement) (b : Bound) :
    (st.pushBound b).rendered render = st.rendered render ++ render (st.paramCount + 1) b := by
  have h : Part.places st.parts.reverse = st.bounds.reverse.length := by
    rw [Part.places_reverse, List.length_reverse, st.aligned]
  simp only [rendered, pushBound, List.reverse_cons]
  rw [Part.rendered_append_place render 1 h b, List.length_reverse, Nat.add_comm 1]
  rfl

@[simp] theorem rendered_pushIdent (render : Nat → Bound → String) (st : Statement) (name : Ident) :
    (st.pushIdent name).rendered render = st.rendered render ++ name.text :=
  rendered_push render st name.text

@[simp] theorem rendered_new (render : Nat → Bound → String) (text : String) :
    (new text).rendered render = text := String.append_empty

@[simp] theorem params_new (text : String) : (new text).params = [] := rfl
@[simp] theorem paramCount_new (text : String) : (new text).paramCount = 0 := rfl

@[simp] theorem params_push (st : Statement) (text : String) :
    (st.push text).params = st.params := rfl

@[simp] theorem paramCount_push (st : Statement) (text : String) :
    (st.push text).paramCount = st.paramCount := rfl

@[simp] theorem params_pushBound (st : Statement) (b : Bound) :
    (st.pushBound b).params = st.params ++ [b.value] := by
  simp [params, pushBound]

@[simp] theorem paramCount_pushBound (st : Statement) (b : Bound) :
    (st.pushBound b).paramCount = st.paramCount + 1 := rfl

/-- A cast given afterwards is one given with the value. -/
theorem bindCast_eq_pushBound (st : Statement) (value : Value) (raw cast : String) :
    st.bindCast value raw cast = st.pushBound ⟨value, raw, some cast⟩ := rfl

end Statement

end TenantSql
