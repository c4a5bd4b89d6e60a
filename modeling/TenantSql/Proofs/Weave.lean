import TenantSql.Statement.Basic
/-!
# TenantSql.Proofs.Weave

Every statement that operations build is a weave: raw text `r0`, a value, raw text
`r1`, a value, and so on.

* The text that runs, the text for people and the parameters are three renderings
  of the same weave, so they name the same values in the same order.
* What one operation adds is its pieces (`Operation.pieces`), and the pieces of a
  run are those of its operations in order. `Statement.Spells` relates a statement
  to the pieces it stands for; every operation keeps it (`Spells.apply`).
* Operations only append. Under every rendering the text of a statement is the
  beginning of the text of whatever is built on it.
-/

namespace TenantSql

/-- What the operations are asked to add: raw text, or a value. -/
inductive Piece where
  | raw (text : String)
  | bound (b : Bound)

namespace Piece

/-- The values among pieces. -/
def bounds : List Piece → List Bound
  | [] => []
  | .raw _ :: rest => bounds rest
  | .bound b :: rest => b :: bounds rest

/-- Pieces one after the other, the values numbered from `number`. -/
def spell (render : Nat → Bound → String) : Nat → List Piece → String
  | _, [] => ""
  | number, .raw text :: rest => text ++ spell render number rest
  | number, .bound b :: rest => render number b ++ spell render (number + 1) rest

theorem bounds_append (ps qs : List Piece) : bounds (ps ++ qs) = bounds ps ++ bounds qs := by
  induction ps with
  | nil => rfl
  | cons p ps ih =>
    cases p with
    | raw text => exact ih
    | bound b => exact congrArg (b :: ·) ih

theorem spell_append (render : Nat → Bound → String) (number : Nat) (ps qs : List Piece) :
    spell render number (ps ++ qs) =
      spell render number ps ++ spell render (number + (bounds ps).length) qs := by
  induction ps generalizing number with
  | nil => simp [spell, bounds]
  | cons p ps ih =>
    cases p with
    | raw text =>
      simp only [List.cons_append, spell, bounds, ih, String.append_assoc]
    | bound b =>
      simp only [List.cons_append, spell, bounds, List.length_cons, ih, String.append_assoc]
      rw [Nat.add_right_comm number 1, Nat.add_assoc number]

end Piece

/-! ### Weaves -/

/-- Raw texts with values between: the text in front, and every value with the text behind it. -/
structure Weave where
  head : String
  tail : List (Bound × String)

namespace Weave

/-- The weave of pieces. Texts with no value between are one text. -/
def ofPieces : List Piece → Weave
  | [] => ⟨"", []⟩
  | .raw text :: rest => ⟨text ++ (ofPieces rest).head, (ofPieces rest).tail⟩
  | .bound b :: rest => ⟨"", (b, (ofPieces rest).head) :: (ofPieces rest).tail⟩

/-- Values numbered from `number`, each with the text behind it. -/
def renderedFrom (render : Nat → Bound → String) : Nat → List (Bound × String) → String
  | _, [] => ""
  | number, (b, behind) :: rest =>
    render number b ++ (behind ++ renderedFrom render (number + 1) rest)

/-- The raw texts with a rendering of each value between. -/
def rendered (render : Nat → Bound → String) (w : Weave) : String :=
  w.head ++ renderedFrom render 1 w.tail

/-- The values, in order. -/
def bounds (w : Weave) : List Bound := w.tail.map Prod.fst

theorem bounds_ofPieces (ps : List Piece) : (ofPieces ps).bounds = Piece.bounds ps := by
  induction ps with
  | nil => rfl
  | cons p ps ih =>
    cases p with
    | raw text => exact ih
    | bound b => exact congrArg (b :: ·) ih

/-- Pieces spell what their weave does. -/
theorem renderedFrom_ofPieces (render : Nat → Bound → String) (number : Nat) (ps : List Piece) :
    (ofPieces ps).head ++ renderedFrom render number (ofPieces ps).tail =
      Piece.spell render number ps := by
  induction ps generalizing number with
  | nil => rfl
  | cons p ps ih =>
    cases p with
    | raw text =>
      simp only [ofPieces, Piece.spell]
      rw [String.append_assoc, ih number]
    | bound b =>
      simp only [ofPieces, renderedFrom, Piece.spell]
      rw [String.empty_append, ih (number + 1)]

theorem rendered_ofPieces (render : Nat → Bound → String) (ps : List Piece) :
    (ofPieces ps).rendered render = Piece.spell render 1 ps :=
  renderedFrom_ofPieces render 1 ps

end Weave

/-! ### Operations -/

/-- One call on a statement. -/
inductive Operation where
  | push (text : String)
  | pushIdent (name : Ident)
  | pushTable (schema : Schema) (table : Ident)
  | bind (value : Value)
  | bindVerbatim (value : Value) (raw : String)
  | bindCast (value : Value) (raw cast : String)
  | bindList (values : List Value)

/-- The statements that exist before the first operation. -/
inductive Beginning where
  | empty
  | new (text : String)

namespace Beginning

/-- The statement itself. -/
def statement : Beginning → Statement
  | .empty => Statement.empty
  | .new text => Statement.new text

/-- The pieces it stands for. -/
def pieces : Beginning → List Piece
  | .empty => []
  | .new text => [.raw text]

end Beginning

namespace Operation

/-- The statement after the operation. -/
def apply (st : Statement) : Operation → Statement
  | .push text => st.push text
  | .pushIdent name => st.pushIdent name
  | .pushTable schema table => st.pushTable schema table
  | .bind value => st.bind value
  | .bindVerbatim value raw => st.bindVerbatim value raw
  | .bindCast value raw cast => st.bindCast value raw cast
  | .bindList values => st.bindList values

/-- The value of a list behind the comma before it. -/
def listed (value : Value) : List Piece :=
  [.raw ", ", .bound ⟨value, value.literal, none⟩]

/-- What the operation adds. -/
def pieces : Operation → List Piece
  | .push text => [.raw text]
  | .pushIdent name => [.raw name.text]
  | .pushTable schema table => [.raw (schema.sql ++ "." ++ table.text)]
  | .bind value => [.bound ⟨value, value.literal, none⟩]
  | .bindVerbatim value raw => [.bound ⟨value, raw, none⟩]
  | .bindCast value raw cast => [.bound ⟨value, raw, some cast⟩]
  | .bindList [] => [.raw "NULL"]
  | .bindList (value :: rest) => .bound ⟨value, value.literal, none⟩ :: rest.flatMap listed

/-- The statement after operations in order. -/
def run (start : Beginning) (ops : List Operation) : Statement :=
  ops.foldl apply start.statement

/-- What a run adds, from its beginning. -/
def written (start : Beginning) (ops : List Operation) : List Piece :=
  start.pieces ++ ops.flatMap pieces

theorem written_append (start : Beginning) (ops more : List Operation) :
    written start (ops ++ more) = written start ops ++ more.flatMap pieces := by
  unfold written
  rw [List.flatMap_append, List.append_assoc]

end Operation

/-- A placeholder is a dollar sign and a number, with the cast behind if there is one. -/
theorem Bound.placeholder_eq :
    placeholder = fun k b => "$" ++ natText k ++ (b.cast.map ("::" ++ ·)).getD "" := by
  funext k b
  unfold placeholder
  cases b.cast <;> rfl

/-! ### The invariant -/

/-- The statement stands for the pieces: its values are theirs, and it reads as they do under every
rendering. -/
structure Statement.Spells (st : Statement) (ps : List Piece) : Prop where
  bounds : st.bounds.reverse = Piece.bounds ps
  rendered : ∀ render, st.rendered render = Piece.spell render 1 ps

namespace Statement.Spells

variable {st : Statement} {ps : List Piece}

theorem paramCount (h : st.Spells ps) : st.paramCount = (Piece.bounds ps).length := by
  rw [← h.bounds, List.length_reverse]
  rfl

/-- Raw text is one piece, also when it goes into the raw part before it. -/
theorem push (h : st.Spells ps) (text : String) : (st.push text).Spells (ps ++ [.raw text]) where
  bounds := by
    rw [Piece.bounds_append]
    exact h.bounds.trans (List.append_nil _).symm
  rendered render := by
    rw [Statement.rendered_push, h.rendered, Piece.spell_append]
    simp only [Piece.spell, String.append_empty]

/-- A value is one piece, and its number is the next one. -/
theorem pushBound (h : st.Spells ps) (b : Bound) : (st.pushBound b).Spells (ps ++ [.bound b]) where
  bounds := by
    rw [Piece.bounds_append, ← h.bounds]
    exact List.reverse_cons
  rendered render := by
    rw [Statement.rendered_pushBound, h.rendered, h.paramCount, Piece.spell_append]
    simp only [Piece.spell, String.append_empty, Nat.add_comm 1]

theorem bindRest (h : st.Spells ps) (values : List Value) :
    (st.bindRest values).Spells (ps ++ values.flatMap Operation.listed) := by
  induction values generalizing st ps with
  | nil =>
    rw [List.flatMap_nil, List.append_nil]
    exact h
  | cons v values ih =>
    have h' := (h.push ", ").pushBound ⟨v, v.literal, none⟩
    rw [List.append_assoc] at h'
    rw [List.flatMap_cons, ← List.append_assoc]
    exact ih h'

theorem bindList (h : st.Spells ps) (values : List Value) :
    (st.bindList values).Spells (ps ++ (Operation.bindList values).pieces) := by
  cases values with
  | nil => exact h.push "NULL"
  | cons v rest =>
    have h' := (h.pushBound ⟨v, v.literal, none⟩).bindRest rest
    rw [List.append_assoc] at h'
    exact h'

/-- Every operation adds its pieces and nothing else. -/
theorem apply (h : st.Spells ps) (op : Operation) : (op.apply st).Spells (ps ++ op.pieces) := by
  cases op with
  | push text => exact h.push text
  | pushIdent name => exact h.push name.text
  | pushTable schema table => exact h.push (schema.sql ++ "." ++ table.text)
  | bind value => exact h.pushBound ⟨value, value.literal, none⟩
  | bindVerbatim value raw => exact h.pushBound ⟨value, raw, none⟩
  | bindCast value raw cast =>
    -- The cast is set afterwards, on the value that was bound last: its own.
    rw [Operation.apply, Statement.bindCast_eq_pushBound]
    exact h.pushBound ⟨value, raw, some cast⟩
  | bindList values => exact h.bindList values

theorem foldl (h : st.Spells ps) (ops : List Operation) :
    (ops.foldl Operation.apply st).Spells (ps ++ ops.flatMap Operation.pieces) := by
  induction ops generalizing st ps with
  | nil =>
    rw [List.flatMap_nil, List.append_nil]
    exact h
  | cons op ops ih =>
    rw [List.flatMap_cons, ← List.append_assoc]
    exact ih (h.apply op)

end Statement.Spells

theorem Beginning.spells (start : Beginning) : start.statement.Spells start.pieces := by
  cases start with
  | empty => exact ⟨rfl, fun _ => rfl⟩
  | new text =>
    refine ⟨rfl, fun render => ?_⟩
    rw [Beginning.statement, Statement.rendered_new]
    exact String.append_empty.symm

namespace Operation

/-- A run stands for the pieces of its operations. -/
theorem run_spells (start : Beginning) (ops : List Operation) :
    (run start ops).Spells (written start ops) :=
  start.spells.foldl ops

/-- Whatever the rendering, more operations leave the text of a run as it is and go on behind it. -/
theorem rendered_run_append (render : Nat → Bound → String) (start : Beginning)
    (ops more : List Operation) :
    (run start (ops ++ more)).rendered render =
      (run start ops).rendered render ++
        Piece.spell render ((run start ops).paramCount + 1) (more.flatMap pieces) := by
  have h := run_spells start ops
  rw [(run_spells start (ops ++ more)).rendered, h.rendered, h.paramCount, written_append,
    Piece.spell_append, Nat.add_comm 1]

/-- More operations leave the values of a run as they are. -/
theorem bounds_run_append (start : Beginning) (ops more : List Operation) :
    (run start (ops ++ more)).bounds.reverse =
      (run start ops).bounds.reverse ++ Piece.bounds (more.flatMap pieces) := by
  rw [(run_spells start (ops ++ more)).bounds, (run_spells start ops).bounds, written_append,
    Piece.bounds_append]

/-- **The three views are one weave.** After any run of operations there are as many places as
values, and the values are those of the pieces the operations added, each with the literal and the
cast it came with. In the weave of these pieces, the text that runs is the raw texts with the
numbered placeholders between, each with its cast, the text for people is the same raw texts with
the literals between, and the parameters are the values. A longer run only appends to each. -/
theorem views_of_run (start : Beginning) (ops : List Operation) :
    let st := run start ops
    let w := Weave.ofPieces (start.pieces ++ ops.flatMap pieces)
    let placeholder (k : Nat) (b : Bound) :=
      "$" ++ natText k ++ (b.cast.map ("::" ++ ·)).getD ""
    Part.places st.parts = st.bounds.length ∧
    st.bounds.reverse = w.bounds ∧
    st.paramCount = w.bounds.length ∧
    st.sql = w.rendered placeholder ∧
    st.literalSql = w.rendered (fun _ b => b.literal) ∧
    st.params = w.bounds.map Bound.value ∧
    ∀ more : List Operation,
      let longer := run start (ops ++ more)
      let added := more.flatMap pieces
      longer.sql = st.sql ++ Piece.spell placeholder (st.paramCount + 1) added ∧
      longer.literalSql =
        st.literalSql ++ Piece.spell (fun _ b => b.literal) (st.paramCount + 1) added ∧
      longer.bounds.reverse = st.bounds.reverse ++ Piece.bounds added ∧
      longer.params = st.params ++ (Piece.bounds added).map Bound.value := by
  intro st w placeholder
  have h : st.Spells _ := run_spells start ops
  have hplaceholder : placeholder = Bound.placeholder := Bound.placeholder_eq.symm
  rw [hplaceholder]
  refine ⟨st.aligned, ?_, ?_, ?_, ?_, ?_, fun more => ⟨?_, ?_, ?_, ?_⟩⟩
  · rw [Weave.bounds_ofPieces]
    exact h.bounds
  · rw [Weave.bounds_ofPieces]
    exact h.paramCount
  · rw [Weave.rendered_ofPieces]
    exact h.rendered Bound.placeholder
  · rw [Weave.rendered_ofPieces]
    exact h.rendered fun _ b => b.literal
  · rw [Weave.bounds_ofPieces, Statement.params, ← List.map_reverse, h.bounds]
    rfl
  · exact rendered_run_append Bound.placeholder start ops more
  · exact rendered_run_append (fun _ b => b.literal) start ops more
  · exact bounds_run_append start ops more
  · simp only [Statement.params, ← List.map_reverse]
    rw [bounds_run_append, List.map_append]

end Operation

end TenantSql
