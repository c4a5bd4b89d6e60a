import Mathlib.Data.List.Forall2
import TenantSql.Proofs.InsertLayout
import TenantSql.Proofs.Weave
/-!
# TenantSql.Proofs.StatementEquality

Statements compare as equal exactly if they are the same weave.

How raw text was cut into pushes cannot be seen in a statement. Every operation comes down
to pushing texts and binding values, one piece after the other (`Operation.run_eq_foldl`),
and each piece keeps the parts in a normal form (`Part.ofTexts`): between two places, and
at either end, there is one raw part with some text, or none. The normal form is a function
of the raw texts (`Statement.parts_foldl_write`), and no two lists of texts have the same
one (`Part.ofTexts_inj`). So equal parts are equal raw texts, and what is left of equality
is that of the values, where zeros of both signs are equal and no NaN equals itself.
-/

namespace TenantSql

/-! ### Values that compare as equal -/

/-- Not a float, or one that is a number. -/
def Value.NotNaN (v : Value) : Prop := ∀ x, v = .float x → x.isNaN = false

/-- The same value, or two zeros, whatever their signs. -/
def Value.Same (v w : Value) : Prop :=
  v = w ∨ ∃ x y : Binary64, v = .float x ∧ w = .float y ∧ x.code = 0 ∧ y.code = 0

/-- The same value with the same literal and the same cast. -/
structure Bound.Same (b c : Bound) : Prop where
  value : b.value.Same c.value
  literal : b.literal = c.literal
  cast : b.cast = c.cast

/-- Numbers compare as equal if they have the same bits, and so do the two zeros. -/
theorem BinaryFloat.numericEq_iff {f : FloatFormat} {x y : BinaryFloat f} (hx : x.isNaN = false)
    (hy : y.isNaN = false) : x.numericEq y = true ↔ x = y ∨ x.code = 0 ∧ y.code = 0 := by
  obtain ⟨negative, code, hcode⟩ := x
  obtain ⟨negative', code', hcode'⟩ := y
  have hsame : BinaryFloat.mk negative code hcode = ⟨negative', code', hcode'⟩ ↔
      negative = negative' ∧ code = code' := by
    rw [BinaryFloat.mk.injEq]
  simp only [numericEq, hx, hy, hsame, Bool.not_false, Bool.true_and, Bool.and_eq_true,
    Bool.or_eq_true, beq_iff_eq]
  constructor
  · rintro ⟨rfl, hsign | rfl⟩
    · exact .inl ⟨hsign, rfl⟩
    · exact .inr ⟨rfl, rfl⟩
  · rintro (⟨hsign, rfl⟩ | ⟨rfl, rfl⟩)
    · exact ⟨rfl, .inl hsign⟩
    · exact ⟨rfl, .inr rfl⟩

theorem Value.beq_iff_same {v w : Value} (hv : v.NotNaN) (hw : w.NotNaN) :
    (v == w) = true ↔ v.Same w := by
  unfold Same
  cases v with
  | null => cases w <;> simp [BEq.beq, eqv]
  | int n => cases w <;> simp [BEq.beq, eqv]
  | float x =>
    cases w with
    | float y =>
      change x.numericEq y = true ↔ _
      rw [BinaryFloat.numericEq_iff (hv x rfl) (hw y rfl), Value.float.injEq]
      refine or_congr_right ⟨fun ⟨hx, hy⟩ => ⟨x, y, rfl, rfl, hx, hy⟩, ?_⟩
      rintro ⟨_, _, hxa, hyb, hx, hy⟩
      cases hxa
      cases hyb
      exact ⟨hx, hy⟩
    | _ => simp [BEq.beq, eqv]
  | text s => cases w <;> simp [BEq.beq, eqv]

theorem Bound.beq_iff_same {b c : Bound} (hb : b.value.NotNaN) (hc : c.value.NotNaN) :
    (b == c) = true ↔ b.Same c := by
  obtain ⟨value, literal, cast⟩ := b
  obtain ⟨value', literal', cast'⟩ := c
  change instBEqBound.beq _ _ = true ↔ _
  simp only [instBEqBound.beq, Bool.and_eq_true, beq_iff_eq, Value.beq_iff_same hb hc]
  constructor
  · rintro ⟨hvalue, hliteral, hcast⟩
    exact ⟨hvalue, hliteral, hcast⟩
  · rintro ⟨hvalue, hliteral, hcast⟩
    exact ⟨hvalue, hliteral, hcast⟩

/-- Lists of values compare as equal if they do one by one. -/
theorem beq_iff_forall₂_same {bs cs : List Bound} (hbs : ∀ b ∈ bs, b.value.NotNaN)
    (hcs : ∀ c ∈ cs, c.value.NotNaN) :
    (bs == cs) = true ↔ List.Forall₂ Bound.Same bs cs := by
  induction bs generalizing cs with
  | nil => cases cs <;> simp
  | cons b bs ih =>
    cases cs with
    | nil => simp
    | cons c cs =>
      obtain ⟨hb, hbs⟩ := List.forall_mem_cons.mp hbs
      obtain ⟨hc, hcs⟩ := List.forall_mem_cons.mp hcs
      rw [List.cons_beq_cons, Bool.and_eq_true, Bound.beq_iff_same hb hc, ih hbs hcs,
        List.forall₂_cons]

/-- Statements compare as equal if they have the same parts, and values that do. -/
theorem Statement.beq_iff {st st' : Statement} :
    (st == st') = true ↔ st.parts = st'.parts ∧ (st.bounds == st'.bounds) = true := by
  change (st.parts == st'.parts && st.bounds == st'.bounds) = true ↔ _
  rw [Bool.and_eq_true, beq_iff_eq]

/-! ### The normal form of parts -/

/-- The raw texts of a weave: the one in front, and the one behind each value. -/
def Weave.texts (w : Weave) : List String := w.head :: w.tail.map Prod.snd

theorem Weave.length_texts (w : Weave) : w.texts.length = w.bounds.length + 1 := by
  simp [texts, bounds]

namespace Part

/-- The part of a raw text; no text is no part. -/
def ofText (text : String) : List Part := if text = "" then [] else [.raw text]

/-- The parts of raw texts with a place between every two; texts and parts are last first. -/
def ofTexts : List String → List Part
  | [] => []
  | last :: before => ofText last ++ before.flatMap fun text => .place :: ofText text

theorem ofText_empty : ofText "" = [] := if_pos rfl

theorem ofText_inj {text text' : String} : ofText text = ofText text' ↔ text = text' := by
  unfold ofText
  by_cases h : text = "" <;> by_cases h' : text' = "" <;> simp [h, h', eq_comm]

/-- The parts up to the first place are those of the first text. -/
theorem ofText_append_place_inj {text text' : String} {parts parts' : List Part} :
    ofText text ++ .place :: parts = ofText text' ++ .place :: parts' ↔
      text = text' ∧ parts = parts' := by
  unfold ofText
  by_cases h : text = "" <;> by_cases h' : text' = "" <;> simp [h, h', eq_comm]

theorem ofTexts_cons_cons (last text : String) (before : List String) :
    ofTexts (last :: text :: before) = ofText last ++ .place :: ofTexts (text :: before) := by
  simp [ofTexts]

/-- No two lists of as many raw texts have the same parts. -/
theorem ofTexts_inj {texts texts' : List String} (hlength : texts.length = texts'.length)
    (h : ofTexts texts = ofTexts texts') : texts = texts' := by
  induction texts generalizing texts' with
  | nil => exact (List.length_eq_zero_iff.mp hlength.symm).symm
  | cons last before ih =>
    cases texts' with
    | nil => cases hlength
    | cons last' before' =>
      cases before with
      | nil =>
        obtain rfl := List.length_eq_zero_iff.mp (Nat.succ.inj hlength).symm
        simpa [ofTexts, ofText_inj] using h
      | cons text before =>
        cases before' with
        | nil => cases hlength
        | cons text' before' =>
          rw [ofTexts_cons_cons, ofTexts_cons_cons, ofText_append_place_inj] at h
          rw [h.1, ih (Nat.succ.inj hlength) h.2]

/-- A raw text goes into the last one, be they empty or not. -/
theorem push_ofTexts (text last : String) (before : List String) :
    push text (ofTexts (last :: before)) = ofTexts ((last ++ text) :: before) := by
  unfold push
  by_cases htext : text = ""
  · rw [if_pos htext, htext, String.append_empty]
  · rw [if_neg htext]
    by_cases hlast : last = ""
    · cases before <;> simp [ofTexts, ofText, htext, hlast]
    · simp [ofTexts, ofText, htext, hlast]

/-- A place has an empty text behind it. -/
theorem place_ofTexts (last : String) (before : List String) :
    .place :: ofTexts (last :: before) = ofTexts ("" :: last :: before) := by
  simp [ofTexts, ofText_empty]

/-- Texts that are pushed one after the other are one text, on any parts. -/
theorem push_push (text text' : String) (parts : List Part) :
    push text' (push text parts) = push (text ++ text') parts := by
  unfold push
  by_cases h : text = ""
  · simp [h]
  by_cases h' : text' = ""
  · simp [h, h']
  cases parts with
  | nil => simp [h, h']
  | cons part rest => cases part <;> simp [h, h', String.append_assoc]

end Part

/-! ### Operations, piece by piece -/

/-- The statement with one more piece. -/
def Piece.write (st : Statement) : Piece → Statement
  | .raw text => st.push text
  | .bound b => st.pushBound b

namespace Operation

theorem bindRest_eq_foldl (st : Statement) (values : List Value) :
    st.bindRest values = (values.flatMap listed).foldl Piece.write st := by
  induction values generalizing st with
  | nil => rfl
  | cons v rest ih => exact ih _

/-- An operation writes its pieces, one after the other. -/
theorem apply_eq_foldl (st : Statement) (op : Operation) :
    op.apply st = op.pieces.foldl Piece.write st := by
  cases op with
  | bindList values =>
    cases values with
    | nil => rfl
    | cons v rest => exact bindRest_eq_foldl (st.bind v) rest
  | _ => rfl

theorem run_eq_foldl (start : Beginning) (ops : List Operation) :
    run start ops = (ops.flatMap pieces).foldl Piece.write start.statement := by
  unfold run
  generalize start.statement = st
  induction ops generalizing st with
  | nil => rfl
  | cons op ops ih => rw [List.foldl_cons, ih, apply_eq_foldl, List.flatMap_cons, List.foldl_append]

end Operation

namespace Statement

variable {st : Statement} {last : String} {before : List String}

theorem parts_push (h : st.parts = Part.ofTexts (last :: before)) (text : String) :
    (st.push text).parts = Part.ofTexts ((last ++ text) :: before) :=
  (congrArg (Part.push text) h).trans (Part.push_ofTexts text last before)

theorem parts_pushBound (h : st.parts = Part.ofTexts (last :: before)) (b : Bound) :
    (st.pushBound b).parts = Part.ofTexts ("" :: last :: before) :=
  (congrArg (Part.place :: ·) h).trans (Part.place_ofTexts last before)

/-- Pieces keep the normal form: the first of their raw texts goes into the last one there is, and
the others come behind it. -/
theorem parts_foldl_write (h : st.parts = Part.ofTexts (last :: before)) (ps : List Piece) :
    (ps.foldl Piece.write st).parts =
      Part.ofTexts (((Weave.ofPieces ps).tail.map Prod.snd).reverse ++
        (last ++ (Weave.ofPieces ps).head) :: before) := by
  induction ps generalizing st last before with
  | nil => simpa [Weave.ofPieces] using h
  | cons p ps ih =>
    cases p with
    | raw text =>
      rw [List.foldl_cons, Piece.write, ih (parts_push h text), Weave.ofPieces, String.append_assoc]
    | bound b =>
      rw [List.foldl_cons, Piece.write, ih (parts_pushBound h b), Weave.ofPieces]
      simp

theorem push_push (st : Statement) (a b : String) : (st.push a).push b = st.push (a ++ b) := by
  simp only [push, Part.push_push]

end Statement

/-! ### Runs that compare as equal -/

namespace Operation

/-- The weave that operations write on an empty statement. -/
def weave (ops : List Operation) : Weave := .ofPieces (ops.flatMap pieces)

theorem parts_run (ops : List Operation) :
    (run .empty ops).parts = Part.ofTexts (weave ops).texts.reverse := by
  have hempty : Statement.empty.parts = Part.ofTexts [""] := rfl
  rw [run_eq_foldl, Beginning.statement, Statement.parts_foldl_write hempty, String.empty_append,
    Weave.texts, List.reverse_cons, weave]

theorem bounds_run (start : Beginning) (ops : List Operation) :
    (run start ops).bounds.reverse = (weave ops).bounds := by
  have hstart : Piece.bounds start.pieces = [] := by cases start <;> rfl
  rw [(run_spells start ops).bounds, written, Piece.bounds_append, hstart, List.nil_append, weave,
    Weave.bounds_ofPieces]

/-- No value that operations bind is a NaN. -/
def BindNoNaN (ops : List Operation) : Prop := ∀ b ∈ (weave ops).bounds, b.value.NotNaN

theorem notNaN_of_mem_bounds {start : Beginning} {ops : List Operation} (h : BindNoNaN ops)
    {b : Bound} (hb : b ∈ (run start ops).bounds) : b.value.NotNaN :=
  h b (bounds_run start ops ▸ List.mem_reverse.mpr hb)

theorem beq_run_iff {ops ops' : List Operation} (h : BindNoNaN ops) (h' : BindNoNaN ops') :
    (run .empty ops == run .empty ops') = true ↔
      (weave ops).texts = (weave ops').texts ∧
        List.Forall₂ Bound.Same (weave ops).bounds (weave ops').bounds := by
  rw [Statement.beq_iff, beq_iff_forall₂_same (fun _ => notNaN_of_mem_bounds h)
    (fun _ => notNaN_of_mem_bounds h'), ← List.forall₂_reverse_iff, bounds_run, bounds_run,
    parts_run, parts_run]
  refine and_congr_left fun hsame => ⟨fun hparts => ?_, fun htexts => by rw [htexts]⟩
  have hlength : (weave ops).texts.reverse.length = (weave ops').texts.reverse.length := by
    rw [List.length_reverse, List.length_reverse, Weave.length_texts, Weave.length_texts,
      hsame.length_eq]
  exact List.reverse_injective (Part.ofTexts_inj hlength hparts)

/-- Two pushes and one of both texts also compare as equal, as no value is a NaN. -/
theorem beq_push_push (start : Beginning) {ops : List Operation} (h : BindNoNaN ops)
    (a b : String) :
    (((run start ops).push a).push b == (run start ops).push (a ++ b)) = true := by
  rw [Statement.push_push]
  refine Statement.beq_self fun x hx => ?_
  rw [Statement.params_push, Statement.params, List.mem_reverse, List.mem_map] at hx
  obtain ⟨bound, hmem, hvalue⟩ := hx
  exact notNaN_of_mem_bounds h hmem x hvalue

end Operation

/-- **Equality of statements is canonical.** Two runs of operations on an empty statement, none of
which binds a NaN, give statements that compare as equal exactly if their weaves agree: the same raw
text before the first value, between two values and behind the last, and one by one the same values
with the same literals and casts, where a zero is the same as the other zero. Into which pushes the
text was cut does not show. So, on any statement that a run gives, two pushes are the same as one of
both texts. -/
theorem Operation.run_beq_run_iff {ops ops' : List Operation} (h : BindNoNaN ops)
    (h' : BindNoNaN ops') :
    ((run .empty ops == run .empty ops') = true ↔
      (weave ops).texts = (weave ops').texts ∧
        List.Forall₂ Bound.Same (weave ops).bounds (weave ops').bounds) ∧
    ∀ (start : Beginning) (a b : String),
      ((run start ops).push a).push b = (run start ops).push (a ++ b) ∧
      (((run start ops).push a).push b == (run start ops).push (a ++ b)) = true :=
  ⟨beq_run_iff h h', fun start a b =>
    ⟨(run start ops).push_push a b, beq_push_push start h a b⟩⟩

/-- Text that was cut otherwise, and a zero of the other sign with the same literal, make no
difference; a comma that moves behind the second value does. -/
theorem Operation.run_beq_run_iff_of_recut_text :
    let name : Ident := ⟨"a", by decide⟩
    let zero (negative : Bool) : Value := .float ⟨negative, 0, by decide⟩
    let listed := [push "", pushIdent name, push "b", bindList [.int 1, .text "x"], push "",
      bindVerbatim (zero false) "0"]
    let recut := [push "ab", bind (.int 1), push ",", push " ", bind (.text "x"),
      bindVerbatim (zero true) "0", push ""]
    let moved := [push "ab", bind (.int 1), bind (.text "x"), push ", ",
      bindVerbatim (zero true) "0"]
    (run .empty listed == run .empty recut) = true ∧
    (run .empty listed == run .empty moved) = false ∧
    (((run (.new "") listed).push "").push "b" == (run (.new "") listed).push "b") = true := by
  intro name zero listed recut moved
  have hvalues : ∀ ops negative, (weave ops).bounds.map Bound.value =
      [.int 1, .text "x", zero negative] → BindNoNaN ops := by
    intro ops negative hops b hb x hx
    have hmem := List.mem_map_of_mem (f := Bound.value) hb
    rw [hops, hx] at hmem
    simp only [List.mem_cons, List.not_mem_nil, or_false] at hmem
    obtain hint | htext | hzero := hmem
    · cases hint
    · cases htext
    · cases hzero
      rfl
  have hlisted := hvalues listed false rfl
  obtain ⟨hrecut, hpush⟩ := run_beq_run_iff hlisted (hvalues recut true rfl)
  obtain ⟨hmoved, -⟩ := run_beq_run_iff hlisted (hvalues moved true rfl)
  refine ⟨hrecut.mpr ⟨by decide, ?_⟩, ?_, (hpush (.new "") "" "b").2⟩
  · exact .cons ⟨.inl rfl, rfl, rfl⟩ (.cons ⟨.inl rfl, rfl, rfl⟩
      (.cons ⟨.inr ⟨_, _, rfl, rfl, rfl, rfl⟩, rfl, rfl⟩ .nil))
  · rw [Bool.eq_false_iff, ne_eq, hmoved]
    exact fun h => absurd h.1 (by decide)

end TenantSql
