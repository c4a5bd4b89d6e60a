import TenantSql.Proofs.BuildOutcome
import TenantSql.Proofs.SelectMeaning
/-!
# TenantSql.Proofs.AtomicClauses

An order, a limit and an offset are appended all together, or nothing is.

In place the clauses are appended one after the other (`Statement.appendReserved`), and an
error does not take back what was appended before it. That an error leaves nothing behind
is due to where it can come from: only from the column of an order, which is read before
the first clause (`Statement.run_appendReserved_eq_error_iff`). An appending that succeeds
goes on behind the text and the values that are there, and its numbers go on behind theirs.
-/

namespace TenantSql

/-- The number of a limit or an offset as it is bound: as it was written, without a cast. -/
def Reserved.bound (raw : String) : Bound := ⟨.parseNumeric raw, raw, none⟩

/-- The numbers of a limit and an offset, as far as there are any. -/
def Reserved.numbers (r : Reserved) : List String := r.limit.toList ++ r.offset.toList

namespace Statement

variable {st st' : Statement} {r : Reserved}

/-! ### In place and as a value -/

/-- An outcome in place. An error leaves the statement that was there. -/
def inPlace (st : Statement) :
    Except ValidationError Statement → EStateM.Result ValidationError Statement Unit
  | .ok st' => .ok () st'
  | .error e => .error e st

theorem run_appendReserved (st : Statement) (r : Reserved) :
    (appendReserved r).run st = st.inPlace (st.pushReserved r) := by
  unfold appendReserved pushReserved
  by_cases hord : r.hasOrdering = true
  · -- The column is read before the first clause, so its error finds the statement as it was.
    rw [if_pos hord, if_pos hord]
    cases Ident.parse r.orderColumn with
    | ok column => rfl
    | error e => rfl
  · rw [if_neg hord, if_neg hord]
    rfl

/-- In place the same statement comes out. -/
theorem run_appendReserved_eq_ok_iff :
    (appendReserved r).run st = .ok () st' ↔ st.pushReserved r = .ok st' := by
  rw [run_appendReserved]
  cases st.pushReserved r with
  | ok st'' => simp [inPlace]
  | error e => simp [inPlace]

/-- In place the same error comes out, with the statement as it was. -/
theorem run_appendReserved_eq_error_iff {e : ValidationError} :
    (appendReserved r).run st = .error e st' ↔ st' = st ∧ st.pushReserved r = .error e := by
  rw [run_appendReserved]
  cases st.pushReserved r with
  | ok st'' => simp [inPlace]
  | error e' => simp [inPlace, and_comm, eq_comm]

/-- An error is what keeps the column of an order from being a name. -/
theorem parse_of_pushReserved_eq_error {e : ValidationError} (h : st.pushReserved r = .error e) :
    Ident.parse r.orderColumn = .error e := by
  unfold pushReserved at h
  split at h
  · split at h
    · cases h
    · rename_i e' hcolumn
      cases h
      exact hcolumn
  · cases h

/-! ### What is appended -/

theorem bounds_pushNumber (st : Statement) (keyword : String) (raw : Option String) :
    (st.pushNumber keyword raw).bounds.reverse =
      st.bounds.reverse ++ raw.toList.map Reserved.bound := by
  cases raw with
  | none => exact (List.append_nil _).symm
  | some raw => exact List.reverse_cons

theorem bounds_pushPaging (st : Statement) (r : Reserved) :
    (st.pushPaging r).bounds.reverse = st.bounds.reverse ++ r.numbers.map Reserved.bound := by
  rw [pushPaging, bounds_pushNumber, bounds_pushNumber, List.append_assoc, Reserved.numbers,
    List.map_append]

/-- The values that are there stay, with their literals and casts, and the numbers come behind. -/
theorem bounds_of_pushReserved (h : st.pushReserved r = .ok st') :
    st'.bounds.reverse = st.bounds.reverse ++ r.numbers.map Reserved.bound := by
  unfold pushReserved at h
  split at h
  · split at h
    · cases h
      exact bounds_pushPaging _ r
    · cases h
  · cases h
    exact bounds_pushPaging st r

/-- The text that is there stays under every rendering that is known on the numbers, and the clauses
come behind. -/
theorem rendered_of_pushReserved_eq (render : Nat → Bound → String) (number : Nat → String → String)
    (hnumber : ∀ k raw, render k (Reserved.bound raw) = number k raw)
    (h : st.pushReserved r = .ok st') :
    st'.rendered render = st.rendered render ++ r.orderText ++
      numberClause " LIMIT " (r.limit.map (number (st.paramCount + 1))) ++
      numberClause " OFFSET "
        (r.offset.map (number (st.paramCount + r.limit.toList.length + 1))) := by
  rw [(rendered_of_pushReserved render h).2, Reserved.pagingText,
    Reserved.numberText_eq (hnumber _), Reserved.numberText_eq (hnumber _), ← String.append_assoc,
    Nat.add_right_comm]

end Statement

/-- **Reserved keys are appended all together or not at all.** Appending fails exactly if an order
is asked for by something that is no name. Then the statement is as it was, whatever the limit and
the offset are, and the error says what keeps the column from being a name. If it succeeds, both
texts go on behind what was there: with the order, then with the limit, whose placeholder has the
first number that is free, then with the offset, which has the next. The values that were there stay
as they are, with their literals and casts, and the numbers of the limit and the offset come behind
them. -/
theorem Statement.appendReserved_atomic (st : Statement) (r : Reserved) :
    ((∃ e st', (appendReserved r).run st = .error e st') ↔
      r.hasOrdering = true ∧ isIdent r.orderColumn.toList = false) ∧
    (∀ e st', (appendReserved r).run st = .error e st' →
      st' = st ∧ Ident.parse r.orderColumn = .error e) ∧
    ∀ st', (appendReserved r).run st = .ok () st' →
      let placeholder (k : Nat) (_ : String) := "$" ++ natText k
      st'.sql = st.sql ++ r.orderText ++
        numberClause " LIMIT " (r.limit.map (placeholder (st.paramCount + 1))) ++
        numberClause " OFFSET "
          (r.offset.map (placeholder (st.paramCount + r.limit.toList.length + 1))) ∧
      st'.literalSql = st.literalSql ++ r.orderText ++ numberClause " LIMIT " r.limit ++
        numberClause " OFFSET " r.offset ∧
      st'.bounds.reverse = st.bounds.reverse ++ r.numbers.map Reserved.bound ∧
      st'.params = st.params ++ r.numbers.map .parseNumeric := by
  refine ⟨?_, fun e st' h => ?_, fun st' h => ?_⟩
  · have hrefused : (∃ e, st.pushReserved r = .error e) ↔ _ := exists_pushReserved_eq_error_iff
    rw [Reserved.not_isIdent_orderColumn_iff, ← hrefused]
    simp only [run_appendReserved_eq_error_iff, exists_and_right, exists_eq, true_and]
  · obtain ⟨hst, he⟩ := run_appendReserved_eq_error_iff.mp h
    exact ⟨hst, parse_of_pushReserved_eq_error he⟩
  · have hok := run_appendReserved_eq_ok_iff.mp h
    refine ⟨?_, ?_, bounds_of_pushReserved hok, ?_⟩
    · exact rendered_of_pushReserved_eq Bound.placeholder (fun k _ => "$" ++ natText k)
        (fun _ _ => String.append_empty) hok
    · have htext := rendered_of_pushReserved_eq (fun _ b => b.literal) (fun _ raw => raw)
        (fun _ _ => rfl) hok
      rw [Option.map_id', Option.map_id'] at htext
      exact htext
    · rw [params_of_pushReserved hok, Reserved.numbers, List.map_append, List.append_assoc]

/-- A statement with a value of its own: an order by a text that ends the statement leaves it as it
is, limit and offset notwithstanding; an order by a name goes behind it, and the limit and the
offset have the next two numbers. -/
theorem Statement.appendReserved_atomic_of_hostile_order :
    let st := ((Statement.new "SELECT * FROM t WHERE a = ").bind (.text "x")).push " -- $2"
    (∃ e, (appendReserved ⟨some "id; DROP TABLE t", none, some "5", some "6"⟩).run st =
        .error e st ∧ e.message = "Invalid character in identifier 'id; DROP TABLE t': ';'") ∧
    ∃ st', (appendReserved ⟨none, some "ascending", some "1.5", some ""⟩).run st = .ok () st' ∧
      st'.sql = "SELECT * FROM t WHERE a = $1 -- $2 ORDER BY id ASC LIMIT $2 OFFSET $3" ∧
      st'.literalSql = "SELECT * FROM t WHERE a = 'x' -- $2 ORDER BY id ASC LIMIT 1.5 OFFSET " ∧
      st'.params = [.text "x", .parseNumeric "1.5", .parseNumeric ""] := by
  intro st
  constructor
  · obtain ⟨hfails, hunchanged, -⟩ :=
      appendReserved_atomic st ⟨some "id; DROP TABLE t", none, some "5", some "6"⟩
    obtain ⟨e, st', h⟩ := hfails.mpr ⟨rfl, by decide⟩
    obtain ⟨rfl, he⟩ := hunchanged e st' h
    have hparse : Ident.parse "id; DROP TABLE t" = .error (.identChar "id; DROP TABLE t" ';') := by
      rfl
    cases he.symm.trans hparse
    exact ⟨_, h, by decide +kernel⟩
  · obtain ⟨hfails, -, hsucceeds⟩ :=
      appendReserved_atomic st ⟨none, some "ascending", some "1.5", some ""⟩
    have hrun : (appendReserved ⟨none, some "ascending", some "1.5", some ""⟩).run st =
        .ok () _ := rfl
    obtain ⟨hsql, hliteral, -, hparams⟩ := hsucceeds _ hrun
    exact ⟨_, hrun, hsql.trans (by decide +kernel), hliteral.trans (by decide +kernel), hparams⟩

end TenantSql
