import TenantSql.Proofs.TenantIsolation
/-!
# TenantSql.Proofs.BuildOutcome

When a statement is built, when its input is refused, and what is reported about
either.

A query ends in one of two ways (`Query.Ends`): refused without a trace, which only
one condition per kind of query leads to, or built with one event that counts what
went in. Every builder is shown to end so, and what is said of all four is read off
that.
-/

namespace TenantSql

/-! ### Orders by a text that is no name -/

/-- A text is not read as a name exactly if it is none. -/
theorem Ident.exists_parse_eq_error_iff {s : String} :
    (∃ e, parse s = .error e) ↔ isIdent s.toList = false := by
  constructor
  · rintro ⟨e, he⟩
    cases hvalid : isIdent s.toList with
    | false => rfl
    | true =>
      have hok : parse s = .ok _ := parse_text ⟨s, hvalid⟩
      rw [he] at hok
      cases hok
  · intro hinvalid
    cases h : parse s with
    | error e => exact ⟨e, rfl⟩
    | ok name =>
      obtain rfl := parse_eq_ok_iff.mp h
      rw [name.valid] at hinvalid
      cases hinvalid

/-- An order is by a text that is no name exactly if one was asked for: the column that stands in
for a missing one is a name. -/
theorem Reserved.not_isIdent_orderColumn_iff {r : Reserved} :
    (r.hasOrdering = true ∧ isIdent r.orderColumn.toList = false) ↔
      ∃ order, r.order = some order ∧ isIdent order.toList = false := by
  unfold hasOrdering orderColumn
  cases r.order with
  | none =>
    have hid : isIdent ['i', 'd'] = true := by decide
    simp [hid]
  | some order => simp

/-- Reserved keys are refused exactly for such an order; a limit, an offset and a direction may
say anything. -/
theorem Statement.exists_pushReserved_eq_error_iff {st : Statement} {r : Reserved} :
    (∃ e, st.pushReserved r = .error e) ↔
      ∃ order, r.order = some order ∧ isIdent order.toList = false := by
  rw [← Reserved.not_isIdent_orderColumn_iff, ← Ident.exists_parse_eq_error_iff]
  unfold pushReserved
  by_cases hord : r.hasOrdering = true
  · rw [if_pos hord]
    cases Ident.parse r.orderColumn <;> simp [hord]
  · rw [if_neg hord]
    simp [hord]

theorem Params.nonEmpty?_eq_some_iff {params : Params} {key value : String} :
    params.nonEmpty? key = some value ↔ params.get? key = some value ∧ value ≠ "" := by
  simp [nonEmpty?, Option.filter_eq_some_iff]

/-! ### The two ways a query ends -/

namespace Query

/-- What a builder refuses: an order by something that is no name, no rows, keys for a table without
a column of keys, and a threshold for one without a column of times. -/
def Refused (p : Profile) : Query → Prop
  | select params =>
    ∃ order, params.get? "order" = some order ∧ order ≠ "" ∧ isIdent order.toList = false
  | insert rows => rows = []
  | deleteByKeys _ => p.keyColumn = none
  | deleteBefore _ => p.timeColumn = none

/-- What the event of a built statement counts. -/
def counted (st : Statement) : Query → Built
  | select _ => .select st.paramCount
  | insert rows => .insert rows.length
  | deleteByKeys keys => .deleteByKeys keys.length
  | deleteBefore _ => .deleteBefore

/-- Work on a query is over: its input is refused and nothing is reported, or a statement is built
and reported once. -/
inductive Ends (q : Query) (p : Profile) : Logged Statement → Prop where
  | refused (cause : ValidationError) (h : q.Refused p) : Ends q p (.refused cause)
  | built (st : Statement) (h : ¬ q.Refused p) : Ends q p (.built (q.counted st) p.table st)

/-- A selection fails where its reserved keys do: conditions bind whatever they are given. -/
theorem select_refused_iff (p : Profile) (schema : Schema) (params : Params) :
    (∃ e, p.selectStatement schema params = .error e) ↔ (select params).Refused p := by
  have hreserved : ∀ st : Statement, (∃ e, st.pushReserved params.reserved = .error e) ↔
      (select params).Refused p := by
    intro st
    simp only [Statement.exists_pushReserved_eq_error_iff, Refused, Params.reserved,
      Params.nonEmpty?_eq_some_iff, Params.orderKey, and_assoc]
  dsimp only [Profile.selectStatement]
  rw [← hreserved]
  cases Statement.pushReserved _ params.reserved with
  | error e => exact ⟨fun _ => ⟨e, rfl⟩, fun _ => ⟨e, rfl⟩⟩
  | ok st => exact ⟨nofun, nofun⟩

theorem ends_select (p : Profile) (schema : Schema) (params : Params) :
    Ends (select params) p (p.select schema params) := by
  have hrefused := select_refused_iff p schema params
  unfold Profile.select
  cases h : p.selectStatement schema params with
  | error e => exact .refused e (hrefused.mp ⟨e, h⟩)
  | ok st =>
    refine .built st fun hr => ?_
    obtain ⟨e, he⟩ := hrefused.mpr hr
    rw [h] at he
    cases he

theorem ends_insert (p : Profile) (schema : Schema) (rows : List Row) :
    Ends (insert rows) p (p.insert schema rows) := by
  cases rows with
  | nil => exact .refused _ rfl
  | cons row rows => exact .built _ nofun

/-- The keys are counted as they were bound, which is all of them. -/
theorem ends_deleteByKeys (p : Profile) (schema : Schema) (keys : List Value) :
    Ends (deleteByKeys keys) p (p.deleteByKeys schema keys) := by
  unfold Profile.deleteByKeys
  cases hkey : p.keyColumn with
  | none => exact .refused _ hkey
  | some key =>
    have hcount : (p.deleteByKeysStatement schema key keys).paramCount = keys.length := by
      rw [← Statement.length_params, Profile.params_deleteByKeysStatement]
    dsimp only
    rw [hcount]
    exact .built _ fun hr => nomatch hkey.symm.trans hr

theorem ends_deleteBefore (p : Profile) (schema : Schema) (threshold : Value) :
    Ends (deleteBefore threshold) p (p.deleteBefore schema threshold) := by
  unfold Profile.deleteBefore
  cases htime : p.timeColumn with
  | none => exact .refused _ htime
  | some time => exact .built _ fun hr => nomatch htime.symm.trans hr

theorem ends_build (q : Query) (p : Profile) (schema : Schema) :
    Ends q p (q.build p schema) := by
  cases q with
  | select params => exact ends_select p schema params
  | insert rows => exact ends_insert p schema rows
  | deleteByKeys keys => exact ends_deleteByKeys p schema keys
  | deleteBefore threshold => exact ends_deleteBefore p schema threshold

/-- The counter of the event of a statement: of its values for a selection, of the rows or keys it
was made from, and none for a threshold. -/
def counter (st : Statement) : Query → List (String × Field)
  | select _ => [("param_count", .count st.paramCount)]
  | insert rows => [("rows", .count rows.length)]
  | deleteByKeys keys => [("keys", .count keys.length)]
  | deleteBefore _ => []

theorem exists_fields_counted (q : Query) (st : Statement) :
    ∃ message, (q.counted st).fields = q.counter st ++ [("message", .text message)] := by
  cases q <;> exact ⟨_, rfl⟩

end Query

/-- **Builders fail where they say, and without a trace.** An input is refused exactly if it is one
of `Query.Refused`, whatever else was asked for. A refused input is a validation error, and nothing
is reported about it. A built statement is reported once, with the table it is for and a counter of
what went into it. -/
theorem outcome_of_build (q : Query) (p : Profile) (schema : Schema) :
    ((∃ e, (q.build p schema).result = .error e) ↔ q.Refused p) ∧
    (∀ e, (q.build p schema).result = .error e →
      (∃ cause, e = .validation cause) ∧ (q.build p schema).events = []) ∧
    ∀ st, (q.build p schema).result = .ok st →
      ∃ event message, (q.build p schema).events = [event] ∧ event.target = "poolsql.build" ∧
        event.fields = ("table", .text p.table.text) :: q.counter st ++
          [("message", .text message)] := by
  have hends := q.ends_build p schema
  generalize q.build p schema = outcome at hends ⊢
  cases hends with
  | refused cause h =>
    refine ⟨⟨fun _ => h, fun _ => ⟨_, rfl⟩⟩, fun e he => ?_, nofun⟩
    cases he
    exact ⟨⟨cause, rfl⟩, rfl⟩
  | built built h =>
    refine ⟨⟨nofun, fun hr => absurd hr h⟩, nofun, fun st hst => ?_⟩
    cases hst
    obtain ⟨message, hmessage⟩ := q.exists_fields_counted built
    refine ⟨_, message, rfl, rfl, ?_⟩
    rw [Event.fields, hmessage, List.cons_append]

/-- An order that would end the statement, and an empty list of keys. -/
theorem outcome_of_hostile_builds :
    let schema : Schema := ⟨"Pool-Main", by decide, by decide⟩
    let select := Query.select
      ⟨[("type", "x"), ("limit", "ten"), ("order", "id; DROP TABLE x")], by decide⟩
    let delete := Query.deleteByKeys []
    (∃ e cause, (select.build .currentNetwork schema).result = .error e ∧ e = .validation cause ∧
      (select.build .currentNetwork schema).events = []) ∧
    ∃ st event message, (delete.build .currentTransactions schema).result = .ok st ∧
      (delete.build .currentTransactions schema).events = [event] ∧
      event.fields = [("table", .text "current_transactions"), ("keys", .count 0),
        ("message", .text message)] := by
  intro schema select delete
  obtain ⟨hrefused, hquiet, -⟩ := outcome_of_build select .currentNetwork schema
  obtain ⟨e, he⟩ := hrefused.mpr ⟨"id; DROP TABLE x", by decide, by decide, by decide⟩
  obtain ⟨⟨cause, hcause⟩, hevents⟩ := hquiet e he
  have hbuilt : (delete.build .currentTransactions schema).result = .ok _ := rfl
  obtain ⟨-, -, hreported⟩ := outcome_of_build delete .currentTransactions schema
  obtain ⟨event, message, hevent, -, hfields⟩ := hreported _ hbuilt
  exact ⟨⟨e, cause, he, hcause, hevents⟩, _, event, message, hbuilt, hevent, hfields⟩

end TenantSql
