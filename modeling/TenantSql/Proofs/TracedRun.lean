import TenantSql.Client.Basic
/-!
# TenantSql.Proofs.TracedRun

Tracing changes nothing but the log.

One call through a traced client is the call on the client behind it, with one event more
(`run_traced`). By induction a run of calls is the run behind it, with one event for each call
(`runAll_traced`), whatever the client behind it answers and remembers. For a backend that
answers by the requests so far, the memory is the list of the requests that reached it, so that
the same requests reach it with tracing and without (`tracing_is_transparent`).
-/

namespace TenantSql

/-- The requests that calls hand over. -/
def requestsOf (calls : List (RequestKind × Statement)) : List Request :=
  calls.map fun call => call.2.request call.1

/-- The events that a traced client reports of calls. -/
def Tracer.eventsOf (tracer : Tracer) (tag : Option String)
    (calls : List (RequestKind × Statement)) : List Event :=
  calls.map fun call => tracer.event tag call.2.sql call.2.paramCount

namespace Client

variable {σ ρ : Type}

/-! ### One call -/

/-- A traced call is the call itself, behind one event that does not depend on how it ends. -/
theorem run_traced (tracer : Tracer) (tag : Option String) (c : Client σ ρ) (s : σ)
    (events : List Event) (kind : RequestKind) (st : Statement) :
    (c.traced tracer tag).run (s, events) kind st =
      (((c.run s kind st).1, events ++ [tracer.event tag st.sql st.paramCount]),
        (c.run s kind st).2) := by
  rw [← st.length_params]
  rfl

theorem run_ofHistory (answer : List Request → Except QueryError (Answer ρ))
    (history : List Request) (kind : RequestKind) (st : Statement) :
    (ofHistory answer).run history kind st =
      (history ++ [st.request kind], answer (history ++ [st.request kind])) := rfl

/-! ### Runs -/

/-- A traced run is the run itself, with one event for each call in the order of the calls. -/
theorem runAll_traced (tracer : Tracer) (tag : Option String) (c : Client σ ρ) (s : σ)
    (events : List Event) (calls : List (RequestKind × Statement)) :
    (c.traced tracer tag).runAll (s, events) calls =
      (((c.runAll s calls).1, events ++ tracer.eventsOf tag calls), (c.runAll s calls).2) := by
  induction calls generalizing s events with
  | nil => simp [runAll, Tracer.eventsOf]
  | cons call calls ih =>
    obtain ⟨kind, st⟩ := call
    simp [runAll, run_traced, ih, Tracer.eventsOf]

/-- A backend that answers by the requests so far has seen each request once and in order, and has
answered each by the requests up to it. -/
theorem runAll_ofHistory (answer : List Request → Except QueryError (Answer ρ))
    (history : List Request) (calls : List (RequestKind × Statement)) :
    (ofHistory answer).runAll history calls =
      (history ++ requestsOf calls, (List.range calls.length).map fun k =>
        answer (history ++ (requestsOf calls).take (k + 1))) := by
  induction calls generalizing history with
  | nil => simp [runAll, requestsOf]
  | cons call calls ih =>
    obtain ⟨kind, st⟩ := call
    simp [runAll, run_ofHistory, ih, requestsOf, List.range_succ_eq_map]

/-- **Tracing is transparent and complete.** Whatever a backend answers by the requests so far,
calls that go through a traced client reach it as the same requests as without, each of them once
and in order, and bring the same answers and errors. The client reports one event for each call, in
their order and whether or not the call fails: with its tag, the number of values and the text of
the statement as far as the tracer shows it. -/
theorem tracing_is_transparent (answer : List Request → Except QueryError (Answer ρ))
    (tracer : Tracer) (tag : Option String) (history : List Request) (events : List Event)
    (calls : List (RequestKind × Statement)) :
    let direct := (ofHistory answer).runAll history calls
    let traced := ((ofHistory answer).traced tracer tag).runAll (history, events) calls
    traced.1.1 = direct.1 ∧ traced.2 = direct.2 ∧
    direct.1 = history ++ calls.map (fun call => ⟨call.1, call.2.sql, call.2.params⟩) ∧
    direct.2 = (List.range calls.length).map
      (fun k => answer (direct.1.take (history.length + (k + 1)))) ∧
    ∃ reported, traced.1.2 = events ++ reported ∧
      reported.map (fun e => (e.target, e.level, e.fields)) =
        calls.map fun call => ("poolsql.sql", tracer.level,
          [("tag", .text (tag.getD "-")), ("param_count", .count call.2.paramCount),
            ("sql", .text (tracer.truncate call.2.sql))]) := by
  intro direct traced
  have htraced : traced = ((direct.1, events ++ tracer.eventsOf tag calls), direct.2) :=
    runAll_traced tracer tag _ history events calls
  have hdirect : direct.1 = history ++ requestsOf calls :=
    congrArg Prod.fst (runAll_ofHistory answer history calls)
  have hanswers : direct.2 = (List.range calls.length).map
      fun k => answer (history ++ (requestsOf calls).take (k + 1)) :=
    congrArg Prod.snd (runAll_ofHistory answer history calls)
  refine ⟨by rw [htraced], by rw [htraced], hdirect, ?_, tracer.eventsOf tag calls,
    by rw [htraced], ?_⟩
  · rw [hanswers, hdirect]
    simp [List.take_length_add_append]
  · simp [Tracer.eventsOf, Tracer.event, Tracer.noTag, Event.target, Event.level, Event.fields]

end Client

end TenantSql
