import Mathlib.Data.List.Forall2
import TenantSql.Client.Session
import TenantSql.Proofs.TracedRun
/-!
# TenantSql.Proofs.SessionRun

What a session sends, and that a connection that was dropped stays closed.

A request that reaches the server brings the text of its statement, and if it gets further the
bytes of its values, each bound to the type that the server declared for its place
(`Exchange.Shows`). It is answered exactly if nothing keeps it from being executed
(`Session.step_answer_eq_ok_iff`). Once a connection is gone no request brings anything
(`Session.Gone`, `Exchange.Unsent`), and one that is answered as closed is gone.

A run of calls is one such exchange for each of them. `Session.Ran` is what one request keeps
(`Ran.cons`), so that all calls do, by induction on them (`Session.runAll_ran`).
-/

namespace TenantSql

variable {ρ : Type}

/-- The bytes of values, each bound to the type of its place. -/
def BoundTo (values : List Value) (types : List PgType) (bytes : List (Option (List UInt8))) :
    Prop :=
  values.length = types.length ∧
    List.Forall₂ (fun x b => x.1.bindChecked x.2 = .ok b) (values.zip types) bytes

namespace Exchange

/-- Nothing reached the server, and the answer is an error of the query. -/
structure Unsent (e : Exchange ρ) : Prop where
  sql : e.sql = none
  params : e.params = none
  answer : ∃ cause, e.answer = .error (.query cause)

/-- What an exchange shows of a request, and of the turn of the server if it has one. The text is
that of the request. The bytes come behind the text, and are those of the request's values. An
answer comes behind the bytes, and is the reply of the server. -/
structure Shows (e : Exchange ρ) (r : Request) (turn? : Option (Turn ρ)) : Prop where
  sql : ∀ text ∈ e.sql, text = r.sql ∧ '\x00' ∉ text.toList
  params : ∀ bytes ∈ e.params,
    e.sql = some r.sql ∧ ∃ turn ∈ turn?, BoundTo r.params turn.types bytes
  answer : ∀ a, e.answer = .ok a →
    e.params.isSome = true ∧ ∃ turn ∈ turn?, (Session.executed r.kind turn.reply).1 = .ok a

theorem Unsent.shows {e : Exchange ρ} (h : e.Unsent) (r : Request) (turn? : Option (Turn ρ)) :
    e.Shows r turn? := by
  obtain ⟨cause, hanswer⟩ := h.answer
  refine ⟨?_, ?_, ?_⟩
  · simp [h.sql]
  · simp [h.params]
  · simp [hanswer]

end Exchange

namespace Session

/-! ### Binding the values -/

theorem bindAll_eq_ok_iff {i : Nat} {values : List Value} {types : List PgType}
    {bytes : List (Option (List UInt8))} (h : values.length = types.length) :
    bindAll i values types = .ok bytes ↔ BoundTo values types bytes := by
  unfold BoundTo
  rw [and_iff_right h]
  induction values generalizing i types bytes with
  | nil =>
    obtain rfl : types = [] := List.length_eq_zero_iff.mp h.symm
    simp [bindAll, eq_comm]
  | cons v vs ih =>
    cases types with
    | nil => cases h
    | cons t ts =>
      have hrest : ∀ rest, bindAll (i + 1) vs ts = .ok rest ↔
          List.Forall₂ (fun x b => x.1.bindChecked x.2 = .ok b) (vs.zip ts) rest :=
        fun rest => ih (Nat.succ.inj h)
      rw [List.zip_cons_cons, List.forall₂_cons_left_iff, bindAll]
      simp only [← hrest]
      cases v.bindChecked t with
      | error e => simp
      | ok b => cases bindAll (i + 1) vs ts <;> simp [eq_comm]

/-! ### One request -/

/-- No request reaches the server any more: the connection was dropped, or the server has no turn
left. -/
def Gone (s : Session ρ) : Prop := s.isOpen = false ∨ s.script = []

theorem ofServer_ne_closed (e : ServerError) : QueryError.ofServer e ≠ .query .closed := by
  unfold QueryError.ofServer
  split <;> simp

/-- An executed statement is answered as closed exactly if the connection is dropped. -/
theorem executed_eq_closed_iff (kind : RequestKind) (reply : ServerReply ρ) :
    (executed kind reply).1 = .error (.query .closed) ↔ (executed kind reply).2 = false := by
  cases reply <;> simp [executed, ofServer_ne_closed]

/-- A request that reaches the server brings its text, and is refused before its values are sent,
or it brings their bytes too and is executed. -/
theorem exchange_cases (turn : Turn ρ) (r : Request) :
    (∃ e isOpen, exchange turn r = (⟨some r.sql, none, .error e⟩, isOpen) ∧
      (e = .query .closed ↔ isOpen = false)) ∨
    ∃ bytes, BoundTo r.params turn.types bytes ∧
      exchange turn r = (⟨some r.sql, some bytes, (executed r.kind turn.reply).1⟩,
        (executed r.kind turn.reply).2) := by
  unfold exchange
  split
  · exact .inl ⟨_, _, rfl, by simp [ofServer_ne_closed]⟩
  · exact .inl ⟨_, _, rfl, by simp⟩
  · split
    · exact .inl ⟨_, _, rfl, by simp⟩
    · rename_i hlength
      have hlength : r.params.length = turn.types.length := (not_not.mp hlength).symm
      cases hbind : bindAll 0 r.params turn.types with
      | error i => exact .inl ⟨_, _, rfl, by simp⟩
      | ok bytes => exact .inr ⟨bytes, (bindAll_eq_ok_iff hlength).mp hbind, rfl⟩

/-- A request does not reach the server, or the next turn of the server is for it. In both cases the
turn is over afterwards. -/
theorem step_cases (s : Session ρ) (r : Request) :
    (∃ e, s.step r = ({ s with script := s.script.drop 1 }, e) ∧ e.Unsent ∧
      (e.answer = .error (.query .closed) → s.Gone)) ∨
    '\x00' ∉ r.sql.toList ∧ s.isOpen = true ∧ ∃ turn rest, s.script = turn :: rest ∧
      s.step r = ({ s with isOpen := (exchange turn r).2, script := rest },
        (exchange turn r).1) := by
  unfold step
  split
  · exact .inl ⟨_, rfl, ⟨rfl, rfl, _, rfl⟩, by simp⟩
  · rename_i hnul
    split
    · rename_i turn rest hopen hscript
      exact .inr ⟨hnul, hopen, turn, rest, hscript, rfl⟩
    · rename_i hgone
      refine .inl ⟨_, rfl, ⟨rfl, rfl, _, rfl⟩, fun _ => ?_⟩
      cases hopen : s.isOpen with
      | false => exact .inl hopen
      | true =>
        cases hscript : s.script with
        | nil => exact .inr hscript
        | cons turn rest => exact (hgone turn rest hopen hscript).elim

section

variable {s : Session ρ} {r : Request}

theorem script_call (s : Session ρ) (r : Request) :
    (client.call s r).1.script = s.script.drop 1 := by
  change (s.step r).1.script = _
  obtain ⟨e, hstep, -⟩ | ⟨-, -, turn, rest, hscript, hstep⟩ := step_cases s r
  · rw [hstep]
  · rw [hstep, hscript]
    rfl

theorem exchanges_call (s : Session ρ) (r : Request) :
    (client.call s r).1.exchanges = (s.step r).2 :: s.exchanges := by
  change (s.step r).2 :: (s.step r).1.exchanges = _
  obtain ⟨e, hstep, -⟩ | ⟨-, -, turn, rest, -, hstep⟩ := step_cases s r
  · rw [hstep]
  · rw [hstep]

theorem shows_exchange (turn : Turn ρ) (hnul : '\x00' ∉ r.sql.toList) :
    (exchange turn r).1.Shows r (some turn) := by
  obtain ⟨e, isOpen, hexchange, -⟩ | ⟨bytes, hbound, hexchange⟩ := exchange_cases turn r
  · rw [hexchange]
    exact ⟨by simp [hnul], by simp, by simp⟩
  · rw [hexchange]
    refine ⟨by simp [hnul], ?_, ?_⟩
    · intro sent hsent
      cases hsent
      exact ⟨rfl, turn, rfl, hbound⟩
    · intro a ha
      exact ⟨rfl, turn, rfl, ha⟩

theorem shows_step (s : Session ρ) (r : Request) : (s.step r).2.Shows r s.script.head? := by
  obtain ⟨e, hstep, hunsent, -⟩ | ⟨hnul, -, turn, rest, hscript, hstep⟩ := step_cases s r
  · rw [hstep]
    exact hunsent.shows r _
  · rw [hstep, hscript]
    exact shows_exchange turn hnul

/-- **A connection that is gone stays gone**, and nothing is sent over it. -/
theorem Gone.step (h : s.Gone) (r : Request) : (s.step r).1.Gone ∧ (s.step r).2.Unsent := by
  obtain ⟨e, hstep, hunsent, -⟩ | ⟨-, hopen, turn, rest, hscript, -⟩ := step_cases s r
  · rw [hstep]
    exact ⟨h.imp_right fun hscript => by simp [hscript], hunsent⟩
  · simp [Gone, hopen, hscript] at h

/-- A request that is answered as closed is the last one that can have reached the server. -/
theorem gone_of_closed (h : (s.step r).2.answer = .error (.query .closed)) :
    (s.step r).1.Gone := by
  obtain ⟨e, hstep, -, hclosed⟩ | ⟨-, -, turn, rest, -, hstep⟩ := step_cases s r
  · rw [hstep] at h
    exact ((hclosed h).step r).1
  · rw [hstep] at h ⊢
    refine .inl ?_
    obtain ⟨e, isOpen, hexchange, hdropped⟩ | ⟨bytes, -, hexchange⟩ := exchange_cases turn r
    · rw [hexchange] at h ⊢
      exact hdropped.mp (Except.error.inj h)
    · rw [hexchange] at h ⊢
      exact (executed_eq_closed_iff _ _).mp h

theorem exchange_answer_eq_ok_iff {turn : Turn ρ} {a : Answer ρ} :
    (exchange turn r).1.answer = .ok a ↔
      (∃ bytes, BoundTo r.params turn.types bytes) ∧ (executed r.kind turn.reply).1 = .ok a := by
  constructor
  · intro h
    obtain ⟨e, isOpen, hexchange, -⟩ | ⟨bytes, hbound, hexchange⟩ := exchange_cases turn r
    · rw [hexchange] at h
      cases h
    · rw [hexchange] at h
      exact ⟨⟨bytes, hbound⟩, h⟩
  · intro h
    obtain ⟨⟨bytes, hbound⟩, hreply⟩ := h
    have hbind : bindAll 0 r.params turn.types = .ok bytes :=
      (bindAll_eq_ok_iff hbound.1).mpr hbound
    obtain ⟨types, reply⟩ := turn
    cases reply with
    | rows rows => simpa [exchange, hbound.1, hbind] using hreply
    | affected n => simpa [exchange, hbound.1, hbind] using hreply
    | failure stage e => cases hreply
    | close stage => cases hreply

/-- A request is answered exactly if its text can be sent over an open connection, the server
declares a type for each of its values, all of them can be bound, and the reply is an answer. -/
theorem step_answer_eq_ok_iff {a : Answer ρ} :
    (s.step r).2.answer = .ok a ↔ '\x00' ∉ r.sql.toList ∧ s.isOpen = true ∧
      ∃ turn ∈ s.script.head?, (∃ bytes, BoundTo r.params turn.types bytes) ∧
        (executed r.kind turn.reply).1 = .ok a := by
  constructor
  · intro h
    obtain ⟨e, hstep, hunsent, -⟩ | ⟨hnul, hopen, turn, rest, hscript, hstep⟩ := step_cases s r
    · obtain ⟨cause, hanswer⟩ := hunsent.answer
      rw [hstep, hanswer] at h
      cases h
    · rw [hstep] at h
      exact ⟨hnul, hopen, turn, by simp [hscript], exchange_answer_eq_ok_iff.mp h⟩
  · intro h
    obtain ⟨hnul, hopen, turn, hturn, hanswer⟩ := h
    cases hscript : s.script with
    | nil => simp [hscript] at hturn
    | cons first rest =>
      obtain rfl : first = turn := by simpa [hscript] using hturn
      simpa [step, hnul, hopen, hscript] using exchange_answer_eq_ok_iff.mpr hanswer

end

/-! ### Runs -/

/-- A session goes from `s` to `s'` by one exchange for each request, with the turn of its place.
Behind a request that was answered as closed nothing is sent, and nothing at all if the connection
was gone before. -/
structure Ran (s s' : Session ρ) (requests : List Request) (news : List (Exchange ρ)) : Prop where
  exchanges : s'.exchanges = news.reverse ++ s.exchanges
  script : s'.script = s.script.drop requests.length
  length : news.length = requests.length
  shows : ∀ (i : Nat) (r : Request) (e : Exchange ρ),
    requests[i]? = some r → news[i]? = some e → e.Shows r s.script[i]?
  closed : news.Pairwise fun e later => e.answer = .error (.query .closed) → later.Unsent
  gone : s.Gone → ∀ e ∈ news, e.Unsent

namespace Ran

theorem nil (s : Session ρ) : s.Ran s [] [] where
  exchanges := rfl
  script := rfl
  length := rfl
  shows := by simp
  closed := .nil
  gone := by simp

/-- One more request in front keeps it. -/
theorem cons {s s' : Session ρ} {r : Request} {requests : List Request} {news : List (Exchange ρ)}
    (h : (client.call s r).1.Ran s' requests news) :
    s.Ran s' (r :: requests) ((s.step r).2 :: news) where
  exchanges := by
    rw [h.exchanges, exchanges_call, List.reverse_cons, List.append_assoc]
    rfl
  script := by
    rw [h.script, script_call, List.drop_drop, List.length_cons, Nat.add_comm]
  length := congrArg Nat.succ h.length
  shows := by
    intro i request e hrequest he
    cases i with
    | zero =>
      cases hrequest
      cases he
      rw [← List.head?_eq_getElem?]
      exact shows_step s r
    | succ i =>
      have hturn : (client.call s r).1.script[i]? = s.script[i + 1]? := by
        rw [script_call, List.getElem?_drop, Nat.add_comm]
      rw [← hturn]
      exact h.shows i request e hrequest he
  closed := List.pairwise_cons.mpr
    ⟨fun later hlater hclosed => h.gone (gone_of_closed hclosed) later hlater, h.closed⟩
  gone := by
    intro hgone e he
    rcases List.mem_cons.mp he with rfl | he
    · exact (hgone.step r).2
    · exact h.gone (hgone.step r).1 e he

end Ran

/-- **A session sends what it is asked to send, and nothing once it is closed.** Whatever calls go
over a connection, there is one exchange for each of them, in their order, and its answer is the
answer of the call. What an exchange shows is the text of its own statement, the bytes of its own
values as the types that the server declared in its turn, and the server's reply. After a call that
is answered as closed nothing reaches the server. -/
theorem runAll_ran (s : Session ρ) (calls : List (RequestKind × Statement)) :
    ∃ news, s.Ran (client.runAll s calls).1 (requestsOf calls) news ∧
      (client.runAll s calls).2 = news.map Exchange.answer := by
  induction calls generalizing s with
  | nil => exact ⟨[], .nil s, rfl⟩
  | cons call rest ih =>
    obtain ⟨kind, st⟩ := call
    obtain ⟨news, hran, hanswers⟩ := ih (client.run s kind st).1
    refine ⟨(s.step (st.request kind)).2 :: news, .cons hran, ?_⟩
    rw [List.map_cons, ← hanswers]
    rfl

end Session

end TenantSql
