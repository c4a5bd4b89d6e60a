import Mathlib.Data.List.Forall2
import TenantSql.Proofs.TracedRun
import TenantSql.Statement.Select
import TenantSql.Statement.Write
/-!
# TenantSql.Proofs.ValueBlind

Bound values reach neither the text of a statement nor the log. This is a law about
two runs: inputs that agree in their shape, and may hold any values otherwise,
lead to results that cannot be told apart by text, errors and events.

The relation that carries the argument is `Statement.Alike`: the same parts, and
the same casts, at values that may differ. Every operation keeps it, and the text
and the count of values depend on nothing else.
-/

namespace TenantSql

/-! ### Inputs of the same shape

What a value may show is listed here, and nothing else of it shows: the comparison that a numeric
parameter asks for, whether its number has a fraction and so needs a cast, the order that is asked
for, and whether there are a limit and an offset.
-/

/-- Two conditions on one column, with one comparison, on values that both have fractions or both
have none. -/
structure Filter.Alike (f g : Filter) : Prop where
  column : f.column = g.column
  op : f.op = g.op
  fractional : f.value.isFractional = g.value.isFractional

/-- Two texts ask for one comparison on a column and both have fractions or both have none. Texts
for a column of text are always alike. -/
def ColumnKind.AlikeRaw : ColumnKind → String → String → Prop
  | numeric, raw, raw' =>
    (CompareOp.read raw).1 = (CompareOp.read raw').1 ∧
      (Value.parseNumeric (CompareOp.read raw).2).isFractional =
        (Value.parseNumeric (CompareOp.read raw').2).isFractional
  | generic, raw, raw' =>
    (Value.parseNumeric raw).isFractional = (Value.parseNumeric raw').isFractional
  | string, _, _ => True

/-- Two pairs of one key, with alike texts if the key is a declared column. -/
structure Profile.AlikePair (p : Profile) (x y : String × String) : Prop where
  key : x.1 = y.1
  raw : ∀ kind, p.kindOf? x.1 = some kind → kind.AlikeRaw x.2 y.2

/-- Two readings of the reserved keys that ask for one order, and both for a limit or neither, and
both for an offset or neither. -/
structure Reserved.Alike (r r' : Reserved) : Prop where
  hasOrdering : r.hasOrdering = r'.hasOrdering
  orderColumn : r.orderColumn = r'.orderColumn
  isAscending : r.isAscending = r'.isAscending
  limit : r.limit.isSome = r'.limit.isSome
  offset : r.offset.isSome = r'.offset.isSome

/-- Two lists of parameters of the same shape for a table. -/
structure Profile.AlikeParams (p : Profile) (params params' : Params) : Prop where
  pairs : List.Forall₂ p.AlikePair params.pairs params'.pairs
  reserved : params.reserved.Alike params'.reserved

theorem Filter.Alike.cast_bound {f g : Filter} (h : f.Alike g) : f.bound.cast = g.bound.cast := by
  rw [bound, bound, h.fractional]

theorem Filter.alike_parse (column : String) {kind : ColumnKind} {raw raw' : String}
    (h : kind.AlikeRaw raw raw') : (parse column kind raw).Alike (parse column kind raw') := by
  cases kind with
  | numeric => exact ⟨rfl, h.1, h.2⟩
  | string => exact ⟨rfl, rfl, rfl⟩
  | generic => exact ⟨rfl, rfl, h⟩

/-- Parameters of the same shape put alike conditions on a table. -/
theorem Profile.alike_filters {p : Profile} {params params' : Params}
    (h : List.Forall₂ p.AlikePair params.pairs params'.pairs) :
    List.Forall₂ Filter.Alike (p.filters params) (p.filters params') := by
  refine List.rel_filterMap ?_ h
  rintro ⟨key, raw⟩ ⟨key', raw'⟩ ⟨hkey, hraw⟩
  obtain rfl : key = key' := hkey
  cases hc : p.column? key with
  | none => simp [hc]
  | some c =>
    have halike := hraw c.kind (by simp [kindOf?, hc])
    simpa [hc] using Filter.alike_parse c.name.text halike

/-! ### Statements that differ in values only -/

/-- Two statements with the same parts and casts; values and their literals may differ. -/
structure Statement.Alike (a b : Statement) : Prop where
  parts : a.parts = b.parts
  casts : a.bounds.map Bound.cast = b.bounds.map Bound.cast

/-- A placeholder shows the cast of its value and nothing else. -/
theorem Bound.placeholder_congr (k : Nat) {b c : Bound} (h : b.cast = c.cast) :
    b.placeholder k = c.placeholder k := by
  rw [placeholder, placeholder, h]

theorem Part.rendered_placeholder_congr (number : Nat) (parts : List Part) {bs cs : List Bound}
    (h : bs.map Bound.cast = cs.map Bound.cast) :
    rendered Bound.placeholder number parts bs = rendered Bound.placeholder number parts cs := by
  induction parts generalizing number bs cs with
  | nil => rfl
  | cons part parts ih =>
    cases part with
    | raw text => rw [rendered, rendered, ih number h]
    | place =>
      cases bs with
      | nil =>
        obtain rfl : cs = [] := by simpa using h.symm
        rfl
      | cons b bs =>
        cases cs with
        | nil => cases h
        | cons c cs =>
          obtain ⟨hcast, htail⟩ := List.cons.inj h
          rw [rendered, rendered, ih (number + 1) htail, Bound.placeholder_congr _ hcast]

namespace Statement.Alike

variable {a b : Statement}

theorem refl (a : Statement) : a.Alike a := ⟨rfl, rfl⟩

theorem sql_eq (h : a.Alike b) : a.sql = b.sql := by
  rw [sql, sql, rendered, rendered, h.parts]
  refine Part.rendered_placeholder_congr 1 b.parts.reverse ?_
  rw [List.map_reverse, List.map_reverse, h.casts]

theorem paramCount_eq (h : a.Alike b) : a.paramCount = b.paramCount := by
  simpa [paramCount] using congrArg List.length h.casts

theorem push (h : a.Alike b) (text : String) : (a.push text).Alike (b.push text) :=
  ⟨congrArg (Part.push text) h.parts, h.casts⟩

theorem pushIdent (h : a.Alike b) (name : Ident) : (a.pushIdent name).Alike (b.pushIdent name) :=
  h.push name.text

theorem pushBound (h : a.Alike b) {x y : Bound} (hcast : x.cast = y.cast) :
    (a.pushBound x).Alike (b.pushBound y) :=
  ⟨congrArg (Part.place :: ·) h.parts, congrArg₂ List.cons hcast h.casts⟩

theorem bind (h : a.Alike b) (v w : Value) : (a.bind v).Alike (b.bind w) :=
  h.pushBound rfl

/-! ### Lists of values

Two lists are related by any relation of their members, so that what is kept of it is the length. -/

section Lists

variable {R : Value → Value → Prop}

theorem bindRest (h : a.Alike b) {vs ws : List Value} (hvs : List.Forall₂ R vs ws) :
    (a.bindRest vs).Alike (b.bindRest ws) := by
  induction hvs generalizing a b with
  | nil => exact h
  | cons _ _ ih => exact ih ((h.push ", ").bind _ _)

theorem bindList (h : a.Alike b) {vs ws : List Value} (hvs : List.Forall₂ R vs ws) :
    (a.bindList vs).Alike (b.bindList ws) := by
  cases hvs with
  | nil => exact h.push "NULL"
  | cons _ hrest => exact (h.bind _ _).bindRest hrest

theorem pushValues (lead : String) (h : a.Alike b) {vs ws : List Value}
    (hvs : List.Forall₂ R vs ws) : (a.pushValues lead vs).Alike (b.pushValues lead ws) := by
  induction hvs generalizing a b lead with
  | nil => exact h
  | cons _ _ ih => exact ih "," (((h.push lead).push Layout.nested).bind _ _)

theorem pushTuples (lead : String) (h : a.Alike b) {tuples tuples' : List (List Value)}
    (htuples : List.Forall₂ (List.Forall₂ R) tuples tuples') :
    (a.pushTuples lead tuples).Alike (b.pushTuples lead tuples') := by
  induction htuples generalizing a b lead with
  | nil => exact h
  | cons htuple _ ih => exact ih ", " ((((h.push lead).push "(").pushValues "" htuple).push ")")

end Lists

/-! ### The rest of an insertion -/

theorem pushAssignments (lead : String) (h : a.Alike b) (columns : List Ident) :
    (a.pushAssignments lead columns).Alike (b.pushAssignments lead columns) := by
  induction columns generalizing a b lead with
  | nil => exact h
  | cons c rest ih =>
    have hname := ((h.push lead).push Layout.nested).pushIdent c
    exact ih "," ((hname.push " = EXCLUDED.").pushIdent c)

theorem pushOnConflict (h : a.Alike b) (rule : OnConflict) :
    (a.pushOnConflict rule).Alike (b.pushOnConflict rule) := by
  cases rule with
  | doNothing returning => exact (h.push "DO NOTHING RETURNING ").pushIdent returning
  | doUpdate columns => exact (h.push "DO UPDATE SET").pushAssignments "" columns

/-! ### Conditions and reserved keys -/

theorem pushConditions (lead : String) (h : a.Alike b) {fs gs : List Filter}
    (hfs : List.Forall₂ Filter.Alike fs gs) :
    (a.pushConditions lead fs).Alike (b.pushConditions lead gs) := by
  induction hfs generalizing a b lead with
  | nil => exact h
  | @cons f g _ _ hfilter _ ih =>
    refine ih " AND " ?_
    rw [Filter.appendTo, Filter.appendTo, hfilter.column, hfilter.op]
    have hcolumn := ((h.push lead).push g.column).push " "
    exact ((hcolumn.push g.op.sql).push " ").pushBound hfilter.cast_bound

theorem pushNumber (h : a.Alike b) (keyword : String) {raw raw' : Option String}
    (hraw : raw.isSome = raw'.isSome) :
    (a.pushNumber keyword raw).Alike (b.pushNumber keyword raw') := by
  cases raw <;> cases raw'
  · exact h
  · cases hraw
  · cases hraw
  · exact (h.push keyword).pushBound rfl

theorem pushPaging (h : a.Alike b) {r r' : Reserved} (hr : r.Alike r') :
    (a.pushPaging r).Alike (b.pushPaging r') :=
  (h.pushNumber " LIMIT " hr.limit).pushNumber " OFFSET " hr.offset

theorem pushOrder (h : a.Alike b) (column : Ident) (ascending : Bool) :
    (a.pushOrder column ascending).Alike (b.pushOrder column ascending) :=
  ((h.push " ORDER BY ").pushIdent column).push _

/-- Reserved keys are refused for one reason, or appended to alike statements. -/
theorem pushReserved (h : a.Alike b) {r r' : Reserved} (hr : r.Alike r') :
    (∃ e, a.pushReserved r = .error e ∧ b.pushReserved r' = .error e) ∨
      ∃ c d, a.pushReserved r = .ok c ∧ b.pushReserved r' = .ok d ∧ c.Alike d := by
  unfold Statement.pushReserved
  rw [hr.hasOrdering, hr.orderColumn, hr.isAscending]
  split
  · split
    · exact .inr ⟨_, _, rfl, rfl, (h.pushOrder _ _).pushPaging hr⟩
    · exact .inl ⟨_, rfl, rfl⟩
  · exact .inr ⟨_, _, rfl, rfl, h.pushPaging hr⟩

end Statement.Alike

/-! ### What can be seen of a build -/

/-- Two builds that look the same: one error or one text, the same events, and the same reports by
clients that trace in the same way, whatever is behind the clients. -/
structure Logged.LooksLike (l l' : Logged Statement) : Prop where
  events : l.events = l'.events
  text : l.result.map Statement.sql = l'.result.map Statement.sql
  reports : ∀ st st', l.result = .ok st → l'.result = .ok st' →
    ∀ {σ τ ρ ρ' : Type} (c : Client σ ρ) (c' : Client τ ρ') (s : σ) (s' : τ) (tracer : Tracer)
      (tag : Option String) (before : List Event) (kind kind' : RequestKind),
      ((c.traced tracer tag).run (s, before) kind st).1.2 =
        ((c'.traced tracer tag).run (s', before) kind' st').1.2

namespace Logged.LooksLike

theorem refused (cause : ValidationError) : (Logged.refused cause).LooksLike (.refused cause) :=
  ⟨rfl, rfl, fun _ _ h => by cases h⟩

theorem built {st st' : Statement} (h : st.Alike st') (what : Built) (table : Ident) :
    (Logged.built what table st).LooksLike (.built what table st') := by
  refine ⟨rfl, congrArg Except.ok h.sql_eq, ?_⟩
  intro u u' hu hu' σ τ ρ ρ' c c' s s' tracer tag before kind kind'
  cases hu
  cases hu'
  rw [Client.run_traced, Client.run_traced, h.sql_eq, h.paramCount_eq]

end Logged.LooksLike

namespace Profile

variable (p : Profile) (schema : Schema)

theorem select_looksLike {params params' : Params} (h : p.AlikeParams params params') :
    (p.select schema params).LooksLike (p.select schema params') := by
  have hfilters := (Statement.Alike.refl ((Statement.new "SELECT * FROM ").pushTable schema
    p.table)).pushConditions " WHERE " (alike_filters h.pairs)
  unfold select selectStatement Statement.pushFilters
  rcases hfilters.pushReserved h.reserved with ⟨e, he, he'⟩ | ⟨c, d, hc, hd, halike⟩
  · simp only [he, he']
    exact .refused e
  · simp only [hc, hd]
    have hdone := halike.push ";"
    change (Logged.built (.select (c.push ";").paramCount) p.table (c.push ";")).LooksLike
      (Logged.built (.select (d.push ";").paramCount) p.table (d.push ";"))
    rw [hdone.paramCount_eq]
    exact .built hdone _ _

/-- Any two lists of one length are related by a relation that always holds. -/
theorem forall₂_true_of_length_eq {α : Type} {as bs : List α} (h : as.length = bs.length) :
    List.Forall₂ (fun _ _ => True) as bs :=
  List.forall₂_iff_zip.mpr ⟨h, fun _ => trivial⟩

theorem forall₂_tuples {rows rows' : List Row} (h : rows.length = rows'.length) :
    List.Forall₂ (List.Forall₂ fun _ _ => True) (rows.map p.tuple) (rows'.map p.tuple) := by
  refine List.rel_map (R := fun _ _ => True) (fun r r' _ => ?_) (forall₂_true_of_length_eq h)
  exact forall₂_true_of_length_eq (by simp [tuple])

theorem insertStatement_alike {rows rows' : List Row} (h : rows.length = rows'.length) :
    (p.insertStatement schema rows).Alike (p.insertStatement schema rows') := by
  unfold insertStatement
  refine Statement.Alike.push ?_ ";"
  refine Statement.Alike.pushOnConflict ?_ p.onConflict
  refine Statement.Alike.push ?_ Layout.line
  refine Statement.Alike.pushIdent ?_ p.uniqueConstraint
  refine Statement.Alike.push ?_ "ON CONFLICT ON CONSTRAINT "
  refine Statement.Alike.push ?_ Layout.line
  exact (Statement.Alike.refl _).pushTuples "" (p.forall₂_tuples h)

theorem insert_looksLike {rows rows' : List Row} (h : rows.length = rows'.length) :
    (p.insert schema rows).LooksLike (p.insert schema rows') := by
  have hempty : rows.isEmpty = rows'.isEmpty := by
    rw [Bool.eq_iff_iff, List.isEmpty_iff_length_eq_zero, List.isEmpty_iff_length_eq_zero, h]
  unfold insert
  rw [hempty, h]
  split
  · exact .refused _
  · exact .built (p.insertStatement_alike schema h) _ _

theorem deleteByKeys_looksLike {keys keys' : List Value} (h : keys.length = keys'.length) :
    (p.deleteByKeys schema keys).LooksLike (p.deleteByKeys schema keys') := by
  unfold deleteByKeys
  split
  · exact .refused _
  · rename_i key _
    have halike : (p.deleteByKeysStatement schema key keys).Alike
        (p.deleteByKeysStatement schema key keys') :=
      ((Statement.Alike.refl _).bindList (forall₂_true_of_length_eq h)).push ");"
    dsimp only
    rw [halike.paramCount_eq]
    exact .built halike _ _

theorem deleteBefore_looksLike (threshold threshold' : Value) :
    (p.deleteBefore schema threshold).LooksLike (p.deleteBefore schema threshold') := by
  unfold deleteBefore
  split
  · exact .refused _
  · exact .built (((Statement.Alike.refl _).bind threshold threshold').push ";") _ _

end Profile

/-- **Values are never shown.** Whatever is built for a table of a tenant, two inputs of one shape
look the same in text, errors and events: a selection shows the shape of its parameters, an
insertion the number of its rows, a deletion by keys the number of its keys, and a deletion before
a threshold nothing of it. -/
theorem builds_look_alike (p : Profile) (schema : Schema) :
    (∀ params params', p.AlikeParams params params' →
      (p.select schema params).LooksLike (p.select schema params')) ∧
    (∀ rows rows' : List Row, rows.length = rows'.length →
      (p.insert schema rows).LooksLike (p.insert schema rows')) ∧
    (∀ keys keys' : List Value, keys.length = keys'.length →
      (p.deleteByKeys schema keys).LooksLike (p.deleteByKeys schema keys')) ∧
    ∀ threshold threshold' : Value,
      (p.deleteBefore schema threshold).LooksLike (p.deleteBefore schema threshold') :=
  ⟨fun _ _ => p.select_looksLike schema, fun _ _ => p.insert_looksLike schema,
    fun _ _ => p.deleteByKeys_looksLike schema, p.deleteBefore_looksLike schema⟩

/-- Two thresholds and two types, of which one is made to break out, and two batches of one row. -/
theorem hostile_builds_look_alike :
    let schema : Schema := ⟨"a", by decide, by decide⟩
    let p := Profile.currentTransactions
    let params : Params :=
      ⟨[("timestamp", "gt1.5"), ("type", "pool"), ("limit", "5")], by decide⟩
    let params' : Params :=
      ⟨[("timestamp", "gt0.1e-3"), ("type", "' OR 1=1; --"), ("limit", "x")], by decide⟩
    (p.AlikeParams params params' ∧
      (p.select schema params).LooksLike (p.select schema params')) ∧
    (p.insert schema [.empty]).LooksLike
      (p.insert schema [Row.empty.set "round" (.text "'); DROP TABLE t; --")]) ∧
    (p.deleteByKeys schema [.text "r1"]).LooksLike (p.deleteByKeys schema [.text "'"]) ∧
    (p.deleteBefore schema (.text "0")).LooksLike (p.deleteBefore schema (.text "';")) := by
  intro schema p params params'
  obtain ⟨hselect, hinsert, hkeys, hbefore⟩ := builds_look_alike p schema
  have halike : p.AlikeParams params params' := by
    refine ⟨.cons ⟨rfl, ?_⟩ (.cons ⟨rfl, ?_⟩ (.cons ⟨rfl, ?_⟩ .nil)), rfl, rfl, rfl, rfl, rfl⟩
    · intro kind hkind
      obtain rfl : ColumnKind.numeric = kind := Option.some.inj hkind
      exact ⟨by decide, by decide +kernel⟩
    · intro kind hkind
      obtain rfl : ColumnKind.string = kind := Option.some.inj hkind
      trivial
    · intro kind hkind
      cases hkind
  exact ⟨⟨halike, hselect _ _ halike⟩, hinsert _ _ rfl, hkeys _ _ rfl, hbefore _ _⟩

end TenantSql
