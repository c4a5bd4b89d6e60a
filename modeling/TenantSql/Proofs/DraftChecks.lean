import Mathlib.Data.List.Induction
import Mathlib.Data.List.Nodup
import Mathlib.Data.List.Perm.Basic
import TenantSql.Profile.Draft
/-!
# TenantSql.Proofs.DraftChecks

Which calls describe a table, and the profile that they describe.

Calls only record, so a draft holds all columns in their order and, of every other
kind of call, what the last one says (`Draft.ofCalls_eq`). Each check of the draft
accepts exactly what its `_eq_ok_iff` says, whatever the other checks do; a profile is
built from a draft exactly if it fits it (`Draft.build_eq_ok_iff`).

`Buildable` says the same of the calls, without a profile.
-/

namespace TenantSql

/-! ### What calls say -/

namespace DraftCall

/-- The column that a call declares. -/
def column? : DraftCall → Option (String × ColumnKind)
  | column name kind => some (name, kind)
  | _ => none

/-- The line breaks that a call asks for. -/
def breaks? : DraftCall → Option (List Nat)
  | breaks positions => some positions
  | _ => none

/-- The unique constraint that a call names. -/
def uniqueConstraint? : DraftCall → Option String
  | uniqueConstraint name => some name
  | _ => none

/-- The conflict rule that a call asks for. -/
def onConflict? : DraftCall → Option DraftConflict
  | onConflict rule => some rule
  | _ => none

/-- The column of keys that a call names. -/
def keyColumn? : DraftCall → Option String
  | keyColumn name => some name
  | _ => none

/-- The column of times that a call names. -/
def timeColumn? : DraftCall → Option String
  | timeColumn name => some name
  | _ => none

/-- The columns that calls declare, in order. -/
def declared (calls : List DraftCall) : List (String × ColumnKind) :=
  calls.filterMap column?

/-- What the last of the calls says that say something of a kind. -/
def last? {α : Type} (said : DraftCall → Option α) (calls : List DraftCall) : Option α :=
  (calls.filterMap said).getLast?

theorem last?_append_singleton {α : Type} (said : DraftCall → Option α) (calls : List DraftCall)
    (call : DraftCall) : last? said (calls ++ [call]) = (said call).or (last? said calls) := by
  unfold last?
  rw [List.filterMap_append]
  cases h : said call with
  | none => simp [h]
  | some a => simp [h]

end DraftCall

open DraftCall in
/-- A draft holds the columns of all calls, and of the other kinds of calls the last. -/
theorem Draft.ofCalls_eq (table : String) (calls : List DraftCall) :
    ofCalls table calls =
      { table := table
        columns := declared calls
        breaks := (last? breaks? calls).getD []
        uniqueConstraint := last? uniqueConstraint? calls
        onConflict := last? onConflict? calls
        keyColumn := last? keyColumn? calls
        timeColumn := last? timeColumn? calls } := by
  induction calls using List.reverseRecOn with
  | nil => rfl
  | append_singleton calls call ih =>
    have hstep : ofCalls table (calls ++ [call]) = (ofCalls table calls).record call := by
      simp [ofCalls]
    rw [hstep, ih]
    simp only [last?_append_singleton, declared, List.filterMap_append]
    cases call <;> simp [record, column?, breaks?, uniqueConstraint?, onConflict?, keyColumn?,
      timeColumn?]

/-! ### Numbers in ascending order -/

namespace Draft

theorem mem_insertAscending {n k : Nat} {ns : List Nat} :
    k ∈ insertAscending n ns ↔ k = n ∨ k ∈ ns := by
  induction ns with
  | nil => simp [insertAscending]
  | cons m rest ih =>
    unfold insertAscending
    split
    · simp
    · split
      · rename_i heq
        subst heq
        simp
      · rw [List.mem_cons, ih, List.mem_cons, or_left_comm]

theorem pairwise_insertAscending {n : Nat} {ns : List Nat} (h : ns.Pairwise (· < ·)) :
    (insertAscending n ns).Pairwise (· < ·) := by
  induction ns with
  | nil => simp [insertAscending]
  | cons m rest ih =>
    obtain ⟨hm, hrest⟩ := List.pairwise_cons.mp h
    unfold insertAscending
    by_cases hlt : n < m
    · rw [if_pos hlt]
      refine List.pairwise_cons.mpr ⟨fun k hk => ?_, h⟩
      rcases List.mem_cons.mp hk with rfl | hk
      · exact hlt
      · exact Nat.lt_trans hlt (hm k hk)
    · rw [if_neg hlt]
      by_cases heq : n = m
      · rw [if_pos heq]
        exact h
      · rw [if_neg heq]
        refine List.pairwise_cons.mpr ⟨fun k hk => ?_, ih hrest⟩
        rcases mem_insertAscending.mp hk with rfl | hk
        · omega
        · exact hm k hk

theorem mem_ascending {k : Nat} {ns : List Nat} : k ∈ ascending ns ↔ k ∈ ns := by
  induction ns with
  | nil => rfl
  | cons n rest ih =>
    have hcons : ascending (n :: rest) = insertAscending n (ascending rest) := rfl
    rw [hcons, mem_insertAscending, ih, List.mem_cons]

theorem pairwise_ascending (ns : List Nat) : (ascending ns).Pairwise (· < ·) := by
  induction ns with
  | nil => exact .nil
  | cons n rest ih => exact pairwise_insertAscending ih

end Draft

/-! ### One check at a time -/

/-- The names of columns. -/
def columnNames (columns : List Column) : List String :=
  columns.map fun c => c.name.text

/-- A column as a call declares it. -/
def Column.asked (c : Column) : String × ColumnKind := (c.name.text, c.kind)

theorem map_fst_asked (columns : List Column) :
    (columns.map Column.asked).map Prod.fst = columnNames columns := by
  rw [List.map_map]
  rfl

theorem Column.asked_injective {c c' : Column} (h : c.asked = c'.asked) : c = c' := by
  obtain ⟨⟨text, _⟩, kind⟩ := c
  obtain ⟨⟨text', _⟩, kind'⟩ := c'
  obtain ⟨rfl, rfl⟩ := Prod.mk.inj h
  rfl

theorem any_name_eq_iff {columns : List Column} {name : Ident} :
    (columns.any fun c => c.name == name) = true ↔ name.text ∈ columnNames columns := by
  simp only [List.any_eq_true, columnNames, List.mem_map, beq_iff_eq]
  constructor
  · rintro ⟨c, hc, rfl⟩
    exact ⟨c, hc, rfl⟩
  · rintro ⟨c, hc, htext⟩
    exact ⟨c, hc, Ident.ext htext⟩

/-- The names that a conflict rule speaks of. -/
def DraftConflict.names : DraftConflict → List String
  | doNothing returning => [returning]
  | doUpdate columns => columns

/-- A conflict rule as a call asks for it. -/
def OnConflict.asked : OnConflict → DraftConflict
  | doNothing returning => .doNothing returning.text
  | doUpdate columns => .doUpdate (columns.map Ident.text)

/-- A chain of checks passes if each of its checks does. -/
theorem bind_eq_ok_iff {ε α β : Type} {check : Except ε α} {next : α → Except ε β} {b : β} :
    (check >>= next) = .ok b ↔ ∃ a, check = .ok a ∧ next a = .ok b := by
  cases check with
  | error e => exact ⟨nofun, nofun⟩
  | ok a =>
    constructor
    · intro h
      exact ⟨a, rfl, h⟩
    · rintro ⟨_, ⟨⟩, h⟩
      exact h

namespace Draft

variable {table : Ident} {columns : List Column}

/-- Columns go behind those that are declared already, as long as no name comes twice. The columns
so far are part of the statement, since each new name is held against them. -/
theorem checkColumns_eq_ok_iff {declared : List Column} (hdeclared : (columnNames declared).Nodup)
    (asked : List (String × ColumnKind)) :
    checkColumns table declared asked = .ok columns ↔
      ∃ more, columns = declared ++ more ∧ more.map Column.asked = asked ∧
        (columnNames (declared ++ more)).Nodup := by
  induction asked generalizing declared with
  | nil =>
    constructor
    · intro h
      cases h
      exact ⟨[], (List.append_nil _).symm, rfl, by rwa [List.append_nil]⟩
    · rintro ⟨more, rfl, hmore, -⟩
      rw [List.map_eq_nil_iff.mp hmore, List.append_nil]
      rfl
  | cons first rest ih =>
    obtain ⟨text, kind⟩ := first
    -- Whatever is behind the declared columns begins with a column of this name.
    have hfirst : ∀ more : List Column, more.map Column.asked = (text, kind) :: rest →
        ∃ c more', more = c :: more' ∧ c.name.text = text ∧ c.kind = kind ∧
          more'.map Column.asked = rest := by
      intro more hmore
      obtain ⟨c, more', rfl, hc, hrest⟩ := List.map_eq_cons_iff.mp hmore
      obtain ⟨htext, hkind⟩ := Prod.mk.inj hc
      exact ⟨c, more', rfl, htext, hkind, hrest⟩
    unfold checkColumns
    cases hname : Ident.parse text with
    | error e =>
      refine ⟨nofun, ?_⟩
      rintro ⟨more, -, hmore, -⟩
      obtain ⟨c, -, -, rfl, -⟩ := hfirst more hmore
      rw [Ident.parse_text] at hname
      cases hname
    | ok name =>
      obtain rfl := Ident.parse_eq_ok_iff.mp hname
      dsimp only
      by_cases hdup : name.text ∈ columnNames declared
      · rw [if_pos (any_name_eq_iff.mpr hdup)]
        refine ⟨nofun, ?_⟩
        rintro ⟨more, -, hmore, hnodup⟩
        obtain ⟨c, more', rfl, htext, -, -⟩ := hfirst more hmore
        rw [columnNames, List.map_append] at hnodup
        exact absurd rfl ((List.nodup_append.mp hnodup).2.2 _ hdup _ (by simp [htext]))
      · rw [if_neg (mt any_name_eq_iff.mp hdup)]
        have hnext : (columnNames (declared ++ [⟨name, kind⟩])).Nodup := by
          rw [columnNames, List.map_append]
          refine List.nodup_append.mpr ⟨hdeclared, List.nodup_singleton _, ?_⟩
          rintro a ha b hb rfl
          obtain rfl : a = name.text := List.mem_singleton.mp hb
          exact hdup ha
        rw [ih hnext]
        constructor
        · rintro ⟨more, hcolumns, hmore, hnodup⟩
          rw [List.append_assoc, List.singleton_append] at hcolumns hnodup
          exact ⟨⟨name, kind⟩ :: more, hcolumns, congrArg ((name.text, kind) :: ·) hmore, hnodup⟩
        · rintro ⟨more, hcolumns, hmore, hnodup⟩
          obtain ⟨c, more', rfl, htext, hkind, hrest⟩ := hfirst more hmore
          obtain rfl : c = ⟨name, kind⟩ := Column.asked_injective (Prod.ext htext hkind)
          refine ⟨more', ?_, hrest, ?_⟩
          · rw [hcolumns, List.append_assoc, List.singleton_append]
          · rwa [List.append_assoc, List.singleton_append]

theorem checkBreaks_eq_ok_iff {positions breaks : List Nat} :
    checkBreaks table columns positions = .ok breaks ↔
      breaks = ascending positions ∧ ∀ n ∈ positions, 0 < n ∧ n < columns.length := by
  unfold checkBreaks
  dsimp only
  cases hfind : (ascending positions).find? fun n => n == 0 || columns.length ≤ n with
  | some n =>
    refine ⟨nofun, ?_⟩
    rintro ⟨-, hinside⟩
    have hn := hinside n (mem_ascending.mp (List.mem_of_find?_eq_some hfind))
    have hbad := List.find?_some hfind
    simp only [Bool.or_eq_true, beq_iff_eq, decide_eq_true_eq] at hbad
    omega
  | none =>
    have hinside : ∀ n ∈ positions, 0 < n ∧ n < columns.length := by
      intro n hn
      have hgood := List.find?_eq_none.mp hfind n (mem_ascending.mpr hn)
      simp only [Bool.or_eq_true, beq_iff_eq, decide_eq_true_eq] at hgood
      omega
    constructor
    · intro h
      cases h
      exact ⟨rfl, hinside⟩
    · rintro ⟨rfl, -⟩
      rfl

theorem checkDeclared_eq_ok_iff {text : String} {name : Ident} :
    checkDeclared table columns text = .ok name ↔
      name.text = text ∧ text ∈ columnNames columns := by
  unfold checkDeclared
  cases hname : Ident.parse text with
  | error e =>
    refine ⟨nofun, ?_⟩
    rintro ⟨rfl, -⟩
    rw [Ident.parse_text] at hname
    cases hname
  | ok name' =>
    obtain rfl := Ident.parse_eq_ok_iff.mp hname
    dsimp only
    by_cases hmem : name'.text ∈ columnNames columns
    · rw [if_pos (any_name_eq_iff.mpr hmem)]
      constructor
      · intro h
        cases h
        exact ⟨rfl, hmem⟩
      · rintro ⟨htext, -⟩
        rw [Ident.ext htext]
    · rw [if_neg (mt any_name_eq_iff.mp hmem)]
      exact ⟨nofun, fun h => absurd h.2 hmem⟩

theorem checkAllDeclared_eq_ok_iff {texts : List String} {names : List Ident} :
    checkAllDeclared table columns texts = .ok names ↔
      names.map Ident.text = texts ∧ ∀ text ∈ texts, text ∈ columnNames columns := by
  induction texts generalizing names with
  | nil =>
    constructor
    · intro h
      cases h
      exact ⟨rfl, nofun⟩
    · rintro ⟨hnames, -⟩
      rw [List.map_eq_nil_iff.mp hnames]
      rfl
  | cons text rest ih =>
    unfold checkAllDeclared
    cases hfirst : checkDeclared table columns text with
    | error e =>
      refine ⟨nofun, ?_⟩
      rintro ⟨hnames, hall⟩
      obtain ⟨name, _, rfl, htext, -⟩ := List.map_eq_cons_iff.mp hnames
      rw [checkDeclared_eq_ok_iff.mpr ⟨htext, hall text (List.mem_cons_self ..)⟩] at hfirst
      cases hfirst
    | ok name =>
      obtain ⟨rfl, hmem⟩ := checkDeclared_eq_ok_iff.mp hfirst
      dsimp only
      cases hrest : checkAllDeclared table columns rest with
      | error e =>
        refine ⟨nofun, ?_⟩
        rintro ⟨hnames, hall⟩
        obtain ⟨_, names', rfl, -, hnames'⟩ := List.map_eq_cons_iff.mp hnames
        rw [ih.mpr ⟨hnames', fun t ht => hall t (List.mem_cons_of_mem _ ht)⟩] at hrest
        cases hrest
      | ok names' =>
        obtain ⟨rfl, hall⟩ := ih.mp hrest
        constructor
        · intro h
          cases h
          exact ⟨rfl, List.forall_mem_cons.mpr ⟨hmem, hall⟩⟩
        · rintro ⟨hnames, -⟩
          rw [← List.map_cons] at hnames
          rw [List.map_injective_iff.mpr (fun _ _ => Ident.ext) hnames]

/-- A rule passes if it names a column at least and none but declared ones. -/
theorem checkConflict_eq_ok_iff {asked : Option DraftConflict} {rule : OnConflict} :
    checkConflict table columns asked = .ok rule ↔
      asked = some rule.asked ∧ rule.asked.names ≠ [] ∧
        ∀ name ∈ rule.asked.names, name ∈ columnNames columns := by
  match asked with
  | none => exact ⟨nofun, nofun⟩
  | some (.doNothing returning) =>
    simp only [checkConflict, bind_eq_ok_iff, checkDeclared_eq_ok_iff]
    constructor
    · rintro ⟨name, ⟨rfl, hmem⟩, ⟨⟩⟩
      exact ⟨rfl, nofun, List.forall_mem_singleton.mpr hmem⟩
    · rintro ⟨hasked, -, hall⟩
      cases rule with
      | doUpdate names => cases hasked
      | doNothing name =>
        cases hasked
        exact ⟨name, ⟨rfl, hall _ (List.mem_singleton.mpr rfl)⟩, rfl⟩
  | some (.doUpdate []) =>
    refine ⟨nofun, ?_⟩
    rintro ⟨hasked, hne, -⟩
    exact absurd (congrArg DraftConflict.names (Option.some.inj hasked)).symm hne
  | some (.doUpdate (text :: texts)) =>
    simp only [checkConflict, bind_eq_ok_iff, checkAllDeclared_eq_ok_iff]
    constructor
    · rintro ⟨names, ⟨hnames, hall⟩, ⟨⟩⟩
      exact ⟨by rw [OnConflict.asked, hnames],
        by simp [OnConflict.asked, DraftConflict.names, hnames],
        by rwa [OnConflict.asked, hnames]⟩
    · rintro ⟨hasked, -, hall⟩
      cases rule with
      | doNothing name => cases hasked
      | doUpdate names =>
        have hnames : text :: texts = names.map Ident.text :=
          DraftConflict.doUpdate.inj (Option.some.inj hasked)
        exact ⟨names, ⟨hnames.symm, hnames ▸ hall⟩, rfl⟩

theorem checkOptional_eq_ok_iff {asked : Option String} {name : Option Ident} :
    checkOptional table columns asked = .ok name ↔
      asked = name.map Ident.text ∧ ∀ text, asked = some text → text ∈ columnNames columns := by
  cases asked with
  | none =>
    constructor
    · intro h
      cases h
      exact ⟨rfl, nofun⟩
    · rintro ⟨hname, -⟩
      rw [Option.map_eq_none_iff.mp hname.symm]
      rfl
  | some text =>
    simp only [checkOptional, bind_eq_ok_iff, checkDeclared_eq_ok_iff]
    constructor
    · rintro ⟨name, ⟨rfl, hmem⟩, ⟨⟩⟩
      refine ⟨rfl, ?_⟩
      rintro _ ⟨⟩
      exact hmem
    · rintro ⟨hname, hmem⟩
      obtain ⟨name, rfl, htext⟩ := Option.map_eq_some_iff.mp hname.symm
      exact ⟨name, ⟨htext, hmem text rfl⟩, rfl⟩

theorem checkConstraint_eq_ok_iff {asked : Option String} {name : Ident} :
    checkConstraint table asked = .ok name ↔ asked = some name.text := by
  cases asked with
  | none => exact ⟨nofun, nofun⟩
  | some text => rw [checkConstraint, Ident.parse_eq_ok_iff, Option.some_inj, eq_comm]

end Draft

/-! ### All checks -/

/-- The profile says what the draft asks for, and the draft asks for nothing that does not fit. -/
structure Profile.Fits (p : Profile) (d : Draft) : Prop where
  table : p.table.text = d.table
  columns : p.columns.map Column.asked = d.columns
  someColumn : d.columns ≠ []
  distinct : (columnNames p.columns).Nodup
  breaks : p.breaks = Draft.ascending d.breaks
  breaks_inside : ∀ n ∈ d.breaks, 0 < n ∧ n < p.columns.length
  uniqueConstraint : d.uniqueConstraint = some p.uniqueConstraint.text
  onConflict : d.onConflict = some p.onConflict.asked
  onConflict_names : p.onConflict.asked.names ≠ []
  onConflict_declared : ∀ name ∈ p.onConflict.asked.names, name ∈ columnNames p.columns
  keyColumn : d.keyColumn = p.keyColumn.map Ident.text
  keyColumn_declared : ∀ name, d.keyColumn = some name → name ∈ columnNames p.columns
  timeColumn : d.timeColumn = p.timeColumn.map Ident.text
  timeColumn_declared : ∀ name, d.timeColumn = some name → name ∈ columnNames p.columns

/-- The checks of a draft pass exactly for the profiles that fit it. -/
theorem Draft.build_eq_ok_iff {d : Draft} {p : Profile} : d.build = .ok p ↔ p.Fits d := by
  have hcolumns : ∀ columns, checkColumns p.table [] d.columns = .ok columns ↔
      columns.map Column.asked = d.columns ∧ (columnNames columns).Nodup := by
    intro columns
    have hnil : (columnNames []).Nodup := List.nodup_nil
    rw [checkColumns_eq_ok_iff hnil]
    simp
  unfold build
  rw [bind_eq_ok_iff]
  constructor
  · rintro ⟨table, htable, h⟩
    split at h
    · cases h
    rename_i hsome
    simp only [bind_eq_ok_iff, checkBreaks_eq_ok_iff, checkConstraint_eq_ok_iff,
      checkConflict_eq_ok_iff, checkOptional_eq_ok_iff] at h
    obtain ⟨columns, hcheck, breaks, ⟨hbreaks, hinside⟩, constraint, hconstraint, rule,
      ⟨hrule, hnames, hdeclared⟩, key, ⟨hkey, hkey'⟩, time, ⟨htime, htime'⟩, ⟨⟩⟩ := h
    obtain ⟨hasked, hdistinct⟩ := (hcolumns columns).mp hcheck
    exact {
      table := Ident.parse_eq_ok_iff.mp htable
      columns := hasked
      someColumn := mt List.isEmpty_iff.mpr hsome
      distinct := hdistinct
      breaks := hbreaks
      breaks_inside := hinside
      uniqueConstraint := hconstraint
      onConflict := hrule
      onConflict_names := hnames
      onConflict_declared := hdeclared
      keyColumn := hkey
      keyColumn_declared := hkey'
      timeColumn := htime
      timeColumn_declared := htime' }
  · intro h
    refine ⟨p.table, Ident.parse_eq_ok_iff.mpr h.table, ?_⟩
    rw [if_neg (mt List.isEmpty_iff.mp h.someColumn)]
    simp only [bind_eq_ok_iff, checkBreaks_eq_ok_iff, checkConstraint_eq_ok_iff,
      checkConflict_eq_ok_iff, checkOptional_eq_ok_iff]
    exact ⟨p.columns, (hcolumns _).mpr ⟨h.columns, h.distinct⟩, p.breaks,
      ⟨h.breaks, h.breaks_inside⟩, p.uniqueConstraint, h.uniqueConstraint, p.onConflict,
      ⟨h.onConflict, h.onConflict_names, h.onConflict_declared⟩, p.keyColumn,
      ⟨h.keyColumn, h.keyColumn_declared⟩, p.timeColumn, ⟨h.timeColumn, h.timeColumn_declared⟩, rfl⟩

/-! ### The profile of calls -/

open DraftCall in
/-- What calls about a table have to say, and not to say, for a profile to come of them. -/
structure Buildable (table : String) (calls : List DraftCall) : Prop where
  table : isIdent table.toList = true
  someColumn : declared calls ≠ []
  columns : ∀ c ∈ declared calls, isIdent c.1.toList = true
  distinct : ((declared calls).map Prod.fst).Nodup
  breaks : ∀ positions, last? breaks? calls = some positions →
    ∀ n ∈ positions, 0 < n ∧ n < (declared calls).length
  uniqueConstraint : ∃ name, last? uniqueConstraint? calls = some name ∧ isIdent name.toList = true
  onConflict : ∃ rule, last? onConflict? calls = some rule ∧ rule.names ≠ [] ∧
    ∀ name ∈ rule.names, name ∈ (declared calls).map Prod.fst
  keyColumn : ∀ name, last? keyColumn? calls = some name →
    name ∈ (declared calls).map Prod.fst
  timeColumn : ∀ name, last? timeColumn? calls = some name →
    name ∈ (declared calls).map Prod.fst

open DraftCall in
/-- The profile says what the calls about the table say. -/
structure Profile.Realizes (p : Profile) (table : String) (calls : List DraftCall) : Prop where
  table : p.table.text = table
  columns : p.columns.map Column.asked = declared calls
  breaks_ascending : p.breaks.Pairwise (· < ·)
  mem_breaks : ∀ n, n ∈ p.breaks ↔ ∃ positions, last? breaks? calls = some positions ∧ n ∈ positions
  uniqueConstraint : last? uniqueConstraint? calls = some p.uniqueConstraint.text
  onConflict : last? onConflict? calls = some p.onConflict.asked
  keyColumn : last? keyColumn? calls = p.keyColumn.map Ident.text
  timeColumn : last? timeColumn? calls = p.timeColumn.map Ident.text

/-- Names of columns are names. -/
theorem isIdent_of_mem_columnNames {columns : List Column} {name : String}
    (h : name ∈ columnNames columns) : isIdent name.toList = true := by
  obtain ⟨c, -, rfl⟩ := List.mem_map.mp h
  exact c.name.valid

theorem exists_idents {texts : List String} (h : ∀ text ∈ texts, isIdent text.toList = true) :
    ∃ names : List Ident, names.map Ident.text = texts :=
  ⟨texts.pmap Ident.mk h, by simp [List.map_pmap]⟩

theorem exists_columns {asked : List (String × ColumnKind)}
    (h : ∀ c ∈ asked, isIdent c.1.toList = true) :
    ∃ columns : List Column, columns.map Column.asked = asked :=
  ⟨asked.pmap (fun c hc => ⟨⟨c.1, hc⟩, c.2⟩) h, by simp [List.map_pmap, Column.asked]⟩

namespace Profile.Fits

variable {p : Profile} {table : String} {calls : List DraftCall}

/-- The names that were asked for are those of the profile. -/
theorem map_fst_declared (h : p.Fits (Draft.ofCalls table calls)) :
    (DraftCall.declared calls).map Prod.fst = columnNames p.columns := by
  rw [Draft.ofCalls_eq] at h
  have hcolumns : p.columns.map Column.asked = DraftCall.declared calls := h.columns
  rw [← hcolumns, map_fst_asked]

theorem buildable (h : p.Fits (Draft.ofCalls table calls)) : Buildable table calls := by
  have hnames := h.map_fst_declared
  have hlength : (DraftCall.declared calls).length = p.columns.length := by
    rw [← List.length_map Prod.fst, hnames, columnNames, List.length_map]
  rw [Draft.ofCalls_eq] at h
  have htable : p.table.text = table := h.table
  refine {
    table := htable ▸ p.table.valid
    someColumn := h.someColumn
    columns := fun c hc => ?_
    distinct := hnames ▸ h.distinct
    breaks := fun positions hpositions n hn => ?_
    uniqueConstraint := ⟨_, h.uniqueConstraint, p.uniqueConstraint.valid⟩
    onConflict := ⟨_, h.onConflict, h.onConflict_names, hnames ▸ h.onConflict_declared⟩
    keyColumn := hnames ▸ h.keyColumn_declared
    timeColumn := hnames ▸ h.timeColumn_declared }
  · exact isIdent_of_mem_columnNames (hnames ▸ List.mem_map_of_mem hc)
  · rw [hlength]
    refine h.breaks_inside n ?_
    rw [hpositions]
    exact hn

theorem realizes (h : p.Fits (Draft.ofCalls table calls)) : p.Realizes table calls := by
  rw [Draft.ofCalls_eq] at h
  refine {
    table := h.table
    columns := h.columns
    breaks_ascending := h.breaks ▸ Draft.pairwise_ascending _
    mem_breaks := fun n => ?_
    uniqueConstraint := h.uniqueConstraint
    onConflict := h.onConflict
    keyColumn := h.keyColumn
    timeColumn := h.timeColumn }
  rw [h.breaks, Draft.mem_ascending]
  cases DraftCall.last? DraftCall.breaks? calls <;> simp

end Profile.Fits

/-- A rule over names can be asked for. -/
theorem exists_asked_eq {rule : DraftConflict}
    (h : ∀ name ∈ rule.names, isIdent name.toList = true) :
    ∃ made : OnConflict, made.asked = rule := by
  obtain ⟨names, hnames⟩ := exists_idents h
  cases rule with
  | doNothing returning =>
    obtain ⟨name, _, -, htext, -⟩ := List.map_eq_cons_iff.mp hnames
    exact ⟨.doNothing name, congrArg DraftConflict.doNothing htext⟩
  | doUpdate columns => exact ⟨.doUpdate names, congrArg DraftConflict.doUpdate hnames⟩

theorem exists_map_text_eq {asked : Option String}
    (h : ∀ name, asked = some name → isIdent name.toList = true) :
    ∃ name : Option Ident, asked = name.map Ident.text := by
  cases asked with
  | none => exact ⟨none, rfl⟩
  | some text => exact ⟨some ⟨text, h text rfl⟩, rfl⟩

/-- From calls that satisfy all conditions the profile is put together part by part. -/
theorem Buildable.exists_fits {table : String} {calls : List DraftCall}
    (h : Buildable table calls) : ∃ p : Profile, p.Fits (Draft.ofCalls table calls) := by
  obtain ⟨columns, hcolumns⟩ := exists_columns h.columns
  have hnames : (DraftCall.declared calls).map Prod.fst = columnNames columns := by
    rw [← hcolumns, map_fst_asked]
  have hlength : (DraftCall.declared calls).length = columns.length := by
    rw [← hcolumns, List.length_map]
  have hdeclared : ∀ name ∈ (DraftCall.declared calls).map Prod.fst,
      isIdent name.toList = true := by
    rw [hnames]
    exact fun name hname => isIdent_of_mem_columnNames hname
  obtain ⟨constraint, hconstraint, hvalid⟩ := h.uniqueConstraint
  obtain ⟨rule, hrule, hsome, hall⟩ := h.onConflict
  obtain ⟨made, rfl⟩ := exists_asked_eq fun name hname => hdeclared name (hall name hname)
  obtain ⟨key, hkey⟩ := exists_map_text_eq fun name hname => hdeclared name (h.keyColumn name hname)
  obtain ⟨time, htime⟩ :=
    exists_map_text_eq fun name hname => hdeclared name (h.timeColumn name hname)
  refine ⟨⟨⟨table, h.table⟩, columns,
    Draft.ascending ((DraftCall.last? DraftCall.breaks? calls).getD []), ⟨constraint, hvalid⟩, made,
    key, time⟩, ?_⟩
  rw [Draft.ofCalls_eq]
  exact {
    table := rfl
    columns := hcolumns
    someColumn := h.someColumn
    distinct := hnames ▸ h.distinct
    breaks := rfl
    breaks_inside := by
      cases hbreaks : DraftCall.last? DraftCall.breaks? calls with
      | none => exact nofun
      | some positions => exact hlength ▸ h.breaks positions hbreaks
    uniqueConstraint := hconstraint
    onConflict := hrule
    onConflict_names := hsome
    onConflict_declared := hnames ▸ hall
    keyColumn := hkey
    keyColumn_declared := hnames ▸ h.keyColumn
    timeColumn := htime
    timeColumn_declared := hnames ▸ h.timeColumn }

/-! ### Looking columns up -/

namespace Profile

variable {p : Profile}

theorem mem_of_column? {name : String} {c : Column} (h : p.column? name = some c) :
    c ∈ p.columns ∧ c.name.text = name := by
  unfold column? at h
  have hname := List.find?_some h
  exact ⟨List.mem_of_find?_eq_some h, eq_of_beq hname⟩

/-- With distinct names, a name has the kind of the one column that has it. -/
theorem kindOf?_eq_some_iff (h : (columnNames p.columns).Nodup) {name : String}
    {kind : ColumnKind} :
    p.kindOf? name = some kind ↔ (name, kind) ∈ p.columns.map Column.asked := by
  have hkind : p.kindOf? name = some kind ↔ ∃ c, p.column? name = some c ∧ c.kind = kind := by
    rw [kindOf?, Option.map_eq_some_iff]
  rw [hkind, List.mem_map]
  constructor
  · rintro ⟨c, hc, rfl⟩
    obtain ⟨hmem, rfl⟩ := mem_of_column? hc
    exact ⟨c, hmem, rfl⟩
  · rintro ⟨c, hc, hasked⟩
    obtain ⟨hname, hkind⟩ := Prod.mk.inj hasked
    cases hfind : p.column? name with
    | none =>
      have hno := List.find?_eq_none.mp hfind c hc
      exact absurd (beq_iff_eq.mpr hname) hno
    | some c' =>
      obtain ⟨hmem, hname'⟩ := mem_of_column? hfind
      have heq : c' = c := List.inj_on_of_nodup_map h hmem hc (hname'.trans hname.symm)
      exact ⟨c', rfl, heq ▸ hkind⟩

theorem namesOf_eq (p : Profile) (kind : ColumnKind) :
    p.namesOf kind = ((p.columns.map Column.asked).filter fun c => c.2 == kind).map Prod.fst := by
  rw [List.filter_map, List.map_map]
  rfl

/-- Every column has one of the three kinds. -/
theorem namesOf_perm_parameters (p : Profile) :
    (p.numbers ++ p.strings ++ p.namesOf .generic).Perm p.parameters := by
  unfold numbers strings namesOf parameters
  rw [← List.map_append, ← List.map_append]
  refine List.Perm.map _ ?_
  induction p.columns with
  | nil => exact .refl _
  | cons c rest ih =>
    rw [List.append_assoc] at ih ⊢
    cases hkind : c.kind with
    | numeric => simpa [List.filter_cons, hkind] using ih
    | string => simpa [List.filter_cons, hkind] using List.perm_middle.trans (ih.cons c)
    | generic =>
      rw [← List.append_assoc] at ih ⊢
      simpa [List.filter_cons, hkind] using List.perm_middle.trans (ih.cons c)

end Profile

/-- **The checks of a profile are exact.** A profile is built from calls exactly if they satisfy
`Buildable`. It then says what the calls say: its columns are the declared ones in the order of the
calls, its line breaks are those asked for last, in ascending order, and every name has the kind it
was declared with, or none. The numeric, the text and the generic columns are those declared as
such, in the order of the calls, and together they are all columns, each in one of the three. -/
theorem build_ofCalls (table : String) (calls : List DraftCall) :
    ((∃ p, (Draft.ofCalls table calls).build = .ok p) ↔ Buildable table calls) ∧
    ∀ p, (Draft.ofCalls table calls).build = .ok p →
      p.Realizes table calls ∧
      (∀ name kind, p.kindOf? name = some kind ↔ (name, kind) ∈ DraftCall.declared calls) ∧
      (∀ name, p.kindOf? name = none ↔ name ∉ (DraftCall.declared calls).map Prod.fst) ∧
      p.parameters = (DraftCall.declared calls).map Prod.fst ∧
      (∀ kind, p.namesOf kind =
        ((DraftCall.declared calls).filter fun c => c.2 == kind).map Prod.fst) ∧
      p.numbers = p.namesOf .numeric ∧ p.strings = p.namesOf .string ∧
      (p.numbers ++ p.strings ++ p.namesOf .generic).Perm p.parameters ∧
      (p.numbers ++ p.strings ++ p.namesOf .generic).Nodup := by
  simp only [Draft.build_eq_ok_iff]
  refine ⟨⟨fun ⟨p, h⟩ => h.buildable, Buildable.exists_fits⟩, fun p h => ?_⟩
  have hparameters : p.parameters = (DraftCall.declared calls).map Prod.fst :=
    h.map_fst_declared.symm
  have hkind : ∀ name kind,
      p.kindOf? name = some kind ↔ (name, kind) ∈ DraftCall.declared calls := by
    intro name kind
    rw [Profile.kindOf?_eq_some_iff h.distinct, h.realizes.columns]
  refine ⟨h.realizes, hkind, fun name => ?_, hparameters, fun kind => ?_, rfl, rfl,
    p.namesOf_perm_parameters, p.namesOf_perm_parameters.nodup_iff.mpr h.distinct⟩
  · rw [Option.eq_none_iff_forall_ne_some]
    simp only [ne_eq, hkind, List.mem_map, Prod.exists, exists_and_right, exists_eq_right,
      not_exists]
  · rw [p.namesOf_eq, h.realizes.columns]

/-- Names that are no names, undeclared columns and positions out of range do no harm in calls that
later ones overrule. -/
theorem build_of_overruled_calls :
    let calls : List DraftCall := [.column "a" .numeric, .breaks [7, 0], .uniqueConstraint "1st",
      .onConflict (.doNothing "c"), .keyColumn "c", .column "b$" .string, .column "_" .generic,
      .onConflict (.doUpdate ["b$", "a"]), .breaks [2, 1, 2], .uniqueConstraint "t_unique",
      .keyColumn "b$"]
    ∃ p, (Draft.ofCalls "t" calls).build = .ok p ∧ p.Realizes "t" calls ∧
      p.kindOf? "b$" = some .string ∧ p.kindOf? "c" = none ∧ p.parameters = ["a", "b$", "_"] := by
  intro calls
  have hbuildable : Buildable "t" calls := {
    table := by decide
    someColumn := by decide
    columns := by decide
    distinct := by decide
    breaks := by
      rintro _ ⟨⟩
      decide
    uniqueConstraint := ⟨_, rfl, by decide⟩
    onConflict := ⟨_, rfl, by decide, by decide⟩
    keyColumn := by
      rintro _ ⟨⟩
      decide
    timeColumn := nofun }
  obtain ⟨hiff, hbuilt⟩ := build_ofCalls "t" calls
  obtain ⟨p, hp⟩ := hiff.mpr hbuildable
  obtain ⟨hrealizes, hkind, hnone, hparameters, -⟩ := hbuilt p hp
  exact ⟨p, hp, hrealizes, (hkind _ _).mpr (by decide), (hnone _).mpr (by decide), hparameters⟩

end TenantSql
