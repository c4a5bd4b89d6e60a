import TenantSql.Proofs.DraftChecks
import TenantSql.Proofs.InsertLayout
import TenantSql.Text.Basic
/-!
# TenantSql.Proofs.UpsertNames

Which names the two lists of an insertion hold: the columns that it fills, and those that it
assigns to a row that is there already.

The names are read from the text, where they are the first words between commas
(`itemWords`). The list of columns has the declared names, and no name twice, as the checks
of a profile refuse that. The list of assignments has the names of the conflict rule as they
were asked for. The checks ask for declared columns only, so a name that was given twice is
assigned twice (`upsert_assigns_column_twice`).
-/

namespace TenantSql

/-! ### Reading lists of names -/

/-- The first word of a text, behind blanks and line breaks. -/
def firstWord (cs : List Char) : String :=
  String.ofList ((cs.dropWhile Char.isWhitespace).takeWhile fun c => !c.isWhitespace)

/-- The first word of each item of a list with commas. -/
def itemWords (list : String) : List String :=
  (Pieces.split ',' list.toList).map firstWord

theorem isWhitespace_of_isIdentRest {c : Char} (h : isIdentRest c = true) :
    c.isWhitespace = false := by
  by_contra hblank
  simp only [Char.isWhitespace, Bool.not_eq_false, Bool.or_eq_true, decide_eq_true_eq] at hblank
  rcases hblank with ((rfl | rfl) | rfl) | rfl <;> exact absurd h (by decide)

theorem Ident.isIdentRest_of_mem {name : Ident} {c : Char} (h : c ∈ name.text.toList) :
    isIdentRest c = true := by
  have hvalid := name.valid
  cases hcs : name.text.toList with
  | nil => simp [hcs] at h
  | cons first rest =>
    rw [hcs, isIdent, Bool.and_eq_true, List.all_eq_true] at hvalid
    obtain ⟨hfirst, hrest⟩ := hvalid
    rw [hcs] at h
    rcases List.mem_cons.mp h with rfl | h
    · simp only [isIdentStart, Bool.or_eq_true] at hfirst
      rcases hfirst with hline | hletter
      · simp [isIdentRest, hline]
      · simp [isIdentRest, Char.isAlphanum, hletter]
    · exact hrest c h

theorem Ident.ne_nil (name : Ident) : name.text.toList ≠ [] := by
  intro h
  have hvalid := name.valid
  simp [h, isIdent] at hvalid

theorem comma_not_mem_ident (name : Ident) : ',' ∉ name.text.toList := by
  intro h
  exact absurd (Ident.isIdentRest_of_mem h) (by decide)

/-- A name between blanks is the first word. -/
theorem firstWord_append {blanks rest : List Char} (name : Ident)
    (hblanks : ∀ c ∈ blanks, c.isWhitespace = true)
    (hrest : StopsAt (fun c => !c.isWhitespace) rest) :
    firstWord (blanks ++ (name.text.toList ++ rest)) = name.text := by
  have hletters : ∀ c ∈ name.text.toList, c.isWhitespace = false := fun c hc =>
    isWhitespace_of_isIdentRest (Ident.isIdentRest_of_mem hc)
  have hname : ∀ c ∈ name.text.toList, (!c.isWhitespace) = true := by
    simpa using hletters
  have hstop : StopsAt Char.isWhitespace (name.text.toList ++ rest) := by
    intro c hc
    rw [List.head?_append_of_ne_nil _ name.ne_nil] at hc
    exact hletters c (List.mem_of_mem_head? hc)
  rw [firstWord, dropWhile_append hblanks hstop, takeWhile_append hname hrest,
    String.ofList_toList]

/-- Items without commas are the pieces between the commas that join them. -/
theorem split_intercalate {items : List String} (hne : items ≠ [])
    (h : ∀ item ∈ items, ',' ∉ item.toList) :
    Pieces.split ',' (",".intercalate items).toList = items.map String.toList := by
  induction items with
  | nil => exact absurd rfl hne
  | cons item rest ih =>
    obtain ⟨hitem, hrest⟩ := List.forall_mem_cons.mp h
    cases rest with
    | nil => simp [Pieces.split_of_not_mem _ _ hitem]
    | cons next more =>
      have hcomma : ",".toList = [','] := by decide
      rw [String.intercalate_cons_cons, String.toList_append, String.toList_append, hcomma,
        List.append_assoc, List.singleton_append, Pieces.split_append,
        Pieces.split_of_not_mem _ _ hitem, ih (List.cons_ne_nil _ _) hrest]
      rfl

theorem itemWords_intercalate {items : List String} (hne : items ≠ [])
    (h : ∀ item ∈ items, ',' ∉ item.toList) :
    itemWords (",".intercalate items) = items.map fun item => firstWord item.toList := by
  rw [itemWords, split_intercalate hne h, List.map_map]
  rfl

theorem isWhitespace_of_mem_nested {c : Char} (h : c ∈ Layout.nested.toList) :
    c.isWhitespace = true := by
  have hall : Layout.nested.toList.all Char.isWhitespace = true := by decide
  exact List.all_eq_true.mp hall c h

/-! ### The list of columns -/

namespace Profile

/-- What stands between the comma in front of the name at position `i` and the name. -/
def columnGap (p : Profile) (i : Nat) : String :=
  if i = 0 then "" else if i ∈ p.breaks then Layout.nested else " "

theorem columnLead_eq (p : Profile) (i : Nat) :
    p.columnLead i = (if i = 0 then "" else ",") ++ p.columnGap i := by
  have hblank : ", " = "," ++ " " := by decide
  unfold columnLead columnGap
  split
  · rfl
  · split
    · rfl
    · exact hblank

theorem isWhitespace_of_mem_columnGap {p : Profile} {i : Nat} {c : Char}
    (h : c ∈ (p.columnGap i).toList) : c.isWhitespace = true := by
  have hblank : " ".toList.all Char.isWhitespace = true := by decide
  unfold columnGap at h
  split at h
  · simp at h
  · split at h
    · exact isWhitespace_of_mem_nested h
    · exact List.all_eq_true.mp hblank c h

/-- The names of columns from position `i` on are joined by commas. -/
theorem join_columnLead (p : Profile) (i : Nat) (columns : List Column) :
    String.join (columns.mapIdx fun j c => p.columnLead (i + j) ++ c.name.text) =
      separated (if i = 0 then "" else ",") ","
        (columns.mapIdx fun j c => p.columnGap (i + j) ++ c.name.text) := by
  induction columns generalizing i with
  | nil => simp [separated]
  | cons c rest ih =>
    have hrest := ih (i + 1)
    simp only [Nat.add_assoc, Nat.add_comm 1, Nat.succ_ne_zero, if_false] at hrest
    rw [List.mapIdx_cons, String.join_cons, hrest, List.mapIdx_cons, separated_cons,
      columnLead_eq, Nat.add_zero]
    simp only [String.append_assoc]

theorem columnList_eq (p : Profile) :
    p.columnList = ",".intercalate (p.columns.mapIdx fun i c => p.columnGap i ++ c.name.text) := by
  have hjoin := p.join_columnLead 0 p.columns
  simp only [Nat.zero_add, if_true, separated_empty] at hjoin
  exact hjoin

/-- The names that are read from the list of columns are those of the columns. -/
theorem itemWords_columnList {p : Profile} (h : p.columns ≠ []) :
    itemWords p.columnList = columnNames p.columns := by
  have hcomma : ∀ item ∈ p.columns.mapIdx fun i c => p.columnGap i ++ c.name.text,
      ',' ∉ item.toList := by
    intro item hitem hmem
    obtain ⟨i, hi, rfl⟩ := List.mem_mapIdx.mp hitem
    rw [String.toList_append, List.mem_append] at hmem
    rcases hmem with hgap | hname
    · exact absurd (isWhitespace_of_mem_columnGap hgap) (by decide)
    · exact comma_not_mem_ident _ hname
  have hword : ∀ i (c : Column), firstWord (p.columnGap i ++ c.name.text).toList = c.name.text := by
    intro i c
    have hfirst : firstWord ((p.columnGap i).toList ++ (c.name.text.toList ++ [])) = c.name.text :=
      firstWord_append c.name (fun _ => isWhitespace_of_mem_columnGap) (by simp [StopsAt])
    rw [List.append_nil] at hfirst
    rw [String.toList_append, hfirst]
  rw [columnList_eq, itemWords_intercalate (by simpa using h) hcomma]
  refine List.ext_getElem? fun i => ?_
  simp only [List.getElem?_map, List.getElem?_mapIdx, Option.map_map, Function.comp_def, hword,
    columnNames]

end Profile

/-! ### The list of assignments -/

theorem toList_assignmentLine (c : Ident) :
    (assignmentLine c).toList =
      Layout.nested.toList ++ (c.text.toList ++ (" = EXCLUDED.".toList ++ c.text.toList)) := by
  simp only [assignmentLine, String.toList_append, List.append_assoc]

theorem firstWord_assignmentLine (c : Ident) : firstWord (assignmentLine c).toList = c.text := by
  rw [toList_assignmentLine]
  exact firstWord_append c (fun _ => isWhitespace_of_mem_nested) (stopsAt_cons (by decide) _)

/-- The names that are read from assignments are those that are assigned to. -/
theorem itemWords_assignments {columns : List Ident} (h : columns ≠ []) :
    itemWords (",".intercalate (columns.map assignmentLine)) = columns.map Ident.text := by
  have hcomma : ∀ item ∈ columns.map assignmentLine, ',' ∉ item.toList := by
    intro item hitem hmem
    obtain ⟨c, -, rfl⟩ := List.mem_map.mp hitem
    simp only [toList_assignmentLine, List.mem_append] at hmem
    have hname := comma_not_mem_ident c
    rcases hmem with hgap | hmem | hmark | hmem
    · exact absurd hgap (by decide)
    · exact hname hmem
    · exact absurd hmark (by decide)
    · exact hname hmem
  rw [itemWords_intercalate (by simpa using h) hcomma, List.map_map]
  exact List.map_congr_left fun c _ => firstWord_assignmentLine c

/-- **An insertion fills no column twice, and assigns to the columns that were asked for.** From any
calls that describe a table, rows are inserted as soon as there is one, by a statement that lists
the declared columns in their order and no name twice. If the last conflict rule is an update, the
names that the statement assigns to are those of the rule, declared columns all of them. So
none of them comes twice exactly if the rule has none twice. -/
theorem upsert_lists_names {table : String} {calls : List DraftCall} {p : Profile}
    (schema : Schema) {rows : List Row} (h : (Draft.ofCalls table calls).build = .ok p)
    (hrows : rows ≠ []) :
    ∃ st, (p.insert schema rows).result = .ok st ∧ st.sql = p.insertion schema rows.length ∧
      itemWords p.columnList = (DraftCall.declared calls).map Prod.fst ∧
      (itemWords p.columnList).Nodup ∧
      ∀ names, DraftCall.last? DraftCall.onConflict? calls = some (.doUpdate names) →
        ∃ list, p.onConflict.clause = "DO UPDATE SET" ++ list ∧ itemWords list = names ∧
          itemWords list ⊆ itemWords p.columnList ∧
          ((itemWords list).Nodup ↔ names.Nodup) := by
  have hfits := Draft.build_eq_ok_iff.mp h
  have hcolumns : p.columns ≠ [] := by
    intro hnil
    have hsome := hfits.someColumn
    rw [← hfits.columns, hnil] at hsome
    exact hsome rfl
  have hlist := Profile.itemWords_columnList hcolumns
  refine ⟨_, Profile.result_insert_eq_ok_iff.mpr ⟨hrows, rfl⟩, p.sql_insertStatement schema rows,
    ?_, ?_, fun names hnames => ?_⟩
  · rw [hlist, hfits.map_fst_declared]
  · rw [hlist]
    exact hfits.distinct
  · have hasked : p.onConflict.asked = .doUpdate names := by
      have hrule := hfits.onConflict
      rw [Draft.ofCalls_eq] at hrule
      exact Option.some.inj (hrule.symm.trans hnames)
    have hne : names ≠ [] := by
      have hsome := hfits.onConflict_names
      rwa [hasked] at hsome
    have hdeclared : ∀ name ∈ names, name ∈ columnNames p.columns := by
      have hall := hfits.onConflict_declared
      rwa [hasked] at hall
    cases hrule : p.onConflict with
    | doNothing returning =>
      rw [hrule] at hasked
      cases hasked
    | doUpdate columns =>
      rw [hrule] at hasked
      obtain rfl := DraftConflict.doUpdate.inj hasked
      have hassigned : itemWords (",".intercalate (columns.map assignmentLine)) =
          columns.map Ident.text := itemWords_assignments (by simpa using hne)
      refine ⟨",".intercalate (columns.map assignmentLine), rfl, hassigned, ?_, by rw [hassigned]⟩
      rw [hassigned, hlist]
      exact hdeclared

/-- A break, a rule that a later one overrules, and an update in another order. -/
theorem upsert_lists_names_of_overruled_calls :
    ∃ p st, (Draft.ofCalls "t" [.column "a" .numeric, .onConflict (.doUpdate ["a", "a"]),
        .column "b$" .string, .column "_" .generic, .breaks [1], .uniqueConstraint "u",
        .onConflict (.doUpdate ["_", "b$"])]).build = .ok p ∧
      (p.insert ⟨"s", by decide, by decide⟩ [Row.ofList [("_", .int 1)]]).result = .ok st ∧
      st.sql = "\n      INSERT INTO \"s\".t (\n        a,\n        b$, _)" ++
        "\n      VALUES (\n        $1,\n        $2,\n        $3)" ++
        "\n      ON CONFLICT ON CONSTRAINT u\n      DO UPDATE SET" ++
        "\n        _ = EXCLUDED._,\n        b$ = EXCLUDED.b$;" ∧
      itemWords p.columnList = ["a", "b$", "_"] ∧
      ∃ list, p.onConflict.clause = "DO UPDATE SET" ++ list ∧ itemWords list = ["_", "b$"] ∧
        (itemWords list).Nodup := by
  have hprofile : (Draft.ofCalls "t" [.column "a" .numeric, .onConflict (.doUpdate ["a", "a"]),
      .column "b$" .string, .column "_" .generic, .breaks [1], .uniqueConstraint "u",
      .onConflict (.doUpdate ["_", "b$"])]).build = .ok ⟨⟨"t", by decide⟩,
        [⟨⟨"a", by decide⟩, .numeric⟩, ⟨⟨"b$", by decide⟩, .string⟩, ⟨⟨"_", by decide⟩, .generic⟩],
        [1], ⟨"u", by decide⟩, .doUpdate [⟨"_", by decide⟩, ⟨"b$", by decide⟩], none, none⟩ := rfl
  obtain ⟨st, hst, hsql, hcolumns, -, hset⟩ := upsert_lists_names ⟨"s", by decide, by decide⟩
    hprofile (List.cons_ne_nil (Row.ofList [("_", .int 1)]) [])
  obtain ⟨list, hlist, hnames, -, hnodup⟩ := hset ["_", "b$"] rfl
  exact ⟨_, st, hprofile, hst, hsql.trans (by decide +kernel), hcolumns, list, hlist, hnames,
    hnodup.mpr (by decide)⟩

/-- An update may name a column twice. The statement then assigns to it twice. -/
theorem upsert_assigns_column_twice :
    ∃ p st, (Draft.ofCalls "t" [.column "a" .numeric, .uniqueConstraint "u",
        .onConflict (.doUpdate ["a", "a"])]).build = .ok p ∧
      (p.insert ⟨"s", by decide, by decide⟩ [Row.ofList [("a", .int 1)]]).result = .ok st ∧
      st.sql = "\n      INSERT INTO \"s\".t (\n        a)\n      VALUES (\n        $1)" ++
        "\n      ON CONFLICT ON CONSTRAINT u\n      DO UPDATE SET" ++
        "\n        a = EXCLUDED.a,\n        a = EXCLUDED.a;" ∧
      itemWords "\n        a = EXCLUDED.a,\n        a = EXCLUDED.a" = ["a", "a"] ∧
      ¬["a", "a"].Nodup := by
  have hprofile : (Draft.ofCalls "t" [.column "a" .numeric, .uniqueConstraint "u",
      .onConflict (.doUpdate ["a", "a"])]).build = .ok ⟨⟨"t", by decide⟩,
        [⟨⟨"a", by decide⟩, .numeric⟩], [], ⟨"u", by decide⟩,
        .doUpdate [⟨"a", by decide⟩, ⟨"a", by decide⟩], none, none⟩ := rfl
  exact ⟨_, _, hprofile, rfl, by decide +kernel, by decide +kernel, by decide⟩

end TenantSql
