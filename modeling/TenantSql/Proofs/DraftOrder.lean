import Mathlib.Data.List.Sort
import TenantSql.Proofs.DraftChecks
/-!
# TenantSql.Proofs.DraftOrder

Which differences between calls that draft a table do not matter.

Line breaks are checked and kept in ascending order and each once, so only their set
counts. Two drafts that differ in nothing else have one normal form (`Draft.normal`), and
a draft is built like its normal form, fault by fault (`Draft.build_normal`). Calls come to
the same normal form exactly if they say the same (`DraftCall.SaySame`): the same columns
in the same order, the same set of line breaks, and of every other kind the same last call.

So the order of calls of different kinds does not matter, nor do calls that later ones
overrule, neither for the profile nor for the fault that is named. Calls that describe the
same profile say the same (`build_eq_of_saySame`).
-/

namespace TenantSql

open DraftCall

namespace DraftCall

/-- The positions of the line breaks that were asked for last. -/
def lastBreaks (calls : List DraftCall) : List Nat :=
  (last? breaks? calls).getD []

/-- Calls say the same about a table: their columns are the same in the same order, their last line
breaks are at the same positions, in whatever order and however often each, and their last calls of
every other kind are the same. -/
structure SaySame (calls calls' : List DraftCall) : Prop where
  columns : declared calls = declared calls'
  breaks : ∀ n, n ∈ lastBreaks calls ↔ n ∈ lastBreaks calls'
  uniqueConstraint : last? uniqueConstraint? calls = last? uniqueConstraint? calls'
  onConflict : last? onConflict? calls = last? onConflict? calls'
  keyColumn : last? keyColumn? calls = last? keyColumn? calls'
  timeColumn : last? timeColumn? calls = last? timeColumn? calls'

end DraftCall

namespace Draft

/-! ### The set of line breaks -/

/-- In ascending order, numbers are told apart by which they are. -/
theorem ascending_eq_iff {ns ms : List Nat} :
    ascending ns = ascending ms ↔ ∀ n, n ∈ ns ↔ n ∈ ms := by
  constructor
  · intro h n
    rw [← mem_ascending, h, mem_ascending]
  · intro h
    refine (pairwise_ascending ns).eq_of_mem_iff (pairwise_ascending ms) ?_
    simpa [mem_ascending] using h

@[simp] theorem ascending_ascending (ns : List Nat) : ascending (ascending ns) = ascending ns :=
  ascending_eq_iff.mpr fun _ => mem_ascending

theorem checkBreaks_ascending (table : Ident) (columns : List Column) (positions : List Nat) :
    checkBreaks table columns (ascending positions) = checkBreaks table columns positions := by
  unfold checkBreaks
  rw [ascending_ascending]

/-! ### Normal forms -/

/-- A draft with its line breaks in ascending order, each once. -/
def normal (d : Draft) : Draft :=
  { d with breaks := ascending d.breaks }

/-- A draft is built like its normal form: it gives the same profile or has the same first fault. -/
theorem build_normal (d : Draft) : d.normal.build = d.build := by
  unfold build normal
  simp only [checkBreaks_ascending]

/-- Calls have one normal form exactly if they say the same. -/
theorem normal_ofCalls_eq_iff {table : String} {calls calls' : List DraftCall} :
    (ofCalls table calls).normal = (ofCalls table calls').normal ↔ SaySame calls calls' := by
  rw [ofCalls_eq, ofCalls_eq]
  simp only [normal, Draft.mk.injEq, true_and, ascending_eq_iff]
  constructor
  · intro h
    obtain ⟨hcolumns, hbreaks, hconstraint, hconflict, hkey, htime⟩ := h
    exact ⟨hcolumns, hbreaks, hconstraint, hconflict, hkey, htime⟩
  · intro h
    exact ⟨h.columns, h.breaks, h.uniqueConstraint, h.onConflict, h.keyColumn, h.timeColumn⟩

end Draft

/-- A profile fits one normal form only. -/
theorem Profile.Fits.normal_eq {p : Profile} {d d' : Draft} (h : p.Fits d) (h' : p.Fits d') :
    d.normal = d'.normal := by
  rw [Draft.normal, Draft.normal, Draft.mk.injEq]
  exact ⟨h.table.symm.trans h'.table, h.columns.symm.trans h'.columns,
    h.breaks.symm.trans h'.breaks, h.uniqueConstraint.trans h'.uniqueConstraint.symm,
    h.onConflict.trans h'.onConflict.symm, h.keyColumn.trans h'.keyColumn.symm,
    h.timeColumn.trans h'.timeColumn.symm⟩

/-- **The order of calls matters no more than it has to.** Calls that say the same about a table
come to the same profile, or to the same fault: how calls of different kinds are interleaved, calls
that are overruled by later ones, and the order and repetition of line breaks make no difference to
either. Calls that come to the same profile say the same. -/
theorem build_eq_of_saySame (table : String) (calls calls' : List DraftCall) :
    (SaySame calls calls' →
      (Draft.ofCalls table calls).build = (Draft.ofCalls table calls').build) ∧
    ∀ p, (Draft.ofCalls table calls).build = .ok p →
      ((Draft.ofCalls table calls').build = .ok p ↔ SaySame calls calls') := by
  have hsame : SaySame calls calls' →
      (Draft.ofCalls table calls).build = (Draft.ofCalls table calls').build := by
    intro h
    rw [← Draft.build_normal, Draft.normal_ofCalls_eq_iff.mpr h, Draft.build_normal]
  refine ⟨hsame, ?_⟩
  intro p hp
  constructor
  · intro hp'
    have hfits := Draft.build_eq_ok_iff.mp hp
    have hfits' := Draft.build_eq_ok_iff.mp hp'
    exact Draft.normal_ofCalls_eq_iff.mp (hfits.normal_eq hfits')
  · intro h
    rw [← hsame h, hp]

/-- The calls that describe a table of network states in another order, with overruled ones among
them and a line break asked for twice. Calls with four faults in two orders, of which both name the
same. -/
theorem build_eq_of_shuffled_calls :
    let columns : List DraftCall := [.column "timestamp" .numeric, .column "difficulty" .numeric,
      .column "hashrate" .numeric, .column "height" .numeric, .column "type" .string]
    let rule : DraftConflict := .doUpdate ["timestamp", "difficulty", "hashrate", "height"]
    let calls := columns ++ [.breaks [2], .uniqueConstraint "current_network_unique",
      .onConflict rule, .timeColumn "timestamp"]
    let shuffled := [.timeColumn "1st", .onConflict (.doNothing "x"), .breaks [7],
      .timeColumn "timestamp"] ++ columns ++ [.uniqueConstraint "current_network_unique",
      .breaks [2, 2], .onConflict rule]
    (Draft.ofCalls "current_network" calls).build = .ok .currentNetwork ∧
    (Draft.ofCalls "current_network" shuffled).build = .ok .currentNetwork ∧
    (Draft.ofCalls "t" [.keyColumn "b", .breaks [3, 0, 3, 1], .column "a" .numeric]).build =
      .error (.breakOutside 0 "t") := by
  intro columns rule calls shuffled
  have hbuilt : (Draft.ofCalls "current_network" calls).build = .ok .currentNetwork :=
    Draft.build_eq_ok_iff.mpr {
      table := rfl
      columns := rfl
      someColumn := by decide
      distinct := by decide
      breaks := rfl
      breaks_inside := by decide
      uniqueConstraint := rfl
      onConflict := rfl
      onConflict_names := by decide
      onConflict_declared := by decide
      keyColumn := rfl
      keyColumn_declared := nofun
      timeColumn := rfl
      timeColumn_declared := by
        intro name hname
        cases hname
        decide }
  have hsame : SaySame calls shuffled := by
    refine ⟨rfl, ?_, rfl, rfl, rfl, rfl⟩
    intro n
    show n ∈ [2] ↔ n ∈ [2, 2]
    simp
  have hfaults : SaySame [.column "a" .numeric, .breaks [0, 1, 3], .keyColumn "b"]
      [.keyColumn "b", .breaks [3, 0, 3, 1], .column "a" .numeric] := by
    refine ⟨rfl, ?_, rfl, rfl, rfl, rfl⟩
    intro n
    show n ∈ [0, 1, 3] ↔ n ∈ [3, 0, 3, 1]
    simp
    omega
  refine ⟨hbuilt, ((build_eq_of_saySame _ calls shuffled).2 _ hbuilt).mpr hsame, ?_⟩
  rw [← (build_eq_of_saySame "t" _ _).1 hfaults]
  cbv

end TenantSql
