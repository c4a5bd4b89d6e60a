/-!
# TenantSql.Text.Basic

What the readers of texts share: kinds of characters, the longest run of a kind at the front
of a text, and lists cut at a separator.

* A run that was written is read back whole if what follows it does not go on with it
  (`takeWhile_append`, `dropWhile_append`).
* A list has one piece more than it has separators, and joining two lists with a separator
  joins their pieces (`Pieces.split_append`).
-/

namespace TenantSql

/-! ### Characters -/

/-- Whether a character has the property `White_Space`. -/
def isBlank (c : Char) : Bool :=
  let n := c.toNat
  (9 ≤ n && n ≤ 13) || n == 0x20 || n == 0x85 || n == 0xA0 || n == 0x1680 ||
    (0x2000 ≤ n && n ≤ 0x200A) || n == 0x2028 || n == 0x2029 || n == 0x202F || n == 0x205F ||
    n == 0x3000

/-- The value of a hexadecimal digit. -/
def hexDigit? (c : Char) : Option Nat :=
  if '0' ≤ c && c ≤ '9' then some (c.toNat - 0x30)
  else if 'a' ≤ c && c ≤ 'f' then some (c.toNat - 0x57)
  else if 'A' ≤ c && c ≤ 'F' then some (c.toNat - 0x37)
  else none

/-- The number that hexadecimal digits write; no digits write zero. -/
def hexNumber? (cs : List Char) : Option Nat :=
  cs.foldlM (fun n c => (hexDigit? c).map (n * 16 + ·)) 0

/-! ### Runs -/

/-- A predicate on characters stops at a rest: the rest is empty or begins with another one. -/
def StopsAt (p : Char → Bool) (rest : List Char) : Prop :=
  ∀ c ∈ rest.head?, p c = false

theorem stopsAt_cons {p : Char → Bool} {c : Char} (hc : p c = false) (rest : List Char) :
    StopsAt p (c :: rest) := by
  intro d hd
  cases hd
  exact hc

theorem takeWhile_append {p : Char → Bool} {cs rest : List Char} (h : ∀ c ∈ cs, p c = true)
    (stop : StopsAt p rest) : (cs ++ rest).takeWhile p = cs := by
  rw [List.takeWhile_append_of_pos h]
  cases rest with
  | nil => simp
  | cons c rest => simp [stop c rfl]

theorem dropWhile_append {p : Char → Bool} {cs rest : List Char} (h : ∀ c ∈ cs, p c = true)
    (stop : StopsAt p rest) : (cs ++ rest).dropWhile p = rest := by
  rw [List.dropWhile_append_of_pos h]
  cases rest with
  | nil => rfl
  | cons c rest => simp [stop c rfl]

/-! ### Pieces -/

namespace Pieces

variable {α : Type} [DecidableEq α]

/-- The pieces between separators. -/
def split (separator : α) : List α → List (List α)
  | [] => [[]]
  | a :: rest =>
    if a = separator then [] :: split separator rest
    else match split separator rest with
      | piece :: pieces => (a :: piece) :: pieces
      | [] => [[a]]

/-- The part before the first separator, and the part after it; nothing after if there is none. -/
def splitFirst (separator : α) (as : List α) : List α × List α :=
  (as.takeWhile (· ≠ separator), (as.dropWhile (· ≠ separator)).drop 1)

theorem split_ne_nil (separator : α) (as : List α) : split separator as ≠ [] := by
  cases as with
  | nil => simp [split]
  | cons a rest =>
    unfold split
    split
    · simp
    · split <;> simp

/-- A separator between two lists is one between their pieces. -/
theorem split_append (separator : α) (as bs : List α) :
    split separator (as ++ separator :: bs) = split separator as ++ split separator bs := by
  induction as with
  | nil => simp [split]
  | cons a rest ih =>
    by_cases h : a = separator
    · simp [split, h, ih]
    · cases hs : split separator rest with
      | nil => exact absurd hs (split_ne_nil separator rest)
      | cons piece pieces => simp [split, h, ih, hs]

/-- A list without the separator is one piece. -/
theorem split_of_not_mem (separator : α) (as : List α) (h : separator ∉ as) :
    split separator as = [as] := by
  induction as with
  | nil => rfl
  | cons a rest ih =>
    simp only [List.mem_cons, not_or] at h
    obtain ⟨ha, hr⟩ := h
    simp [split, Ne.symm ha, ih hr]

/-- The first separator is the one behind a list without any. -/
theorem splitFirst_append (separator : α) {as : List α} (h : separator ∉ as) (bs : List α) :
    splitFirst separator (as ++ separator :: bs) = (as, bs) := by
  have has : ∀ a ∈ as, decide (a ≠ separator) = true := by
    intro a ha
    exact decide_eq_true fun heq => h (heq ▸ ha)
  rw [splitFirst, List.takeWhile_append_of_pos has, List.dropWhile_append_of_pos has]
  simp

end Pieces

end TenantSql
