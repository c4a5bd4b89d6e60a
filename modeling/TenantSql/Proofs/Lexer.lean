import TenantSql.Ident
import TenantSql.Number.Decimal
import TenantSql.Text.Quoted
import TenantSql.Text.Basic
/-!
# TenantSql.Proofs.Lexer

The tokens of SQL, and a scanner that cuts a text into them as Postgres does: the
longest token at the front, with blanks between tokens skipped.

Only the tokens of a statement without literals are there. String literals,
numbers, comments and dollar quotes have none, so that a text which holds one of
them is not cut at all: a successful scan says that the text has none of them.

A token ends where the next character cannot extend it, so every fact about a
text depends on what follows it. `Scans` carries the rest of the text along, and
`Clause` is for pieces that need nothing but a blank or a semicolon behind them.
-/

namespace TenantSql

/-- A token of SQL. -/
inductive Token where
  | word (text : String)
  | quoted (content : String)
  | param (number : Nat)
  | operator (text : String)
  | cast
  | star
  | dot
  | semicolon
deriving DecidableEq, Repr

namespace Token

/-- Characters between tokens. -/
def isSpace (c : Char) : Bool :=
  c == ' ' || c == '\t' || c == '\n' || c == '\r' || c == '\x0b' || c == '\x0c'

/-- The characters that operators are made of. -/
def operatorChars : List Char :=
  ['+', '-', '*', '/', '<', '>', '=', '~', '!', '@', '#', '%', '^', '&', '|', '\x60', '?']

/-- Whether a character is one of those of operators. -/
def isOperatorChar (c : Char) : Bool :=
  operatorChars.contains c

/-- Whether a comment begins somewhere in a run of operator characters. -/
def opensComment : List Char → Bool
  | '-' :: '-' :: _ => true
  | '/' :: '*' :: _ => true
  | _ :: rest => opensComment rest
  | [] => false

/-- The token that a run of operator characters is. -/
def ofRun? (run : List Char) : Option Token :=
  if opensComment run then none
  else if run = ['*'] then some .star
  else some (.operator (String.ofList run))

/-- A placeholder after its dollar sign. A name that follows the digits directly is refused. -/
def readParam? (cs : List Char) : Option (Token × List Char) :=
  if (cs.takeWhile Char.isDigit).isEmpty || (cs.dropWhile Char.isDigit).head?.any isIdentStart then
    none
  else
    some (.param (Nat.ofDigitChars 10 (cs.takeWhile Char.isDigit) 0), cs.dropWhile Char.isDigit)

/-- A quoted identifier after its opening quote; the empty one is refused. -/
def readQuoted? (cs : List Char) : Option (Token × List Char) :=
  match Quoted.readInside? '"' cs with
  | some (c :: content, rest) => some (.quoted (String.ofList (c :: content)), rest)
  | _ => none

/-- The token that begins with a mark of punctuation. -/
def readMark? : List Char → Option (Token × List Char)
  | '.' :: rest => some (.dot, rest)
  | ';' :: rest => some (.semicolon, rest)
  | ':' :: ':' :: rest => some (.cast, rest)
  | '$' :: rest => readParam? rest
  | '"' :: rest => readQuoted? rest
  | _ => none

/-- The longest token at the front, where no blank stands. -/
def read? : List Char → Option (Token × List Char)
  | [] => none
  | c :: rest =>
    if isIdentStart c then
      some (.word (String.ofList (c :: rest.takeWhile isIdentRest)), rest.dropWhile isIdentRest)
    else if isOperatorChar c then
      (ofRun? (c :: rest.takeWhile isOperatorChar)).map fun t =>
        (t, rest.dropWhile isOperatorChar)
    else readMark? (c :: rest)

/-! ### A token takes something from the text -/

theorem length_dropWhile_le {α : Type} (p : α → Bool) (as : List α) :
    (as.dropWhile p).length ≤ as.length :=
  (List.dropWhile_sublist p).length_le

theorem length_of_readInside? {quote : Char} {cs content rest : List Char}
    (h : Quoted.readInside? quote cs = some (content, rest)) : rest.length < cs.length := by
  fun_induction Quoted.readInside? quote cs generalizing content with
  | case1 => cases h
  | case2 => cases h; simp
  | case3 => cases h
  | case4 tail ih =>
    obtain ⟨p, hp, hpair⟩ := Option.map_eq_some_iff.mp h
    cases hpair
    have := ih hp
    simp only [List.length_cons]
    omega
  | case5 => cases h; simp
  | case6 c d tail hc ih =>
    obtain ⟨p, hp, hpair⟩ := Option.map_eq_some_iff.mp h
    cases hpair
    have := ih hp
    simp only [List.length_cons] at this ⊢
    omega

theorem length_of_readMark? {cs rest : List Char} {t : Token}
    (h : readMark? cs = some (t, rest)) : rest.length < cs.length := by
  unfold readMark? at h
  split at h
  · cases h; exact Nat.lt_succ_self _
  · cases h; exact Nat.lt_succ_self _
  · cases h; exact Nat.lt_succ_of_lt (Nat.lt_succ_self _)
  · unfold readParam? at h
    split at h
    · cases h
    · cases h
      exact Nat.lt_succ_of_le (length_dropWhile_le _ _)
  · unfold readQuoted? at h
    split at h
    · rename_i hread
      cases h
      exact Nat.lt_succ_of_lt (length_of_readInside? hread)
    · cases h
  · cases h

theorem length_of_read? {cs rest : List Char} {t : Token} (h : read? cs = some (t, rest)) :
    rest.length < cs.length := by
  cases cs with
  | nil => cases h
  | cons c tail =>
    rw [read?] at h
    split at h
    · cases h
      exact Nat.lt_succ_of_le (length_dropWhile_le _ _)
    · split at h
      · obtain ⟨u, -, hpair⟩ := Option.map_eq_some_iff.mp h
        cases hpair
        exact Nat.lt_succ_of_le (length_dropWhile_le _ _)
      · exact length_of_readMark? h

/-- The tokens of a text, if it is made of tokens and blanks throughout. -/
def scan? : List Char → Option (List Token)
  | [] => some []
  | c :: rest =>
    if isSpace c then scan? rest
    else match h : read? (c :: rest) with
      | none => none
      | some (t, after) =>
        have : after.length < rest.length + 1 := length_of_read? h
        (scan? after).map (t :: ·)
termination_by cs => cs.length

theorem scan?_space {c : Char} (h : isSpace c = true) (rest : List Char) :
    scan? (c :: rest) = scan? rest := by
  rw [scan?, if_pos h]

theorem scan?_of_read? {c : Char} {rest after : List Char} {t : Token}
    (hc : isSpace c = false) (h : read? (c :: rest) = some (t, after)) :
    scan? (c :: rest) = (scan? after).map (t :: ·) := by
  rw [scan?, if_neg (by simp [hc])]
  split
  · rename_i hnone
    rw [h] at hnone
    cases hnone
  · rename_i u rest' hsome
    rw [h] at hsome
    cases hsome
    rfl

/-! ### Scanning with a rest -/

/-- A text begins with some tokens and leaves a rest: scanning it is scanning the rest, with the
tokens in front. -/
def Scans (cs : List Char) (ts : List Token) (rest : List Char) : Prop :=
  scan? cs = (scan? rest).map (ts ++ ·)

namespace Scans

theorem refl (cs : List Char) : Scans cs [] cs := by
  simp [Scans]

theorem trans {cs middle rest : List Char} {ts us : List Token} (first : Scans cs ts middle)
    (last : Scans middle us rest) : Scans cs (ts ++ us) rest := by
  unfold Scans at *
  rw [first, last, Option.map_map]
  congr 1
  funext vs
  simp

theorem space {cs rest : List Char} {ts : List Token} (h : Scans cs ts rest) :
    Scans (' ' :: cs) ts rest := by
  rw [Scans, scan?_space (by decide)]
  exact h

theorem token {c : Char} {cs rest : List Char} {t : Token} (hc : isSpace c = false)
    (h : read? (c :: cs) = some (t, rest)) : Scans (c :: cs) [t] rest :=
  scan?_of_read? hc h

/-- A text without a rest is scanned. -/
theorem scan?_eq {cs : List Char} {ts : List Token} (h : Scans cs ts []) : scan? cs = some ts := by
  simpa [Scans, scan?] using h

end Scans

theorem isIdentStart_of_isSpace {c : Char} (h : isSpace c = true) : isIdentStart c = false := by
  simp only [isSpace, Bool.or_eq_true, beq_iff_eq] at h
  rcases h with ((((rfl | rfl) | rfl) | rfl) | rfl) | rfl <;> decide

theorem all_operatorChars :
    operatorChars.all (fun c => !isIdentStart c && !isSpace c) = true := by
  decide

theorem apart_of_isOperatorChar {c : Char} (h : isOperatorChar c = true) :
    isIdentStart c = false ∧ isSpace c = false := by
  have hc := List.all_eq_true.mp all_operatorChars c (List.contains_iff_mem.mp h)
  simpa using hc

/-- A name is one word, unless what follows goes on with it. -/
theorem scans_word {name : String} {rest : List Char} (h : isIdent name.toList = true)
    (stop : StopsAt isIdentRest rest) : Scans (name.toList ++ rest) [.word name] rest := by
  cases hcs : name.toList with
  | nil => rw [hcs] at h; cases h
  | cons c cs =>
    rw [hcs, isIdent, Bool.and_eq_true, List.all_eq_true] at h
    obtain ⟨hc, hall⟩ := h
    have hspace : isSpace c = false := Bool.eq_false_iff.mpr fun hs => by
      rw [isIdentStart_of_isSpace hs] at hc
      cases hc
    rw [List.cons_append]
    refine Scans.token hspace ?_
    rw [read?, if_pos hc, takeWhile_append hall stop, dropWhile_append hall stop, ← hcs,
      String.ofList_toList]

/-- A run of operator characters is one token, unless what follows goes on with it. -/
theorem scans_run {run rest : List Char} {t : Token} (hne : run ≠ [])
    (hall : ∀ c ∈ run, isOperatorChar c = true) (hrun : ofRun? run = some t)
    (stop : StopsAt isOperatorChar rest) : Scans (run ++ rest) [t] rest := by
  cases run with
  | nil => exact absurd rfl hne
  | cons c cs =>
    obtain ⟨hc, hcs⟩ := List.forall_mem_cons.mp hall
    obtain ⟨hstart, hspace⟩ := apart_of_isOperatorChar hc
    rw [List.cons_append]
    refine Scans.token hspace ?_
    rw [read?, if_neg (by simp [hstart]), if_pos hc,
      takeWhile_append hcs stop, dropWhile_append hcs stop, hrun]
    rfl

/-- A placeholder is one token, unless what follows goes on with its number or begins a name. -/
theorem scans_param (number : Nat) {rest : List Char} (stop : StopsAt Char.isDigit rest)
    (apart : StopsAt isIdentStart rest) :
    Scans ('$' :: (natDigits number ++ rest)) [.param number] rest := by
  have hall : ∀ c ∈ natDigits number, c.isDigit = true := fun c hc =>
    Nat.isDigit_of_mem_toDigits (by decide) (by decide) hc
  have hne : (natDigits number).isEmpty = false := by
    simp [natDigits, Nat.toDigits_ne_nil]
  have hjunk : rest.head?.any isIdentStart = false := by
    cases rest with
    | nil => rfl
    | cons c rest => simpa using apart c rfl
  refine Scans.token (by decide) ?_
  rw [read?, if_neg (by decide), if_neg (by decide), readMark?, readParam?,
    takeWhile_append hall stop, dropWhile_append hall stop, hne, hjunk, natDigits,
    Nat.ofDigitChars_ten_toDigits]
  rfl

/-- A text in double quotes is one token with the text as its content, unless another quote
follows. -/
theorem scans_quoted {content : String} {rest : List Char} (hne : content.toList ≠ [])
    (stop : rest.head? ≠ some '"') :
    Scans ((Quoted.identifier content).toList ++ rest) [.quoted content] rest := by
  cases hcs : content.toList with
  | nil => exact absurd hcs hne
  | cons c cs =>
    have hread := Quoted.readInside?_escape_append '"' content.toList rest stop
    have hcontent : content = String.ofList (c :: cs) := by rw [← hcs, String.ofList_toList]
    rw [Quoted.identifier, String.toList_ofList, Quoted.encode, List.cons_append,
      List.append_assoc, List.singleton_append]
    refine Scans.token (by decide) ?_
    rw [read?, if_neg (by decide), if_neg (by decide), readMark?, readQuoted?, hread, hcs, hcontent]

/-! ### Clauses -/

/-- What goes on with no token: nothing, or a text that begins with a blank or a semicolon. -/
def Apart (rest : List Char) : Prop :=
  ∀ c ∈ rest.head?, c = ' ' ∨ c = ';'

theorem Apart.stopsAt {p : Char → Bool} {rest : List Char} (h : Apart rest)
    (hspace : p ' ' = false) (hsemicolon : p ';' = false) : StopsAt p rest := by
  intro c hc
  rcases h c hc with rfl | rfl
  · exact hspace
  · exact hsemicolon

/-- A text that is some tokens whatever stands apart from it on either side. -/
structure Clause (text : String) (ts : List Token) : Prop where
  apart : Apart text.toList
  scans : ∀ rest, Apart rest → Scans (text.toList ++ rest) ts rest

namespace Clause

theorem empty : Clause "" [] :=
  ⟨fun _ hc => absurd hc (by simp), fun rest _ => Scans.refl rest⟩

theorem apart_append {text : String} {ts : List Token} {rest : List Char} (h : Clause text ts)
    (hrest : Apart rest) : Apart (text.toList ++ rest) := by
  cases hcs : text.toList with
  | nil => exact hrest
  | cons c cs =>
    intro d hd
    exact h.apart d (by simpa [hcs] using hd)

theorem scans_toList {text : String} {ts : List Token} (h : Clause text ts) :
    Scans text.toList ts [] := by
  have hend := h.scans [] fun _ hc => absurd hc (by simp)
  rwa [List.append_nil] at hend

theorem append {text more : String} {ts us : List Token} (first : Clause text ts)
    (last : Clause more us) : Clause (text ++ more) (ts ++ us) := by
  refine ⟨?_, fun rest hrest => ?_⟩
  · rw [String.toList_append]
    exact first.apart_append last.apart
  · rw [String.toList_append, List.append_assoc]
    exact (first.scans _ (last.apart_append hrest)).trans (last.scans rest hrest)

/-- A blank in front makes a clause of a text that only needs something apart behind it. -/
theorem spaced {text : String} {ts : List Token}
    (h : ∀ rest, Apart rest → Scans (text.toList ++ rest) ts rest) : Clause (" " ++ text) ts := by
  have hcs : (" " ++ text).toList = ' ' :: text.toList := String.toList_append
  refine ⟨fun c hc => ?_, fun rest hrest => ?_⟩
  · rw [hcs, List.head?_cons, Option.mem_some_iff] at hc
    exact .inl hc.symm
  · rw [hcs, List.cons_append]
    exact (h rest hrest).space

theorem word {name : String} (h : isIdent name.toList = true) :
    Clause (" " ++ name) [.word name] :=
  spaced fun _ hrest => scans_word h (hrest.stopsAt (by decide) (by decide))

theorem run {text : String} {t : Token} (hne : text.toList ≠ [])
    (hall : text.toList.all isOperatorChar = true) (hrun : ofRun? text.toList = some t) :
    Clause (" " ++ text) [t] :=
  spaced fun _ hrest =>
    scans_run hne (List.all_eq_true.mp hall) hrun (hrest.stopsAt (by decide) (by decide))

theorem semicolon : Clause ";" [.semicolon] :=
  ⟨fun _ hc => .inr (Option.mem_some_iff.mp hc).symm,
    fun _ _ => Scans.token (by decide) rfl⟩

end Clause

end Token

end TenantSql
