import TenantSql.Log
import TenantSql.Text.Utf8
/-!
# TenantSql.Proofs.Truncation

Long SQL is cut behind the last character that fits.

The cut can be found from either side. From the beginning, characters are taken as long as
they fit (`Tracer.takeBytes`); that is how SQL is reported. Over bytes, one goes back from
the limit to a position between two characters (`Utf8.boundaryBefore?`) and takes what is
before it. Such positions are told by one byte, as the bytes of a character after its first
are of a kind of their own (`Utf8.exists_lead_of_encode`), so they are the ends of the whole
characters from the beginning (`Utf8.isBoundary_iff`). Going back therefore stops, and at
the same place (`Tracer.truncateBackwards?_eq`).
-/

namespace TenantSql

namespace Utf8

/-- Whether a position in bytes lies between two characters: at either end, or before a byte that
begins one. -/
def isBoundary (bytes : List UInt8) (i : Nat) : Bool :=
  i == 0 ||
    match bytes[i]? with
    | some b => !isContinuation b
    | none => i == bytes.length

/-- The first position between two characters on the way back from `i`. From zero there is no way
back. -/
def boundaryBefore? (bytes : List UInt8) : Nat → Option Nat
  | 0 => if isBoundary bytes 0 then some 0 else none
  | i + 1 => if isBoundary bytes (i + 1) then some (i + 1) else boundaryBefore? bytes i

/-- The text before a position, if that lies between two characters. -/
def textBefore? (bytes : List UInt8) (i : Nat) : Option String :=
  if isBoundary bytes i then decode? (bytes.take i) else none

/-! ### Positions between characters -/

theorem encodeChars_append (cs ds : List Char) :
    encodeChars (cs ++ ds) = encodeChars cs ++ encodeChars ds :=
  List.flatMap_append

theorem isContinuation_ofNat {n : Nat} (h : n < 256) :
    isContinuation (.ofNat n) = true ↔ 0x80 ≤ n ∧ n ≤ 0xBF := by
  have hn : (UInt8.ofNat n).toNat = n := by
    rw [UInt8.toNat_ofNat']
    exact Nat.mod_eq_of_lt h
  simp only [isContinuation, UInt8.le_iff_toNat_le, hn, Bool.and_eq_true, decide_eq_true_eq]
  rfl

theorem isContinuation_of_mem_map (ns : List Nat) :
    ∀ b ∈ ns.map fun n => UInt8.ofNat (n % 64 + 0x80), isContinuation b = true := by
  intro b hb
  obtain ⟨n, -, rfl⟩ := List.mem_map.mp hb
  exact (isContinuation_ofNat (by omega)).mpr ⟨by omega, by omega⟩

theorem not_isContinuation_of_lt {n : Nat} (h : n < 0x80) : isContinuation (.ofNat n) = false := by
  rw [Bool.eq_false_iff, ne_eq, isContinuation_ofNat (by omega)]
  omega

theorem not_isContinuation_of_le {n : Nat} (h : 0xC0 ≤ n) (hn : n < 256) :
    isContinuation (.ofNat n) = false := by
  rw [Bool.eq_false_iff, ne_eq, isContinuation_ofNat hn]
  omega

/-- Of the bytes of a character all but the first are continuations. -/
theorem exists_lead_of_encode (c : Char) :
    ∃ lead tail, String.utf8EncodeChar c = lead :: tail ∧ isContinuation lead = false ∧
      ∀ b ∈ tail, isContinuation b = true := by
  unfold String.utf8EncodeChar
  generalize c.val.toNat = n
  dsimp only
  split
  · exact ⟨_, _, rfl, not_isContinuation_of_lt (by omega), List.forall_mem_nil _⟩
  -- A first byte of more than one holds at least `0xC0`, the others hold six bits each.
  split
  · exact ⟨_, _, rfl, not_isContinuation_of_le (by omega) (by omega), isContinuation_of_mem_map [n]⟩
  split
  · exact ⟨_, _, rfl, not_isContinuation_of_le (by omega) (by omega),
      isContinuation_of_mem_map [n / 64, n]⟩
  · exact ⟨_, _, rfl, not_isContinuation_of_le (by omega) (by omega),
      isContinuation_of_mem_map [n / 4096, n / 64, n]⟩

theorem isBoundary_zero (bytes : List UInt8) : isBoundary bytes 0 = true := rfl

/-- No position lies between two characters if it lies inside one. -/
theorem isBoundary_inside (c : Char) (rest : List UInt8) {j : Nat} (hj : j + 1 < c.utf8Size) :
    isBoundary (String.utf8EncodeChar c ++ rest) (j + 1) = false := by
  obtain ⟨lead, tail, hc, -, htail⟩ := exists_lead_of_encode c
  rw [← String.length_utf8EncodeChar, hc, List.length_cons] at hj
  have hlt : j < tail.length := Nat.lt_of_succ_lt_succ hj
  have hbyte : (lead :: tail ++ rest)[j + 1]? = some tail[j] := by
    rw [List.cons_append, List.getElem?_cons_succ, List.getElem?_append_left hlt,
      List.getElem?_eq_getElem hlt]
  rw [hc, isBoundary, hbyte]
  simp [htail _ (List.getElem_mem hlt)]

/-- Behind a character the positions between two are those of the rest. -/
theorem isBoundary_behind (c : Char) (cs : List Char) (j : Nat) :
    isBoundary (String.utf8EncodeChar c ++ encodeChars cs) (c.utf8Size + j) =
      isBoundary (encodeChars cs) j := by
  unfold isBoundary
  rw [← String.length_utf8EncodeChar, List.getElem?_append_right (Nat.le_add_right _ _),
    Nat.add_sub_cancel_left]
  cases j with
  | zero =>
    cases cs with
    | nil => simp [encodeChars]
    | cons d ds =>
      obtain ⟨lead, tail, hd, hlead, -⟩ := exists_lead_of_encode d
      simp [encodeChars_cons, hd, hlead]
  | succ j =>
    cases (encodeChars cs)[j + 1]? with
    | none =>
      rw [Bool.eq_iff_iff]
      simp
    | some b => simp

/-- The positions between characters are the ends of the whole characters from the beginning. -/
theorem isBoundary_iff {cs : List Char} {i : Nat} :
    isBoundary (encodeChars cs) i = true ↔ ∃ ds, ds <+: cs ∧ (encodeChars ds).length = i := by
  induction cs generalizing i with
  | nil =>
    cases i <;> simp [isBoundary, encodeChars]
  | cons c cs ih =>
    have hlen := String.length_utf8EncodeChar c
    have hpos := c.utf8Size_pos
    rw [encodeChars_cons]
    rcases Nat.lt_or_ge i c.utf8Size with hi | hi
    · cases i with
      | zero => exact iff_of_true (isBoundary_zero _) ⟨[], List.nil_prefix, rfl⟩
      | succ j =>
        rw [isBoundary_inside c _ hi]
        refine iff_of_false Bool.false_ne_true ?_
        rintro ⟨ds, hds, hlength⟩
        cases ds with
        | nil => cases hlength
        | cons d ds =>
          obtain ⟨rfl, -⟩ := List.cons_prefix_cons.mp hds
          rw [encodeChars_cons, List.length_append, hlen] at hlength
          omega
    · obtain ⟨j, rfl⟩ := Nat.exists_eq_add_of_le hi
      rw [isBoundary_behind, ih]
      constructor
      · rintro ⟨ds, hds, rfl⟩
        refine ⟨c :: ds, List.cons_prefix_cons.mpr ⟨rfl, hds⟩, ?_⟩
        rw [encodeChars_cons, List.length_append, hlen]
      · rintro ⟨ds, hds, hlength⟩
        cases ds with
        | nil =>
          have : c.utf8Size + j = 0 := hlength.symm
          omega
        | cons d ds =>
          obtain ⟨rfl, hrest⟩ := List.cons_prefix_cons.mp hds
          rw [encodeChars_cons, List.length_append, hlen] at hlength
          exact ⟨ds, hrest, Nat.add_left_cancel hlength⟩

/-- Going back from `i` stops at `e`, if that lies between two characters and nothing from there to
`i` does. -/
theorem boundaryBefore?_eq_some {bytes : List UInt8} {e i : Nat} (he : isBoundary bytes e = true)
    (hle : e ≤ i) (hgap : ∀ j, e < j → j ≤ i → isBoundary bytes j = false) :
    boundaryBefore? bytes i = some e := by
  induction i with
  | zero =>
    obtain rfl := Nat.le_zero.mp hle
    exact if_pos he
  | succ i ih =>
    rcases Nat.eq_or_lt_of_le hle with rfl | hlt
    · exact if_pos he
    · rw [boundaryBefore?, if_neg (by simp [hgap (i + 1) hlt])]
      exact ih (Nat.le_of_lt_succ hlt) fun j hj hji => hgap j hj (Nat.le_succ_of_le hji)

theorem length_encodeChars_le {ds cs : List Char} (h : ds <+: cs) :
    (encodeChars ds).length ≤ (encodeChars cs).length := by
  obtain ⟨es, rfl⟩ := h
  rw [encodeChars_append, List.length_append]
  exact Nat.le_add_right _ _

/-- What is before the end of whole characters is these. -/
theorem textBefore?_length {cs ds : List Char} (h : ds <+: cs) :
    textBefore? (encodeChars cs) (encodeChars ds).length = some (.ofList ds) := by
  rw [textBefore?, if_pos (isBoundary_iff.mpr ⟨ds, h, rfl⟩)]
  obtain ⟨es, rfl⟩ := h
  rw [encodeChars_append, List.take_left, decode?, decodeChars?_encodeChars, Option.map_some]

theorem length_encodeChars (cs : List Char) :
    (encodeChars cs).length = (String.ofList cs).utf8ByteSize := by
  rw [encodeChars, String.utf8ByteSize, String.toByteArray_ofList, List.utf8Encode]
  simp

end Utf8

/-! ### The longest beginning that fits -/

namespace Tracer

open Utf8 (encodeChars encodeChars_cons)

theorem takeBytes_isPrefix (room : Nat) (cs : List Char) : takeBytes room cs <+: cs := by
  induction cs generalizing room with
  | nil => exact List.prefix_rfl
  | cons c cs ih =>
    unfold takeBytes
    split
    · exact List.cons_prefix_cons.mpr ⟨rfl, ih _⟩
    · exact List.nil_prefix

theorem length_takeBytes_le (room : Nat) (cs : List Char) :
    (encodeChars (takeBytes room cs)).length ≤ room := by
  induction cs generalizing room with
  | nil => exact Nat.zero_le _
  | cons c cs ih =>
    unfold takeBytes
    split
    · rw [encodeChars_cons, List.length_append, String.length_utf8EncodeChar]
      have hrest := ih (room - c.utf8Size)
      omega
    · exact Nat.zero_le _

/-- Whatever beginning fits is a beginning of what is taken. -/
theorem isPrefix_takeBytes {room : Nat} {ds cs : List Char} (h : ds <+: cs)
    (hfit : (encodeChars ds).length ≤ room) : ds <+: takeBytes room cs := by
  induction cs generalizing room ds with
  | nil => exact h
  | cons c cs ih =>
    cases ds with
    | nil => exact List.nil_prefix
    | cons d ds =>
      obtain ⟨rfl, hds⟩ := List.cons_prefix_cons.mp h
      rw [encodeChars_cons, List.length_append, String.length_utf8EncodeChar] at hfit
      rw [takeBytes, if_pos (by omega)]
      exact List.cons_prefix_cons.mpr ⟨rfl, ih hds (by omega)⟩

/-- If not all fits, what is taken leaves no room for a character of four bytes. -/
theorem lt_length_takeBytes_add {room : Nat} {cs : List Char} (h : room < (encodeChars cs).length) :
    room < (encodeChars (takeBytes room cs)).length + 4 := by
  induction cs generalizing room with
  | nil => exact absurd h (Nat.not_lt_zero _)
  | cons c cs ih =>
    rw [encodeChars_cons, List.length_append, String.length_utf8EncodeChar] at h
    unfold takeBytes
    split
    · have hrest : room - c.utf8Size < (encodeChars cs).length := by omega
      have hlt := ih hrest
      rw [encodeChars_cons, List.length_append, String.length_utf8EncodeChar]
      omega
    · have hfour := c.utf8Size_le_four
      omega

/-- Going back over bytes stops where taking characters does. -/
theorem boundaryBefore?_eq (limit : Nat) (cs : List Char) :
    Utf8.boundaryBefore? (encodeChars cs) limit =
      some (encodeChars (takeBytes limit cs)).length := by
  have hprefix := takeBytes_isPrefix limit cs
  refine Utf8.boundaryBefore?_eq_some (Utf8.isBoundary_iff.mpr ⟨_, hprefix, rfl⟩)
    (length_takeBytes_le limit cs) fun j hj hle => ?_
  rw [Bool.eq_false_iff, ne_eq, Utf8.isBoundary_iff]
  rintro ⟨ds, hds, rfl⟩
  exact absurd (Utf8.length_encodeChars_le (isPrefix_takeBytes hds hle)) (Nat.not_le_of_lt hj)

/-- SQL as it is reported, cut by going back over its bytes: nothing comes of it if there is no way
back, or if the cut is inside a character. -/
def truncateBackwards? (t : Tracer) (sql : String) : Option String :=
  let bytes := Utf8.encode sql
  match t.maxSqlLength with
  | some limit =>
    if limit < bytes.length then do
      let cut ← Utf8.boundaryBefore? bytes limit
      return (← Utf8.textBefore? bytes cut) ++ "..."
    else some sql
  | none => some sql

theorem truncateBackwards?_eq (t : Tracer) (sql : String) :
    t.truncateBackwards? sql = some (t.truncate sql) := by
  unfold truncateBackwards? truncate
  cases t.maxSqlLength with
  | none => rfl
  | some limit =>
    dsimp only
    rw [Utf8.encode, Utf8.length_encodeChars, String.ofList_toList, boundaryBefore?_eq]
    split
    · rw [Option.bind_eq_bind, Option.bind_some,
        Utf8.textBefore?_length (takeBytes_isPrefix limit sql.toList)]
      rfl
    · rfl

/-- The longest beginning of SQL that fits. -/
def fitting (limit : Nat) (sql : String) : String := .ofList (takeBytes limit sql.toList)

theorem exists_eq_fitting_append (limit : Nat) (sql : String) :
    ∃ rest, sql = fitting limit sql ++ rest := by
  obtain ⟨rest, hrest⟩ := takeBytes_isPrefix limit sql.toList
  refine ⟨.ofList rest, ?_⟩
  rw [fitting, ← String.ofList_append, hrest, String.ofList_toList]

theorem utf8ByteSize_fitting_le (limit : Nat) (sql : String) :
    (fitting limit sql).utf8ByteSize ≤ limit := by
  rw [fitting, ← Utf8.length_encodeChars]
  exact length_takeBytes_le limit sql.toList

/-- Whatever beginning fits is one of the longest. -/
theorem exists_fitting_eq_append {limit : Nat} {sql q r : String} (h : sql = q ++ r)
    (hfit : q.utf8ByteSize ≤ limit) : ∃ d, fitting limit sql = q ++ d := by
  have hprefix : q.toList <+: sql.toList := ⟨r.toList, by rw [h, String.toList_append]⟩
  rw [← String.ofList_toList (s := q), ← Utf8.length_encodeChars] at hfit
  obtain ⟨d, hd⟩ := isPrefix_takeBytes hprefix hfit
  refine ⟨.ofList d, ?_⟩
  rw [fitting, ← hd, String.ofList_append, String.ofList_toList]

theorem lt_utf8ByteSize_fitting_add {limit : Nat} {sql : String} (h : limit < sql.utf8ByteSize) :
    limit < (fitting limit sql).utf8ByteSize + 4 := by
  rw [← String.ofList_toList (s := sql), ← Utf8.length_encodeChars] at h
  rw [fitting, ← Utf8.length_encodeChars]
  exact lt_length_takeBytes_add h

theorem fitting_of_lt_utf8Size {limit : Nat} {sql : String} {c : Char}
    (hc : sql.toList.head? = some c) (h : limit < c.utf8Size) : fitting limit sql = "" := by
  obtain ⟨rest, hrest⟩ := List.head?_eq_some_iff.mp hc
  rw [fitting, hrest, takeBytes, if_neg (Nat.not_le_of_lt h)]

theorem truncate_of_none {t : Tracer} (h : t.maxSqlLength = none) (sql : String) :
    t.truncate sql = sql := by
  rw [truncate, h]

theorem truncate_of_le {t : Tracer} {sql : String} {limit : Nat} (h : t.maxSqlLength = some limit)
    (hle : sql.utf8ByteSize ≤ limit) : t.truncate sql = sql := by
  rw [truncate, h]
  exact if_neg (Nat.not_lt_of_le hle)

theorem truncate_of_lt {t : Tracer} {sql : String} {limit : Nat} (h : t.maxSqlLength = some limit)
    (hlt : limit < sql.utf8ByteSize) : t.truncate sql = fitting limit sql ++ "..." := by
  rw [truncate, h]
  exact if_pos hlt

end Tracer

/-- **SQL is cut behind the last character that fits.** The cut can be found by going back over the
bytes from the limit: there always is a way back to a position between two characters, and what is
reported ends there. Without a limit, or if the SQL is within it, all of it is reported. Otherwise
its longest beginning of whole characters within the limit is reported, with an ellipsis behind. That
has more bytes than four less than the limit, and no characters if the first one is beyond it. -/
theorem Tracer.truncate_longest (t : Tracer) (sql : String) :
    t.truncateBackwards? sql = some (t.truncate sql) ∧
    (t.maxSqlLength = none → t.truncate sql = sql) ∧
    ∀ limit, t.maxSqlLength = some limit →
      (sql.utf8ByteSize ≤ limit → t.truncate sql = sql) ∧
      (limit < sql.utf8ByteSize → ∃ p rest : String,
        sql = p ++ rest ∧ t.truncate sql = p ++ "..." ∧ p.utf8ByteSize ≤ limit ∧
        (∀ q r : String, sql = q ++ r → q.utf8ByteSize ≤ limit → ∃ d, p = q ++ d) ∧
        limit < p.utf8ByteSize + 4 ∧
        ∀ c, sql.toList.head? = some c → limit < c.utf8Size → p = "") := by
  refine ⟨truncateBackwards?_eq t sql, fun h => truncate_of_none h sql, fun limit h => ⟨?_, ?_⟩⟩
  · exact truncate_of_le h
  · intro hlt
    obtain ⟨rest, hrest⟩ := exists_eq_fitting_append limit sql
    exact ⟨fitting limit sql, rest, hrest, truncate_of_lt h hlt, utf8ByteSize_fitting_le limit sql,
      fun _ _ => exists_fitting_eq_append, lt_utf8ByteSize_fitting_add hlt,
      fun _ => fitting_of_lt_utf8Size⟩

/-- A limit inside a character of four bytes behind others, one inside the first character, one that
is met, and none. -/
theorem Tracer.truncate_longest_inside_character :
    (⟨.debug, some 6⟩ : Tracer).truncate "aé😀;" = "aé..." ∧
    (⟨.debug, some 3⟩ : Tracer).truncate "😀;" = "..." ∧
    (⟨.debug, some 3⟩ : Tracer).truncateBackwards? "😀;" = some "..." ∧
    (⟨.debug, some 5⟩ : Tracer).truncate "😀;" = "😀;" ∧
    (⟨.debug, none⟩ : Tracer).truncate "😀;" = "😀;" := by
  obtain ⟨hbehind, -, -⟩ := truncate_longest ⟨.debug, some 6⟩ "aé😀;"
  obtain ⟨hback, -, hshort⟩ := truncate_longest ⟨.debug, some 3⟩ "😀;"
  obtain ⟨p, -, -, htext, -, -, -, hempty⟩ := (hshort 3 rfl).2 (by decide)
  obtain ⟨-, -, hwithin⟩ := truncate_longest ⟨.debug, some 5⟩ "😀;"
  obtain ⟨-, hall, -⟩ := truncate_longest ⟨.debug, none⟩ "😀;"
  have hcut : (⟨.debug, some 6⟩ : Tracer).truncateBackwards? "aé😀;" = some "aé..." := by
    decide +kernel
  have hnone : (⟨.debug, some 3⟩ : Tracer).truncate "😀;" = "..." := by
    rw [htext, hempty '😀' (by decide) (by decide)]
    rfl
  exact ⟨Option.some.inj (hbehind.symm.trans hcut), hnone, hback.trans (congrArg some hnone),
    (hwithin 5 rfl).1 (by decide), hall rfl⟩

end TenantSql
