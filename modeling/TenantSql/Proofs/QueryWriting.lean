import Mathlib.Data.List.Forall2
import TenantSql.Params
import TenantSql.Text.Basic
/-!
# TenantSql.Proofs.QueryWriting

Every list of pairs can be sent as a query string.

`WritesBytes` says which texts write some bytes: a byte may be spelled in more than one
way, and a query may take another way each time. `WritesPairs` joins keys and values, and
`write` is a writer for it. Reading gives back the pairs that were written, in whatever
spelling (`pairs_of_writesPairs`), so the parameters are those of the pairs
(`ofQuery_of_pairs`).

No text that writes bytes holds one of the two separators, so that cutting at them
undoes the joining, and a plus sign in it stands for a blank and nothing else.
-/

namespace TenantSql.QueryString

/-! ### Texts that write pairs -/

/-- A text that writes bytes. A letter or a digit may stand for itself and a plus sign for a blank;
any byte may be two hexadecimal digits of either case behind a percent sign. -/
inductive WritesBytes : List UInt8 → List Char → Prop
  | nil : WritesBytes [] []
  | plain {c : Char} {bytes : List UInt8} {cs : List Char} (hc : c.isAlphanum = true)
      (rest : WritesBytes bytes cs) : WritesBytes (c.toUInt8 :: bytes) (c :: cs)
  | blank {bytes : List UInt8} {cs : List Char} (rest : WritesBytes bytes cs) :
      WritesBytes (0x20 :: bytes) ('+' :: cs)
  | percent {b : UInt8} {high low : Char} {bytes : List UInt8} {cs : List Char}
      (hhigh : hexDigit? high = some (b.toNat / 16)) (hlow : hexDigit? low = some (b.toNat % 16))
      (rest : WritesBytes bytes cs) : WritesBytes (b :: bytes) ('%' :: high :: low :: cs)

/-- A text that writes the UTF-8 bytes of a key and of a value with an equals sign between. -/
def WritesPair (p : String × String) (cs : List Char) : Prop :=
  ∃ key value, WritesBytes (Utf8.encode p.1) key ∧ WritesBytes (Utf8.encode p.2) value ∧
    cs = key ++ '=' :: value

/-- A query string that writes pairs, in their order and with `&` between them. -/
def WritesPairs (pairs : List (String × String)) (query : String) : Prop :=
  ∃ pieces, List.Forall₂ WritesPair pairs pieces ∧ query.toList = ['&'].intercalate pieces

/-- A digit in base sixteen, as a capital letter above nine. -/
def hexChar (n : Nat) : Char := (Nat.digitChar n).toUpper

/-- The text of a byte: letters and digits are kept, and all else is percent-encoded. A blank may
also be a plus sign. -/
def writeByte (plus : Bool) (b : UInt8) : List Char :=
  if (Char.ofNat b.toNat).isAlphanum then [Char.ofNat b.toNat]
  else if plus && b == 0x20 then ['+']
  else ['%', hexChar (b.toNat / 16), hexChar (b.toNat % 16)]

/-- The text of a key or a value. -/
def writeText (plus : Bool) (s : String) : List Char := (Utf8.encode s).flatMap (writeByte plus)

/-- The query string of pairs. -/
def write (plus : Bool) (pairs : List (String × String)) : String :=
  String.ofList (['&'].intercalate
    (pairs.map fun p => writeText plus p.1 ++ '=' :: writeText plus p.2))

/-! ### Characters that write bytes -/

/-- The bytes of `%`, `&`, `+` and `=`, which have a meaning of their own. -/
def marks : List UInt8 := [0x25, 0x26, 0x2B, 0x3D]

/-- What holds of the 128 characters of ASCII holds of a character that is one of them. -/
theorem forall_ascii {P : Char → Prop} (h : ∀ k : Fin 128, P (Char.ofNat k)) {c : Char}
    (hc : c.toNat < 128) : P c := by
  have hP := h ⟨c.toNat, hc⟩
  rwa [Char.ofNat_toNat] at hP

theorem toNat_lt_of_isAlphanum {c : Char} (hc : c.isAlphanum = true) : c.toNat < 128 := by
  unfold Char.isAlphanum Char.isAlpha Char.isUpper Char.isLower Char.isDigit at hc
  simp [UInt32.le_iff_toNat_le] at hc
  omega

/-- A character of ASCII is one byte. -/
theorem encodeChars_cons_of_lt {c : Char} (hc : c.toNat < 128) (cs : List Char) :
    Utf8.encodeChars (c :: cs) = c.toUInt8 :: Utf8.encodeChars cs := by
  have henc : String.utf8EncodeChar c = [c.toUInt8] :=
    forall_ascii (P := fun c => String.utf8EncodeChar c = [c.toUInt8]) (by decide +kernel) hc
  rw [Utf8.encodeChars_cons, henc, List.singleton_append]

theorem encodeChars_cons_of_isAlphanum {c : Char} (hc : c.isAlphanum = true) (cs : List Char) :
    Utf8.encodeChars (c :: cs) = c.toUInt8 :: Utf8.encodeChars cs :=
  encodeChars_cons_of_lt (toNat_lt_of_isAlphanum hc) cs

theorem not_mem_marks_of_isAlphanum {c : Char} (hc : c.isAlphanum = true) : c.toUInt8 ∉ marks :=
  forall_ascii (P := fun c => c.isAlphanum = true → c.toUInt8 ∉ marks)
    (by decide +kernel) (toNat_lt_of_isAlphanum hc) hc

theorem isAlphanum_of_hexDigit? {c : Char} {n : Nat} (h : hexDigit? c = some n) :
    c.isAlphanum = true := by
  simp only [hexDigit?, Char.le_def, UInt32.le_iff_toNat_le, Bool.and_eq_true,
    decide_eq_true_eq] at h
  unfold Char.isAlphanum Char.isAlpha Char.isUpper Char.isLower Char.isDigit
  simp [UInt32.le_iff_toNat_le]
  -- The three ranges of digits lie in those of letters and digits.
  split at h
  · simp at *
    omega
  split at h
  · simp at *
    omega
  split at h
  · simp at *
    omega
  · cases h

/-- A hexadecimal digit has the same value as a character and as a byte. -/
theorem percent_hexDigit? {c : Char} {n : Nat} (h : hexDigit? c = some n) :
    Percent.hexDigit? c.toUInt8 = some (UInt8.ofNat n) := by
  have hc := toNat_lt_of_isAlphanum (isAlphanum_of_hexDigit? h)
  have heq : (hexDigit? c).map UInt8.ofNat = Percent.hexDigit? c.toUInt8 :=
    forall_ascii (P := fun c => (hexDigit? c).map UInt8.ofNat = Percent.hexDigit? c.toUInt8)
      (by decide +kernel) hc
  rw [← heq, h, Option.map_some]

/-- A byte is its high half times sixteen and its low half. -/
theorem percent_pair? {b : UInt8} {high low : Char} (hhigh : hexDigit? high = some (b.toNat / 16))
    (hlow : hexDigit? low = some (b.toNat % 16)) :
    Percent.pair? high.toUInt8 low.toUInt8 = some b := by
  have hb : 16 * UInt8.ofNat (b.toNat / 16) + UInt8.ofNat (b.toNat % 16) = b := by
    have hlt := b.toNat_lt
    rw [← UInt8.toNat_inj]
    simp
    omega
  simp [Percent.pair?, percent_hexDigit? hhigh, percent_hexDigit? hlow, hb]

/-- The bytes of a percent sign with its two digits. -/
theorem encodeChars_percent {high low : Char} {m n : Nat} (hhigh : hexDigit? high = some m)
    (hlow : hexDigit? low = some n) (cs : List Char) :
    Utf8.encodeChars ('%' :: high :: low :: cs) =
      0x25 :: high.toUInt8 :: low.toUInt8 :: Utf8.encodeChars cs := by
  rw [encodeChars_cons_of_lt (by decide),
    encodeChars_cons_of_isAlphanum (isAlphanum_of_hexDigit? hhigh),
    encodeChars_cons_of_isAlphanum (isAlphanum_of_hexDigit? hlow)]
  rfl

theorem encodeChars_plus (cs : List Char) :
    Utf8.encodeChars ('+' :: cs) = 0x2B :: Utf8.encodeChars cs :=
  encodeChars_cons_of_lt (by decide) cs

/-- A separator between two texts is one between their bytes. -/
theorem encodeChars_append_separator {c : Char} (hc : c.toNat < 128) (cs ds : List Char) :
    Utf8.encodeChars (cs ++ c :: ds) = Utf8.encodeChars cs ++ c.toUInt8 :: Utf8.encodeChars ds := by
  rw [← encodeChars_cons_of_lt hc]
  exact List.flatMap_append

/-! ### Reading what was written -/

namespace WritesBytes

variable {bytes : List UInt8} {cs : List Char}

/-- No separator is in a text that writes bytes. -/
theorem not_mem (h : WritesBytes bytes cs) {separator : UInt8} (hs : separator ∈ [0x26, 0x3D]) :
    separator ∉ Utf8.encodeChars cs := by
  have hmark : separator ∈ marks := by
    rcases List.mem_pair.mp hs with rfl | rfl <;> decide
  have hne : ∀ {c : Char}, c.isAlphanum = true → separator ≠ c.toUInt8 := by
    intro c hc heq
    exact not_mem_marks_of_isAlphanum hc (heq ▸ hmark)
  have hsigns : separator ≠ 0x25 ∧ separator ≠ 0x2B := by
    rcases List.mem_pair.mp hs with rfl | rfl <;> decide
  induction h with
  | nil => simp [Utf8.encodeChars]
  | plain hc _ ih => simp [encodeChars_cons_of_isAlphanum hc, hne hc, ih]
  | blank _ ih => simp [encodeChars_plus, hsigns, ih]
  | percent hhigh hlow _ ih =>
    simp [encodeChars_percent hhigh hlow, hsigns, hne (isAlphanum_of_hexDigit? hhigh),
      hne (isAlphanum_of_hexDigit? hlow), ih]

/-- Reading gives the bytes that were written. -/
theorem decode_eq (h : WritesBytes bytes cs) :
    Percent.decode ((Utf8.encodeChars cs).map plusToBlank) = bytes := by
  have hkept : ∀ {c : Char}, c.isAlphanum = true → plusToBlank c.toUInt8 = c.toUInt8 := by
    intro c hc
    have hmark := not_mem_marks_of_isAlphanum hc
    simp [marks] at hmark
    simp [plusToBlank, hmark]
  induction h with
  | nil => rfl
  | @plain c _ _ hc _ ih =>
    have hsign : c.toUInt8 ≠ 0x25 := by
      intro heq
      exact not_mem_marks_of_isAlphanum hc (by simp [heq, marks])
    rw [encodeChars_cons_of_isAlphanum hc, List.map_cons, hkept hc,
      Percent.decode_cons_of_ne hsign, ih]
  | blank _ ih =>
    rw [encodeChars_plus, List.map_cons]
    show Percent.decode (0x20 :: _) = _
    rw [Percent.decode_cons_of_ne (by decide), ih]
  | percent hhigh hlow _ ih =>
    rw [encodeChars_percent hhigh hlow, List.map_cons, List.map_cons, List.map_cons,
      hkept (isAlphanum_of_hexDigit? hhigh), hkept (isAlphanum_of_hexDigit? hlow)]
    show Percent.decode (0x25 :: _) = _
    rw [Percent.decode_pair (percent_pair? hhigh hlow), ih]

theorem decode_text {s : String} (h : WritesBytes (Utf8.encode s) cs) :
    decode (Utf8.encodeChars cs) = s := by
  rw [decode, h.decode_eq, Utf8.decodeLossy_encode]

end WritesBytes

/-- A piece that writes a pair is read as that pair. -/
theorem pairs_of_writesPair {p : String × String} {cs : List Char} (h : WritesPair p cs) :
    pairs (Utf8.encodeChars cs) = [p] := by
  obtain ⟨key, value, hkey, hvalue, rfl⟩ := h
  have hbytes : Utf8.encodeChars (key ++ '=' :: value) =
      Utf8.encodeChars key ++ 0x3D :: Utf8.encodeChars value :=
    encodeChars_append_separator (by decide) key value
  have hmem : 0x26 ∉ Utf8.encodeChars key ++ 0x3D :: Utf8.encodeChars value := by
    simp [hkey.not_mem, hvalue.not_mem]
  rw [hbytes, pairs_piece hmem (by simp), pair_append (hkey.not_mem (by simp)),
    hkey.decode_text, hvalue.decode_text]

/-- A query string that writes pairs is read as those pairs, in their order and with repetitions. -/
theorem pairs_of_writesPairs {ps : List (String × String)} {query : String}
    (h : WritesPairs ps query) : pairs (Utf8.encode query) = ps := by
  obtain ⟨pieces, hpieces, hquery⟩ := h
  rw [Utf8.encode, hquery]
  clear hquery
  induction hpieces with
  | nil => rfl
  | cons hpiece hrest ih =>
    have hfirst := pairs_of_writesPair hpiece
    cases hrest with
    | nil => rw [List.intercalate_singleton, hfirst]
    | cons hnext hlater =>
      rw [List.intercalate_cons_cons, List.append_assoc, List.singleton_append,
        encodeChars_append_separator (by decide)]
      show pairs (_ ++ 0x26 :: _) = _
      rw [pairs_append, hfirst, ih, List.singleton_append]

/-! ### Writing -/

theorem toUInt8_ofNat_toNat (b : UInt8) : (Char.ofNat b.toNat).toUInt8 = b := by
  have hall : ∀ k : Fin 256, (Char.ofNat k).toUInt8 = UInt8.ofNat k := by decide +kernel
  have hb := hall ⟨b.toNat, b.toNat_lt⟩
  rwa [UInt8.ofNat_toNat] at hb

theorem hexDigit?_hexChar {n : Nat} (h : n < 16) : hexDigit? (hexChar n) = some n := by
  have hall : ∀ k : Fin 16, hexDigit? (hexChar k) = some k.val := by decide
  exact hall ⟨n, h⟩

/-- Every byte is written in one of the ways there are. -/
theorem WritesBytes.writeByte_append (plus : Bool) (b : UInt8) {bytes : List UInt8}
    {cs : List Char} (h : WritesBytes bytes cs) :
    WritesBytes (b :: bytes) (writeByte plus b ++ cs) := by
  unfold writeByte
  split
  · rename_i hc
    have hplain := WritesBytes.plain hc h
    rwa [toUInt8_ofNat_toNat] at hplain
  split
  · rename_i hblank
    simp only [Bool.and_eq_true, beq_iff_eq] at hblank
    rw [hblank.2]
    exact .blank h
  · have hlt := b.toNat_lt
    exact .percent (hexDigit?_hexChar (by omega)) (hexDigit?_hexChar (by omega)) h

theorem writesBytes_writeText (plus : Bool) (s : String) :
    WritesBytes (Utf8.encode s) (writeText plus s) := by
  unfold writeText
  induction Utf8.encode s with
  | nil => exact .nil
  | cons b bytes ih => exact ih.writeByte_append plus b

theorem writesPairs_write (plus : Bool) (ps : List (String × String)) :
    WritesPairs ps (write plus ps) := by
  refine ⟨_, ?_, String.toList_ofList⟩
  induction ps with
  | nil => exact .nil
  | cons p ps ih =>
    exact .cons ⟨_, _, writesBytes_writeText plus p.1, writesBytes_writeText plus p.2, rfl⟩ ih

/-- **Every list of pairs can be sent as a query string.** Written with each letter and digit as
itself, a plus sign or `%20` for a blank, and a percent sign with two digits for every other byte,
pairs are read as the parameters that collecting them gives; and so are they in any other text that
writes them. -/
theorem ofQuery_of_pairs (ps : List (String × String)) :
    (∀ plus, WritesPairs ps (write plus ps) ∧ Params.ofQuery (write plus ps) = .ofList ps) ∧
    ∀ query, WritesPairs ps query → Params.ofQuery query = .ofList ps := by
  have hread : ∀ query, WritesPairs ps query → Params.ofQuery query = .ofList ps := by
    intro query h
    rw [Params.ofQuery, pairs_of_writesPairs h]
  refine ⟨fun plus => ⟨writesPairs_write plus ps, ?_⟩, hread⟩
  exact hread _ (writesPairs_write plus ps)

/-- An empty key that comes twice, a letter that is encoded, digits in both cases, and a value with
a character of two bytes, a blank and a separator. -/
theorem ofQuery_of_hostile_pairs :
    let ps := [("", ""), ("k", "é &"), ("", "x")]
    let query := "=&%6b=%c3%A9+%26&=x"
    WritesPairs ps query ∧ Params.ofQuery query = ⟨[("", "x"), ("k", "é &")], by decide⟩ := by
  intro ps query
  have hempty : WritesBytes (Utf8.encode "") [] := .nil
  have hkey : WritesBytes (Utf8.encode "k") ['%', '6', 'b'] := by
    have henc : Utf8.encode "k" = [0x6B] := by decide +kernel
    rw [henc]
    exact .percent (by decide) (by decide) .nil
  have hvalue : WritesBytes (Utf8.encode "é &")
      ['%', 'c', '3', '%', 'A', '9', '+', '%', '2', '6'] := by
    have henc : Utf8.encode "é &" = [0xC3, 0xA9, 0x20, 0x26] := by decide +kernel
    rw [henc]
    exact .percent (by decide) (by decide) (.percent (by decide) (by decide)
      (.blank (.percent (by decide) (by decide) .nil)))
  have hlast : WritesBytes (Utf8.encode "x") ['x'] := by
    have henc : Utf8.encode "x" = ['x'.toUInt8] := by decide +kernel
    rw [henc]
    exact .plain (by decide) .nil
  have hwrites : WritesPairs ps query :=
    ⟨_, .cons ⟨_, _, hempty, hempty, rfl⟩ (.cons ⟨_, _, hkey, hvalue, rfl⟩
      (.cons ⟨_, _, hempty, hlast, rfl⟩ .nil)), by decide +kernel⟩
  refine ⟨hwrites, ?_⟩
  rw [(ofQuery_of_pairs ps).2 query hwrites]
  decide

end TenantSql.QueryString
