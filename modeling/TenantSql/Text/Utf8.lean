/-!
# TenantSql.Text.Utf8

Text as UTF-8 bytes, and bytes read back as text.

* `Utf8.encode` writes a text.
* `Utf8.decode?` reads bytes that are UTF-8 throughout.
* `Utf8.decodeLossy` reads any bytes: each longest run that begins a character
  without completing it, and each byte that begins none, becomes U+FFFD.

Both readers give back what was encoded (`decodeChars?_encodeChars`, `decodeLossy_encode`).
-/

namespace TenantSql.Utf8

/-- The UTF-8 bytes of characters. -/
def encodeChars (cs : List Char) : List UInt8 :=
  cs.flatMap String.utf8EncodeChar

/-- The UTF-8 bytes of a text. -/
def encode (s : String) : List UInt8 :=
  encodeChars s.toList

/-- The character whose encoding stands at the front, if one does. -/
def front? (bytes : List UInt8) : Option Char :=
  ByteArray.utf8DecodeChar? (bytes.take 4).toByteArray 0

/-- Whether a byte is one of the bytes after the first in some encoding. -/
def isContinuation (b : UInt8) : Bool :=
  0x80 ≤ b && b ≤ 0xBF

/-- Whether some character's encoding starts with these two bytes. Four first bytes narrow the
second: below them lie overlong forms, above them surrogates or numbers past the last character. -/
def startsWith (lead second : UInt8) : Bool :=
  if lead = 0xE0 then 0xA0 ≤ second && second ≤ 0xBF
  else if lead = 0xED then 0x80 ≤ second && second ≤ 0x9F
  else if lead = 0xF0 then 0x90 ≤ second && second ≤ 0xBF
  else if lead = 0xF4 then 0x80 ≤ second && second ≤ 0x8F
  else 0xC2 ≤ lead && lead ≤ 0xF4 && isContinuation second

/-- How many bytes after the first belong to the longest broken beginning of a character at the
front, when no whole character stands there. -/
def brokenTail : List UInt8 → Nat
  | lead :: second :: rest =>
    if startsWith lead second then
      match rest with
      | third :: _ => if 0xF0 ≤ lead && isContinuation third then 2 else 1
      | [] => 1
    else 0
  | _ => 0

/-- The characters that stand at the front up to the end, or nothing if some bytes encode none. -/
def decodeChars? : List UInt8 → Option (List Char)
  | [] => some []
  | b :: rest =>
    match front? (b :: rest) with
    | some c => (decodeChars? (rest.drop (c.utf8Size - 1))).map (c :: ·)
    | none => none
termination_by bytes => bytes.length
decreasing_by simp only [List.length_drop, List.length_cons]; omega

/-- The text that bytes encode, if they are UTF-8 throughout. -/
def decode? (bytes : List UInt8) : Option String :=
  (decodeChars? bytes).map String.ofList

/-- The characters of any bytes, with U+FFFD for what encodes none. -/
def decodeCharsLossy : List UInt8 → List Char
  | [] => []
  | b :: rest =>
    match front? (b :: rest) with
    | some c => c :: decodeCharsLossy (rest.drop (c.utf8Size - 1))
    | none => '\uFFFD' :: decodeCharsLossy (rest.drop (brokenTail (b :: rest)))
termination_by bytes => bytes.length
decreasing_by all_goals simp only [List.length_drop, List.length_cons]; omega

/-- The text of any bytes, with U+FFFD for what encodes no character. -/
def decodeLossy (bytes : List UInt8) : String :=
  String.ofList (decodeCharsLossy bytes)

/-! ### Reading what was written -/

theorem encodeChars_cons (c : Char) (cs : List Char) :
    encodeChars (c :: cs) = String.utf8EncodeChar c ++ encodeChars cs := rfl

/-- A character is found at the front of its encoding, whatever follows. -/
theorem front?_append (c : Char) (rest : List UInt8) :
    front? (String.utf8EncodeChar c ++ rest) = some c := by
  have h : (String.utf8EncodeChar c).length ≤ 4 := by
    rw [String.length_utf8EncodeChar]
    exact c.utf8Size_le_four
  rw [front?, List.take_append, List.take_of_length_le h, List.toByteArray_append]
  exact ByteArray.utf8DecodeChar?_utf8EncodeChar_append

/-- An encoding has a first byte, and the bytes after it are dropped by the character's size. -/
theorem exists_encode_eq_cons (c : Char) (rest : List UInt8) :
    ∃ b tail, String.utf8EncodeChar c ++ rest = b :: tail ∧
      tail.drop (c.utf8Size - 1) = rest := by
  have hl := String.length_utf8EncodeChar c
  have hp := c.utf8Size_pos
  cases he : String.utf8EncodeChar c with
  | nil => simp [he] at hl; omega
  | cons b tail =>
    rw [he, List.length_cons] at hl
    refine ⟨b, tail ++ rest, rfl, ?_⟩
    rw [show c.utf8Size - 1 = tail.length by omega, List.drop_left]

theorem decodeChars?_encodeChars (cs : List Char) : decodeChars? (encodeChars cs) = some cs := by
  induction cs with
  | nil => simp [encodeChars, decodeChars?]
  | cons c cs ih =>
    obtain ⟨b, tail, he, hd⟩ := exists_encode_eq_cons c (encodeChars cs)
    have hf := front?_append c (encodeChars cs)
    rw [encodeChars_cons, he, decodeChars?]
    rw [he] at hf
    simp [hf, hd, ih]

theorem decodeCharsLossy_encodeChars (cs : List Char) :
    decodeCharsLossy (encodeChars cs) = cs := by
  induction cs with
  | nil => simp [encodeChars, decodeCharsLossy]
  | cons c cs ih =>
    obtain ⟨b, tail, he, hd⟩ := exists_encode_eq_cons c (encodeChars cs)
    have hf := front?_append c (encodeChars cs)
    rw [encodeChars_cons, he, decodeCharsLossy]
    rw [he] at hf
    simp [hf, hd, ih]

theorem decodeLossy_encode (s : String) : decodeLossy (encode s) = s := by
  simp [decodeLossy, encode, decodeCharsLossy_encodeChars]

theorem encode_eq_nil_iff {s : String} : encode s = [] ↔ s = "" := by
  constructor
  · intro h
    rw [← decodeLossy_encode s, h]
    exact decodeLossy_encode ""
  · rintro rfl
    rfl

/-! ### Writing what was read -/

/-- Whatever character is found at the front, its encoding stands there. -/
theorem exists_eq_append_of_front? {bytes : List UInt8} {c : Char} (h : front? bytes = some c) :
    ∃ rest, bytes = String.utf8EncodeChar c ++ rest := by
  obtain ⟨l, hl⟩ := ByteArray.exists_of_utf8DecodeChar?_eq_some h
  have htake := congrArg (fun b => b.data.toList) hl
  simp only [ByteArray.data_append, List.data_toByteArray, Array.toList_append] at htake
  refine ⟨l.data.toList ++ bytes.drop 4, ?_⟩
  rw [← List.append_assoc, ← htake, List.take_append_drop]

/-- Bytes that are read are the encoding of what is read. -/
theorem encodeChars_of_decodeChars? {bytes : List UInt8} {cs : List Char}
    (h : decodeChars? bytes = some cs) : encodeChars cs = bytes := by
  induction bytes using decodeChars?.induct generalizing cs with
  | case1 =>
    rw [decodeChars?] at h
    cases h
    rfl
  | case2 b rest c hfront ih =>
    rw [decodeChars?, hfront] at h
    obtain ⟨cs', hrest, rfl⟩ := Option.map_eq_some_iff.mp h
    obtain ⟨tail, htail⟩ := exists_eq_append_of_front? hfront
    obtain ⟨b', rest', hcons, hdrop⟩ := exists_encode_eq_cons c tail
    cases htail.trans hcons
    rw [encodeChars_cons, ih hrest, hdrop, hcons]
  | case3 b rest hfront =>
    rw [decodeChars?, hfront] at h
    cases h

theorem encode_of_decode? {bytes : List UInt8} {s : String} (h : decode? bytes = some s) :
    encode s = bytes := by
  obtain ⟨cs, hcs, rfl⟩ := Option.map_eq_some_iff.mp h
  rw [encode, String.toList_ofList, encodeChars_of_decodeChars? hcs]

end TenantSql.Utf8
