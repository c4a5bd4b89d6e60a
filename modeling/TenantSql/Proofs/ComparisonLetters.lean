import TenantSql.Proofs.SelectMeaning
import TenantSql.Proofs.Truncation
/-!
# TenantSql.Proofs.ComparisonLetters

There is one way to take the letters of a comparison off a text.

Letters and what is behind them are the whole text, and equality is what is left if a text
begins with no letters. What is written as letters and a rest is read as these two, also if
the rest begins with letters itself (`CompareOp.read_letters_append`).

Over bytes, the first two are compared with the letters if they are whole characters, and
the rest is what is behind them (`CompareOp.readBytes?`). Letters are characters of one byte
each, so where they are found the cut behind them is between two characters
(`CompareOp.readBytes?_eq`).
-/

namespace TenantSql

namespace Utf8

/-- The text from a position on, if that lies between two characters. -/
def textFrom? (bytes : List UInt8) (i : Nat) : Option String :=
  if isBoundary bytes i then decode? (bytes.drop i) else none

/-- What is behind whole characters is the rest of them. -/
theorem textFrom?_length (ds es : List Char) :
    textFrom? (encodeChars (ds ++ es)) (encodeChars ds).length = some (.ofList es) := by
  rw [textFrom?, if_pos (isBoundary_iff.mpr ⟨ds, List.prefix_append ds es, rfl⟩),
    encodeChars_append, List.drop_left, decode?, decodeChars?_encodeChars, Option.map_some]

/-- What is before a position between two characters is a beginning of the text. -/
theorem isPrefix_of_textBefore? {cs : List Char} {i : Nat} {word : String}
    (h : textBefore? (encodeChars cs) i = some word) : word.toList <+: cs := by
  by_cases hi : isBoundary (encodeChars cs) i = true
  · obtain ⟨ds, hds, rfl⟩ := isBoundary_iff.mp hi
    rw [textBefore?_length hds, Option.some_inj] at h
    rw [← h, String.toList_ofList]
    exact hds
  · rw [textBefore?, if_neg hi] at h
    cases h

end Utf8

namespace CompareOp

variable {op : CompareOp} {raw : String}

/-- The comparison that a word asks for. -/
def ofLetters? (word : String) : Option CompareOp :=
  lettered.find? fun op => op.letters == word.toList

/-- The comparison that a text begins with and what follows its letters, read over bytes. Nothing
comes of it if the text behind the letters began inside a character. -/
def readBytes? (raw : String) : Option (CompareOp × String) :=
  let bytes := Utf8.encode raw
  match (Utf8.textBefore? bytes 2).bind ofLetters? with
  | some op => (Utf8.textFrom? bytes 2).map fun behind => (op, behind)
  | none => some (eq, raw)

/-! ### Letters and what is behind them -/

theorem mem_lettered_iff : op ∈ lettered ↔ op ≠ eq := by
  cases op <;> simp [lettered]

theorem isPrefix_asked (raw : String) : (asked raw).letters <+: raw.toList := by
  unfold asked
  cases hfind : lettered.find? fun op => op.letters.isPrefixOf raw.toList with
  | none => exact List.nil_prefix
  | some op =>
    have hprefix := List.find?_some hfind
    exact List.isPrefixOf_iff_prefix.mp hprefix

/-- Nothing of a text is lost. -/
theorem letters_append_behindLetters (raw : String) :
    String.ofList (asked raw).letters ++ behindLetters raw = raw := by
  rw [behindLetters, ← String.ofList_append,
    List.prefix_iff_eq_append.mp (isPrefix_asked raw), String.ofList_toList]

/-- Equality is asked for exactly by texts that begin with no letters. -/
theorem asked_eq_eq_iff : asked raw = eq ↔ ∀ op ∈ lettered, ¬op.letters <+: raw.toList := by
  constructor
  · intro h op hop hprefix
    unfold asked at h
    cases hfind : lettered.find? fun op => op.letters.isPrefixOf raw.toList with
    | none =>
      exact List.find?_eq_none.mp hfind op hop (List.isPrefixOf_iff_prefix.mpr hprefix)
    | some found =>
      rw [hfind] at h
      exact mem_lettered_iff.mp (List.mem_of_find?_eq_some hfind) h
  · intro h
    have hnone : (lettered.find? fun op => op.letters.isPrefixOf raw.toList) = none :=
      List.find?_eq_none.mpr fun op hop hprefix =>
        h op hop (List.isPrefixOf_iff_prefix.mp hprefix)
    rw [asked, hnone]
    rfl

/-- Letters are taken off once, whatever the rest begins with. -/
theorem read_letters_append (hop : op ≠ eq) (rest : String) :
    read (String.ofList op.letters ++ rest) = (op, rest) := by
  have hchars : readChars (op.letters ++ rest.toList) = (op, rest.toList) := by
    cases op with
    | eq => exact absurd rfl hop
    | _ => rfl
  rw [read, String.toList_append, String.toList_ofList, hchars, String.ofList_toList]

/-! ### Reading over bytes -/

theorem ofLetters?_letters (hop : op ≠ eq) : ofLetters? (String.ofList op.letters) = some op := by
  rw [ofLetters?, String.toList_ofList]
  cases op with
  | eq => exact absurd rfl hop
  | _ => rfl

theorem readBytes?_letters_append (hop : op ≠ eq) (rest : String) :
    readBytes? (String.ofList op.letters ++ rest) = some (op, rest) := by
  have hlength : (Utf8.encodeChars op.letters).length = 2 := by
    cases op with
    | eq => exact absurd rfl hop
    | _ => rfl
  have hbefore := Utf8.textBefore?_length (List.prefix_append op.letters rest.toList)
  have hfrom := Utf8.textFrom?_length op.letters rest.toList
  rw [hlength] at hbefore hfrom
  rw [readBytes?, Utf8.encode, String.toList_append, String.toList_ofList]
  rw [hbefore, hfrom, Option.bind_some, ofLetters?_letters hop]
  simp

/-- Over bytes nothing is found if the text begins with no letters. -/
theorem readBytes?_of_asked_eq (h : asked raw = eq) : readBytes? raw = some (eq, raw) := by
  have hnone : (Utf8.textBefore? (Utf8.encode raw) 2).bind ofLetters? = none := by
    rw [Option.eq_none_iff_forall_ne_some]
    intro op hop
    obtain ⟨word, hword, hop⟩ := Option.bind_eq_some_iff.mp hop
    have hprefix := Utf8.isPrefix_of_textBefore? hword
    have hletters : op.letters = word.toList := by simpa using List.find?_some hop
    rw [← hletters] at hprefix
    exact asked_eq_eq_iff.mp h op (List.mem_of_find?_eq_some hop) hprefix
  rw [readBytes?, hnone]

/-- Reading over bytes never cuts a character, and finds what reading over characters does. -/
theorem readBytes?_eq (raw : String) : readBytes? raw = some (read raw) := by
  have hraw := letters_append_behindLetters raw
  rw [read_eq]
  by_cases hop : asked raw = eq
  · rw [hop] at hraw
    have hbehind : behindLetters raw = raw := String.empty_append.symm.trans hraw
    rw [readBytes?_of_asked_eq hop, hop, hbehind]
  · have hbytes := readBytes?_letters_append hop (behindLetters raw)
    rwa [hraw] at hbytes

end CompareOp

/-- **The letters of a comparison are read in one way.** The letters that a text is read by and what
is left of it are the text. It is compared for equality exactly if it begins with none of the five
words. Conversely the letters of any other comparison are taken off whatever stands behind them, and
only they are. Over bytes, of which the first two may end inside a character, the same is read, and no
text is cut there. -/
theorem CompareOp.read_unique (raw : String) :
    String.ofList (read raw).1.letters ++ (read raw).2 = raw ∧
    ((read raw).1 = eq ↔
      ∀ word ∈ ["lt", "le", "gt", "ge", "ne"], ¬word.toList <+: raw.toList) ∧
    (∀ op rest, op ≠ eq → read (String.ofList op.letters ++ rest) = (op, rest)) ∧
    readBytes? raw = some (read raw) := by
  have hwords : ["lt", "le", "gt", "ge", "ne"] =
      lettered.map fun op => String.ofList op.letters := rfl
  refine ⟨?_, ?_, fun op rest hop => read_letters_append hop rest, readBytes?_eq raw⟩
  · rw [read_eq]
    exact letters_append_behindLetters raw
  · rw [read_eq, asked_eq_eq_iff, hwords]
    simp only [List.forall_mem_map, String.toList_ofList]

/-- Letters behind letters, a second byte that is the first one of three, and letters with nothing
behind them. -/
theorem CompareOp.read_unique_of_repeated_letters :
    read "gtlt5" = (gt, "lt5") ∧
    ((read "l€").1 = eq ∧ readBytes? "l€" = some (eq, "l€")) ∧
    readBytes? "ne" = some (ne, "") := by
  obtain ⟨-, -, hletters, -⟩ := read_unique "gtlt5"
  obtain ⟨-, hequality, -, hinside⟩ := read_unique "l€"
  obtain ⟨-, -, -, hnothing⟩ := read_unique "ne"
  refine ⟨hletters gt "lt5" (by decide), ⟨hequality.mpr (by decide), ?_⟩, ?_⟩
  · exact hinside.trans (by decide +kernel)
  · exact hnothing.trans (congrArg some (hletters ne "" (by decide)))

end TenantSql
