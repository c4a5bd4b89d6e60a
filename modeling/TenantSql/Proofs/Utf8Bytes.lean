import Mathlib.Tactic.SplitIfs
import TenantSql.Text.Utf8
/-!
# TenantSql.Proofs.Utf8Bytes

The bytes of a text are those that it is held in (`Utf8.encode_eq_toByteArray`), and texts
are in the order of their bytes (`Utf8.encode_lt_encode_iff`).

Of two characters the one with the greater number has the greater bytes, whatever follows
them (`Utf8.encodeChar_append_lt_append`): a longer encoding begins with a greater byte,
and encodings of one length hold the number in digits, the highest first. So the first
character in which two texts differ decides about both orders.
-/

namespace TenantSql.Utf8

theorem encode_eq_toByteArray (s : String) : encode s = s.toByteArray.data.toList := by
  have h : s.toByteArray = s.toList.utf8Encode := by
    rw [← String.toByteArray_ofList, String.ofList_toList]
  rw [h, List.utf8Encode, List.data_toByteArray, encode, encodeChars]

/-! ### Characters -/

/-- The number of a first byte decides, and only where it is the same in both what follows. -/
theorem ofNat_cons_lt_iff {a b : Nat} {x y : List UInt8} (ha : a < 256) (hb : b < 256) :
    UInt8.ofNat a :: x < UInt8.ofNat b :: y ↔ a < b ∨ a = b ∧ x < y := by
  have hmod : ∀ {n : Nat}, n < 256 → (UInt8.ofNat n).toNat = n := by
    intro n hn
    simp [UInt8.toNat_ofNat', Nat.mod_eq_of_lt hn]
  rw [List.cons_lt_cons_iff, UInt8.lt_iff_toNat_lt, ← UInt8.toNat_inj, hmod ha, hmod hb]

theorem encodeChar_append_lt_append {c d : Char} (h : c < d) (x y : List UInt8) :
    String.utf8EncodeChar c ++ x < String.utf8EncodeChar d ++ y := by
  have hlt : c.val.toNat < d.val.toNat := h
  have hlast : d.val.toNat < 0x110000 := by
    rcases d.valid with hlow | hhigh
    · exact Nat.lt_trans hlow (by decide)
    · exact hhigh.2
  -- Digits have six bits each, so the higher ones are digits of a quotient.
  have htwo : ∀ n : Nat, n / 4096 = n / 64 / 64 := fun n => (Nat.div_div_eq_div_mul n 64 64).symm
  have hthree : ∀ n : Nat, n / 262144 = n / 4096 / 64 :=
    fun n => (Nat.div_div_eq_div_mul n 4096 64).symm
  unfold String.utf8EncodeChar
  generalize c.val.toNat = n at *
  generalize d.val.toNat = m at *
  simp only [hthree, htwo]
  split_ifs <;> try omega
  all_goals
    simp (disch := omega) only [List.cons_append, ofNat_cons_lt_iff]
    omega

/-! ### Texts -/

theorem encodeChars_lt_of_lt {cs ds : List Char} (h : cs < ds) :
    encodeChars cs < encodeChars ds := by
  induction cs generalizing ds with
  | nil =>
    cases ds with
    | nil => exact absurd h (List.lt_irrefl [])
    | cons d ds =>
      obtain ⟨b, tail, hbytes, -⟩ := exists_encode_eq_cons d (encodeChars ds)
      rw [encodeChars_cons, hbytes]
      exact List.nil_lt_cons b tail
  | cons c cs ih =>
    cases ds with
    | nil => exact absurd h (List.not_lt_nil _)
    | cons d ds =>
      rw [encodeChars_cons, encodeChars_cons]
      rcases List.cons_lt_cons_iff.mp h with hlt | ⟨rfl, hrest⟩
      · exact encodeChar_append_lt_append hlt _ _
      · exact List.append_left_lt (ih hrest)

/-- Texts are in the order of their bytes. -/
theorem encode_lt_encode_iff {s t : String} : encode s < encode t ↔ s < t := by
  have hlt : ∀ {s t : String}, s < t → encode s < encode t := by
    intro s t h
    exact encodeChars_lt_of_lt h
  refine ⟨fun h => ?_, hlt⟩
  have hne : s ≠ t := by
    intro heq
    rw [heq] at h
    exact List.lt_irrefl _ h
  rw [← String.not_le]
  intro hle
  exact List.lt_asymm h (hlt (Std.lt_of_le_of_ne hle hne.symm))

theorem encode_le_encode_iff {s t : String} : encode s ≤ encode t ↔ s ≤ t := by
  rw [← List.not_lt, encode_lt_encode_iff, String.not_lt]

end TenantSql.Utf8
