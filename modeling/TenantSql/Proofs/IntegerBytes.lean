import TenantSql.Number.Reading
import TenantSql.Value.Wire
/-!
# TenantSql.Proofs.IntegerBytes

Integers are read back from their bytes.

`ofTwosComplement` reads bytes of any width as an integer in two's complement. It and
`twosComplement` undo each other on the range of the width, so that what the bytes of a
bound integer say can be stated without speaking of how they are made.
-/

namespace TenantSql

/-- The natural number of bytes, most significant first. -/
def ofBigEndian : List UInt8 → Nat
  | [] => 0
  | byte :: rest => byte.toNat * twoPow (8 * rest.length) + ofBigEndian rest

/-- The integer of bytes in two's complement: below zero if the top bit is set. -/
def ofTwosComplement (bytes : List UInt8) : Int :=
  if 2 * ofBigEndian bytes < twoPow (8 * bytes.length) then ofBigEndian bytes
  else ofBigEndian bytes - twoPow (8 * bytes.length)

@[simp] theorem length_bigEndian (width n : Nat) : (bigEndian width n).length = width := by
  induction width with
  | zero => rfl
  | succ width ih => exact congrArg (· + 1) ih

/-- What does not fit the width is lost, and nothing else. -/
theorem ofBigEndian_bigEndian (width n : Nat) :
    ofBigEndian (bigEndian width n) = n % twoPow (8 * width) := by
  induction width with
  | zero => exact (Nat.mod_one n).symm
  | succ width ih =>
    have hbyte : (UInt8.ofNat (n / twoPow (8 * width))).toNat = n / twoPow (8 * width) % 256 :=
      UInt8.toNat_ofNat'
    have hpow : twoPow (8 * (width + 1)) = twoPow (8 * width) * 256 := twoPow_add _ 8
    rw [bigEndian, ofBigEndian, length_bigEndian, ih, hbyte, hpow, Nat.mod_mul, Nat.mul_comm,
      Nat.add_comm]

theorem ofBigEndian_lt (bytes : List UInt8) : ofBigEndian bytes < twoPow (8 * bytes.length) := by
  induction bytes with
  | nil => exact twoPow_pos 0
  | cons byte rest ih =>
    have hpow : twoPow (8 * (rest.length + 1)) = 256 * twoPow (8 * rest.length) := by
      rw [Nat.mul_succ, twoPow_add, Nat.mul_comm]
      rfl
    have hbyte := Nat.mul_le_mul_right (twoPow (8 * rest.length)) (Nat.le_of_lt_succ byte.toNat_lt)
    rw [ofBigEndian, List.length_cons, hpow]
    omega

/-- Bytes that differ, in one width, are different numbers. -/
theorem eq_of_ofBigEndian_eq {bytes bytes' : List UInt8} (hlength : bytes.length = bytes'.length)
    (h : ofBigEndian bytes = ofBigEndian bytes') : bytes = bytes' := by
  induction bytes generalizing bytes' with
  | nil => exact (List.length_eq_zero_iff.mp hlength.symm).symm
  | cons byte rest ih =>
    cases bytes' with
    | nil => cases hlength
    | cons byte' rest' =>
      have hlength' : rest.length = rest'.length := Nat.succ.inj hlength
      have hlt := ofBigEndian_lt rest
      have hlt' := ofBigEndian_lt rest'
      have hpos := twoPow_pos (8 * rest'.length)
      rw [ofBigEndian, ofBigEndian, hlength', Nat.mul_comm, Nat.mul_comm byte'.toNat] at h
      rw [hlength'] at hlt
      have hdiv := congrArg (· / twoPow (8 * rest'.length)) h
      have hbyte : byte.toNat = byte'.toNat := by
        simpa only [Nat.mul_add_div hpos, Nat.div_eq_of_lt hlt, Nat.div_eq_of_lt hlt',
          Nat.add_zero] using hdiv
      rw [hbyte] at h
      rw [UInt8.toNat_inj.mp hbyte, ih hlength' (Nat.add_left_cancel h)]

/-- Bytes are made again from their number. -/
theorem bigEndian_ofBigEndian (bytes : List UInt8) :
    bigEndian bytes.length (ofBigEndian bytes) = bytes := by
  refine eq_of_ofBigEndian_eq (length_bigEndian _ _) ?_
  rw [ofBigEndian_bigEndian, Nat.mod_eq_of_lt (ofBigEndian_lt bytes)]

@[simp] theorem length_twosComplement (width : Nat) (n : Int) :
    (twosComplement width n).length = width :=
  length_bigEndian _ _

/-- An integer in the range of the width is read back from its bytes. -/
theorem ofTwosComplement_twosComplement {width : Nat} {n : Int}
    (hlow : -(twoPow (8 * width) : Int) ≤ 2 * n) (hhigh : 2 * n < twoPow (8 * width)) :
    ofTwosComplement (twosComplement width n) = n := by
  have hpos : (0 : Int) < twoPow (8 * width) := Int.natCast_pos.mpr (twoPow_pos _)
  unfold ofTwosComplement
  rw [length_twosComplement, twosComplement, ofBigEndian_bigEndian]
  generalize twoPow (8 * width) = m at hlow hhigh hpos
  have hnonneg := Int.emod_nonneg n (Int.ne_of_gt hpos)
  have hlt := Int.emod_lt_of_pos n hpos
  have hmod : (n % m).toNat % m = (n % m).toNat := Nat.mod_eq_of_lt (by omega)
  rw [hmod]
  rcases Int.lt_or_le n 0 with hneg | hge
  · have heq : n % m = n + m := by
      rw [← Int.add_emod_right, Int.emod_eq_of_lt (by omega) (by omega)]
    rw [heq, if_neg (by omega)]
    omega
  · have heq : n % m = n := Int.emod_eq_of_lt hge (by omega)
    rw [heq, if_pos (by omega)]
    omega

/-- Bytes are made again from their integer. -/
theorem twosComplement_ofTwosComplement (bytes : List UInt8) :
    twosComplement bytes.length (ofTwosComplement bytes) = bytes := by
  have hlt : (ofBigEndian bytes : Int) < twoPow (8 * bytes.length) :=
    Int.ofNat_lt.mpr (ofBigEndian_lt bytes)
  have hmod : ofTwosComplement bytes % twoPow (8 * bytes.length) = ofBigEndian bytes := by
    unfold ofTwosComplement
    split
    · exact Int.emod_eq_of_lt (Int.natCast_nonneg _) hlt
    · rw [Int.sub_emod_right, Int.emod_eq_of_lt (Int.natCast_nonneg _) hlt]
  rw [twosComplement, hmod, Int.toNat_natCast, bigEndian_ofBigEndian]

/-- The bytes of an integer in range are the only ones of their width that it is read from. -/
theorem eq_twosComplement_iff {width : Nat} {n : Int} {bytes : List UInt8}
    (hlow : -(twoPow (8 * width) : Int) ≤ 2 * n) (hhigh : 2 * n < twoPow (8 * width)) :
    bytes = twosComplement width n ↔ bytes.length = width ∧ ofTwosComplement bytes = n := by
  constructor
  · intro h
    rw [h]
    exact ⟨length_twosComplement _ _, ofTwosComplement_twosComplement hlow hhigh⟩
  · intro h
    obtain ⟨hlength, hn⟩ := h
    rw [← hlength, ← hn, twosComplement_ofTwosComplement]

/-- An integer is bound in some width exactly if it is in range. -/
theorem Value.bindInteger_eq_ok_iff {width : Nat} {n : Int} {bytes : List UInt8} :
    bindInteger width n = .ok bytes ↔
      (-(twoPow (8 * width - 1) : Int) ≤ n ∧ n < twoPow (8 * width - 1)) ∧
        bytes = twosComplement width n := by
  unfold bindInteger
  dsimp only
  split
  · rename_i h
    exact ⟨nofun, fun ⟨⟨_, hlt⟩, _⟩ => absurd h (Int.not_le.mpr hlt)⟩
  split
  · rename_i h
    exact ⟨nofun, fun ⟨⟨hle, _⟩, _⟩ => absurd h (Int.not_lt.mpr hle)⟩
  · rename_i hlt hle
    constructor
    · intro h
      cases h
      exact ⟨⟨Int.not_lt.mp hle, Int.not_le.mp hlt⟩, rfl⟩
    · rintro ⟨-, rfl⟩
      rfl

/-! ### 64-bit integers -/

theorem exists_int64_iff {n : Int} :
    (∃ i : Int64, i.toInt = n) ↔ Int64.minValue.toInt ≤ n ∧ n ≤ Int64.maxValue.toInt := by
  constructor
  · rintro ⟨i, rfl⟩
    exact ⟨i.minValue_le_toInt, i.toInt_le⟩
  · rintro ⟨hlow, hhigh⟩
    exact ⟨.ofInt n, Int64.toInt_ofInt_of_le hlow (Int.lt_add_one_of_le hhigh)⟩

theorem int64?_eq_some_iff {n : Int} {i : Int64} : int64? n = some i ↔ i.toInt = n := by
  unfold int64?
  constructor
  · intro h
    split at h
    · rename_i hrange
      cases h
      simp only [Bool.and_eq_true, decide_eq_true_eq] at hrange
      obtain ⟨i, rfl⟩ := exists_int64_iff.mpr hrange
      rw [Int64.ofInt_toInt]
    · cases h
  · rintro rfl
    rw [if_pos, Int64.ofInt_toInt]
    simp only [Bool.and_eq_true, decide_eq_true_eq]
    exact ⟨i.minValue_le_toInt, i.toInt_le⟩

/-- Every 64-bit integer has eight bytes, and is read back from them. -/
theorem Value.bindInteger_int64 (i : Int64) :
    bindInteger 8 i.toInt = .ok (twosComplement 8 i.toInt) :=
  bindInteger_eq_ok_iff.mpr ⟨⟨i.le_toInt, i.toInt_lt⟩, rfl⟩

theorem ofTwosComplement_int64 (i : Int64) :
    ofTwosComplement (twosComplement 8 i.toInt) = i.toInt := by
  have hlow := i.le_toInt
  have hhigh := i.toInt_lt
  have hpow : (twoPow (8 * 8) : Int) = 2 * 2 ^ 63 := by decide
  exact ofTwosComplement_twosComplement (by omega) (by omega)

end TenantSql
