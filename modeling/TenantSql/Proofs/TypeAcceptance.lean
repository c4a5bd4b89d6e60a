import TenantSql.Proofs.IntegerBinding
import TenantSql.Proofs.Utf8Bytes
/-!
# TenantSql.Proofs.TypeAcceptance

The types that values are bound to, told by the type alone and told by the values.

Numbers are refused by every type that does not take numbers, and texts by every type that
does not take text, so what is bound to a type shows that it is accepted
(`Value.accepts_of_bind`). On the other hand zero is bound to every type of numbers, and
every text to every type that takes text, as its UTF-8 bytes behind those that the type
wants in front (`Value.bindText_eq_ok_iff`). Hence the check of the type in front of the
binding refuses nothing but null that is not refused anyway (`Value.bindChecked_agrees`).
-/

namespace TenantSql

/-- The bytes in front of a text: a version for the types of one extension, known by their names
in whatever schema, and nothing for all others. -/
def PgType.textLead : PgType → List UInt8
  | .custom name _ => if name ∈ ["ltree", "lquery", "ltxtquery"] then [1] else []
  | .builtin _ => []

namespace Value

variable {type : PgType}

/-! ### What a type refuses -/

theorem bindInt_of_not_takesNumbers (h : type.takesNumbers = false) (n : Int)
    (refused : BindError) : bindInt n type refused = .error refused := by
  cases type with
  | custom name schema => rfl
  | builtin type =>
    cases type <;> simp only [PgType.takesNumbers, Bool.true_eq_false] at h <;> rfl

theorem bindFloat_of_not_takesNumbers (h : type.takesNumbers = false) (x : Binary64) :
    bindFloat x type = .error (.mismatch (.float x) type) := by
  cases type with
  | custom name schema => rfl
  | builtin type =>
    cases type <;> simp only [PgType.takesNumbers, Bool.true_eq_false] at h <;> rfl

/-- A text is bound to the types that take text, and to no others. -/
theorem bindText_eq_ok_iff {s : String} {word : List UInt8} :
    bindText s type = .ok word ↔
      type.takesText = true ∧ word = type.textLead ++ s.toByteArray.data.toList := by
  have hlead : (if type.takesVersionedText then 1 :: Utf8.encode s else Utf8.encode s) =
      type.textLead ++ s.toByteArray.data.toList := by
    rw [← Utf8.encode_eq_toByteArray]
    cases type with
    | builtin type => rfl
    | custom name schema =>
      by_cases hname : name = "ltree" ∨ name = "lquery" ∨ name = "ltxtquery" <;>
        simp [PgType.takesVersionedText, PgType.textLead, hname, or_assoc]
  unfold bindText
  rw [hlead]
  cases type.takesText <;> simp [eq_comm]

theorem bind_text_eq_ok_iff {s : String} {result : Option (List UInt8)} :
    bind (.text s) type = .ok result ↔
      type.takesText = true ∧ result = some (type.textLead ++ s.toByteArray.data.toList) := by
  simp [bind, map_some_eq_ok_iff, bindText_eq_ok_iff, and_assoc]

/-- What is bound shows that the type is accepted. -/
theorem accepts_of_bind {v : Value} (hv : v ≠ .null) {result : Option (List UInt8)}
    (h : v.bind type = .ok result) : accepts type = true := by
  cases hnumbers : type.takesNumbers with
  | true => simp [accepts, hnumbers]
  | false =>
    cases v with
    | null => exact absurd rfl hv
    | int n => simp [bind, bindInt_of_not_takesNumbers hnumbers, Except.map] at h
    | float x => simp [bind, bindFloat_of_not_takesNumbers hnumbers, Except.map] at h
    | text s => simp [accepts, (bind_text_eq_ok_iff.mp h).1]

/-! ### What an accepted type takes -/

theorem exists_bind_zero (h : type.takesNumbers = true) :
    ∃ result, bind (.int 0) type = .ok result := by
  match type, h with
  | .builtin .int2, _ => exact ⟨_, rfl⟩
  | .builtin .int4, _ => exact ⟨_, rfl⟩
  | .builtin .int8, _ => exact ⟨_, rfl⟩
  | .builtin .float4, _ => exact ⟨_, rfl⟩
  | .builtin .float8, _ => exact ⟨_, rfl⟩
  | .builtin .numeric, _ => exact ⟨_, rfl⟩

/-- Something other than null is bound to each accepted type. -/
theorem exists_bind_of_accepts (h : accepts type = true) :
    ∃ v : Value, v ≠ .null ∧ ∃ result, v.bind type = .ok result := by
  rcases Bool.or_eq_true_iff.mp h with hnumbers | htext
  · exact ⟨.int 0, nofun, exists_bind_zero hnumbers⟩
  · exact ⟨.text "", nofun, _, bind_text_eq_ok_iff.mpr ⟨htext, rfl⟩⟩

/-! ### The check in front of the binding -/

theorem bindChecked_eq_ok_iff {v : Value} {result : Option (List UInt8)} :
    v.bindChecked type = .ok result ↔ accepts type = true ∧ v.bind type = .ok result := by
  unfold bindChecked
  cases accepts type <;> simp

/-- **Types are accepted exactly if values are bound to them.** Whatever the type is, built in or of
any name and schema, checking it first changes nothing for values other than null: they are bound to
the same bytes, or refused. A type is not accepted exactly if every value but null is refused, and
null passes the check exactly of the accepted types. A text is bound to the types that take text, as
its bytes in UTF-8, with one byte in front exactly for three types that are known by their names. -/
theorem bindChecked_agrees (type : PgType) :
    (∀ v : Value, v ≠ .null → ∀ result,
      v.bindChecked type = .ok result ↔ v.bind type = .ok result) ∧
    (accepts type = false ↔ ∀ v : Value, v ≠ .null → ∃ e, v.bind type = .error e) ∧
    (∀ result, bindChecked .null type = .ok result ↔ accepts type = true ∧ result = none) ∧
    ∀ s result, bind (.text s) type = .ok result ↔
      type.takesText = true ∧ result = some (type.textLead ++ s.toByteArray.data.toList) := by
  refine ⟨fun v hv result => ?_, ⟨fun h v hv => ?_, fun h => ?_⟩, fun result => ?_,
    fun s result => bind_text_eq_ok_iff⟩
  · rw [bindChecked_eq_ok_iff]
    exact and_iff_right_of_imp (accepts_of_bind hv)
  · rw [exists_error_iff]
    intro hbound
    obtain ⟨result, hbind⟩ := hbound
    rw [accepts_of_bind hv hbind] at h
    cases h
  · rw [Bool.eq_false_iff]
    intro haccepts
    obtain ⟨v, hv, hbound⟩ := exists_bind_of_accepts haccepts
    exact exists_error_iff.mp (h v hv) hbound
  · rw [bindChecked_eq_ok_iff, bind, Except.ok.injEq, eq_comm (a := result)]

/-- A type that has the name of a built-in one without being it, and one whose name stands for a
version in front. -/
theorem bindChecked_agrees_on_imitated_name :
    let imitation : PgType := .custom "text" "pg_catalog"
    let path : PgType := .custom "ltree" "public"
    accepts imitation = false ∧ (∃ e, bind (.text "a") imitation = .error e) ∧
      bindChecked (.text "é") path = .ok (some [0x01, 0xC3, 0xA9]) := by
  intro imitation path
  obtain ⟨-, hrefused, -⟩ := bindChecked_agrees imitation
  obtain ⟨hsame, -, -, htext⟩ := bindChecked_agrees path
  have haccepts : accepts imitation = false := by decide
  have hbind : bind (.text "é") path = .ok (some [0x01, 0xC3, 0xA9]) :=
    (htext "é" _).mpr ⟨by decide, by decide⟩
  exact ⟨haccepts, hrefused.mp haccepts (.text "a") nofun, (hsame (.text "é") nofun _).mpr hbind⟩

end Value

end TenantSql
