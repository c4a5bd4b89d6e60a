import TenantSql.Proofs.NumericText
import TenantSql.Proofs.RowMembers
import TenantSql.Proofs.Utf8Bytes
/-!
# TenantSql.Proofs.JsonRows

Which documents are rows, and what is reported of an object that is none.

An object keeps the last member of each key (`Json.lastMember?`), and it gives a row
exactly if all members that it keeps are scalars. The row has the keys of the object and,
under each, the value that the scalar stands for (`Json.StandsFor`): an integer where one is
written in range, else the nearest double with the sign that is written.

Members are visited in the order of their keys, so the first one that is no scalar has the
least key of all such (`Keyed.find?_eq_some_iff`), and this is the key that is reported.
Keys are in the order of their UTF-8 bytes. All of this is said in terms of the last
members, which do not depend on the order that the keys are written in
(`Row.ofJson_faithful`).
-/

namespace TenantSql

namespace Json

/-- The member of a key that an object keeps: the last one. -/
def lastMember? (members : List (String × Json)) (key : String) : Option Json :=
  members.reverse.lookup key

/-- Whether a document is null, a text or a number. -/
def isScalar : Json → Bool
  | .null | .string _ | .number _ => true
  | _ => false

/-- The number that a literal writes. -/
def Number.value (lit : Number) : ℚ :=
  signed lit.negative lit.magnitude.value

/-- The value that a scalar stands for. A literal that writes an integer in range stands for it, and
every other literal for the nearest double of its sign; a zero with a minus is such another. -/
inductive StandsFor : Json → Value → Prop
  | null : StandsFor .null .null
  | text (s : String) : StandsFor (.string s) (.text s)
  | integer {lit : Number} {i : Int64} (hint : lit = .ofInt i.toInt) :
      StandsFor (.number lit) (.int i)
  | real {lit : Number} {x : Binary64} (hint : ∀ i : Int64, lit ≠ .ofInt i.toInt)
      (hnear : x.IsNearest lit.value) (hfinite : x.isFinite = true)
      (hsign : x.negative = lit.negative) : StandsFor (.number lit) (.float x)

/-! ### Scalars -/

namespace Number

theorem toInt?_eq_some_iff {lit : Number} {n : Int} : lit.toInt? = some n ↔ lit = .ofInt n := by
  obtain ⟨negative, coefficient, exponent⟩ := lit
  cases exponent with
  | some e => simp [toInt?, ofInt]
  | none =>
    cases negative with
    | false =>
      simp [toInt?, ofInt]
      omega
    | true =>
      by_cases hzero : coefficient = 0
      · simp [toInt?, ofInt, hzero]
        omega
      · simp [toInt?, ofInt, hzero]
        omega

theorem toInt64?_eq_some_iff {lit : Number} {i : Int64} :
    lit.toInt64? = some i ↔ lit = .ofInt i.toInt := by
  simp [toInt64?, Option.bind_eq_some_iff, toInt?_eq_some_iff, int64?_eq_some_iff]

end Number

end Json

namespace Value

theorem ofJson_eq_error_iff {json : Json} {e : ValidationError} :
    ofJson json = .error e ↔ json.isScalar = false ∧ e = .notAScalar json := by
  cases json with
  | number lit => cases hint : lit.toInt64? <;> simp [ofJson, Json.isScalar, hint]
  | _ => simp [ofJson, Json.isScalar, eq_comm]

theorem exists_ofJson_iff {json : Json} :
    (∃ v, ofJson json = .ok v) ↔ json.isScalar = true := by
  cases hvalue : ofJson json with
  | ok v =>
    cases hscalar : json.isScalar with
    | true => simp
    | false =>
      rw [ofJson_eq_error_iff.mpr ⟨hscalar, rfl⟩] at hvalue
      cases hvalue
  | error e => simp [(ofJson_eq_error_iff.mp hvalue).1]

theorem ofJson_number_eq_ok_iff {lit : Json.Number} (hfinite : lit.toBinary64.isFinite = true)
    {v : Value} : ofJson (.number lit) = .ok v ↔ (Json.number lit).StandsFor v := by
  have hnear : lit.toBinary64.IsNearest lit.value :=
    BinaryFloat.isNearest_ofDecimal (f := .double) (by decide) lit.negative lit.magnitude
  cases hint : lit.toInt64? with
  | some i =>
    have hlit := Json.Number.toInt64?_eq_some_iff.mp hint
    simp only [ofJson, hint, Except.ok.injEq]
    constructor
    · intro h
      rw [← h]
      exact .integer hlit
    · intro h
      cases h with
      | integer hother =>
        rw [Json.Number.toInt64?_eq_some_iff.mpr hother] at hint
        rw [Option.some.inj hint]
      | real hnone => exact absurd hlit (hnone i)
  | none =>
    have hnone : ∀ i : Int64, lit ≠ .ofInt i.toInt := by
      intro i hi
      rw [Json.Number.toInt64?_eq_some_iff.mpr hi] at hint
      cases hint
    simp only [ofJson, hint, Except.ok.injEq]
    constructor
    · intro h
      rw [← h]
      exact .real hnone hnear hfinite rfl
    · intro h
      cases h with
      | integer hlit => exact absurd hlit (hnone _)
      | real _ hx _ hsign => rw [hx.eq_of_negative_eq hnear hsign]

/-- What a scalar of a readable document is read as is what it stands for. -/
theorem ofJson_eq_ok_iff {json : Json} {depth : Nat} (h : json.isReadableWithin depth = true)
    {v : Value} : ofJson json = .ok v ↔ json.StandsFor v := by
  cases json with
  | number lit => exact ofJson_number_eq_ok_iff (by simpa [Json.isReadableWithin] using h)
  | null =>
    rw [ofJson, Except.ok.injEq]
    exact ⟨fun h => h ▸ .null, fun h => by cases h; rfl⟩
  | string s =>
    rw [ofJson, Except.ok.injEq]
    exact ⟨fun h => h ▸ .text s, fun h => by cases h; rfl⟩
  | _ => exact iff_of_false nofun nofun

end Value

namespace Keyed

variable {α : Type}

/-! ### Entries in the order of their keys -/

/-- An entry is there exactly if it is found under its key. -/
theorem mem_entries_iff {m : Keyed α} {e : String × α} :
    e ∈ m.entries ↔ m.get? e.1 = some e.2 := by
  constructor
  · have hnodup : (m.entries.map Prod.fst).Nodup := by
      rw [List.Nodup, List.pairwise_map]
      exact m.ordered.imp fun hlt => Std.ne_of_lt hlt
    exact lookup_eq_some_of_mem hnodup
  · intro he
    obtain ⟨before, after, hsplit, -⟩ := List.lookup_eq_some_iff.mp he
    rw [hsplit]
    simp

/-- Entries are the same if the same is found under every key. -/
theorem ext_get? {m m' : Keyed α} (h : ∀ k, m.get? k = m'.get? k) : m = m' := by
  have : Std.Irrefl fun a b : String × α => a.1 < b.1 := ⟨fun a => String.lt_irrefl a.1⟩
  have : Std.Antisymm fun a b : String × α => a.1 < b.1 :=
    ⟨fun a b hab hba => absurd hba (String.lt_asymm hab)⟩
  refine Keyed.ext (m.ordered.eq_of_mem_iff m'.ordered ?_)
  intro e
  rw [mem_entries_iff, mem_entries_iff, h]

/-- Where keys are in order, the first entry of a kind is the one with the least key. -/
theorem find?_eq_some_iff {es : List (String × α)} (h : es.Pairwise fun a b => a.1 < b.1)
    {p : String × α → Bool} {e : String × α} :
    es.find? p = some e ↔ (e ∈ es ∧ p e = true) ∧ ∀ other ∈ es, p other = true → e.1 ≤ other.1 := by
  induction es with
  | nil => simp
  | cons first rest ih =>
    obtain ⟨hfirst, hrest⟩ := List.pairwise_cons.mp h
    cases hp : p first with
    | true =>
      rw [List.find?_cons_of_pos hp, Option.some_inj]
      constructor
      · intro heq
        subst heq
        refine ⟨⟨List.mem_cons_self, hp⟩, fun other hother _ => ?_⟩
        rcases List.mem_cons.mp hother with rfl | hother
        · exact String.le_refl _
        · exact Std.le_of_lt (hfirst other hother)
      · intro h
        obtain ⟨⟨he, -⟩, hleast⟩ := h
        rcases List.mem_cons.mp he with rfl | he
        · rfl
        · exact absurd (hleast first List.mem_cons_self hp) (String.not_le.mpr (hfirst e he))
    | false =>
      have hne : p e = true → e ≠ first := by
        intro hpe heq
        rw [heq, hp] at hpe
        cases hpe
      rw [List.find?_cons_of_neg (by simp [hp]), ih hrest, List.forall_mem_cons]
      constructor
      · intro h
        obtain ⟨⟨he, hpe⟩, hleast⟩ := h
        exact ⟨⟨List.mem_cons_of_mem _ he, hpe⟩, by simp [hp], hleast⟩
      · intro h
        obtain ⟨⟨he, hpe⟩, -, hleast⟩ := h
        exact ⟨⟨(List.mem_cons.mp he).resolve_left (hne hpe), hpe⟩, hleast⟩

/-- The keys that are left are those that were there. -/
theorem mem_keys_ofList {pairs : List (String × α)} {k : String} :
    k ∈ (ofList pairs).entries.map Prod.fst ↔ k ∈ pairs.map Prod.fst := by
  have hlookup : (ofList pairs).entries.lookup k = pairs.reverse.lookup k := get?_ofList pairs k
  rw [← not_iff_not, ← lookup_eq_none_iff, hlookup, lookup_eq_none_iff, List.map_reverse,
    List.mem_reverse]

end Keyed

/-! ### The members that an object keeps -/

namespace Json

variable {members members' : List (String × Json)} {key : String} {json : Json}

theorem mem_entries_iff :
    (key, json) ∈ (Keyed.ofList members).entries ↔ lastMember? members key = some json := by
  rw [Keyed.mem_entries_iff, Keyed.get?_ofList, lastMember?]

/-- Objects that keep the same members under all keys have the same entries. -/
theorem ofList_eq_of_lastMember?_eq
    (h : ∀ key, lastMember? members key = lastMember? members' key) :
    Keyed.ofList members = Keyed.ofList members' := by
  refine Keyed.ext_get? fun key => ?_
  rw [Keyed.get?_ofList, Keyed.get?_ofList]
  exact h key

theorem isReadableWithin_of_mem {depth : Nat} (h : membersAreReadableWithin depth members = true)
    {member : String × Json} (hmember : member ∈ members) :
    member.2.isReadableWithin depth = true := by
  induction members with
  | nil => cases hmember
  | cons first rest ih =>
    rw [membersAreReadableWithin, Bool.and_eq_true] at h
    rcases List.mem_cons.mp hmember with rfl | hrest
    · exact h.1
    · exact ih h.2 hrest

/-- What an object of a readable document keeps is readable. -/
theorem exists_isReadableWithin (h : (Json.object members).isReadable = true)
    (hkept : lastMember? members key = some json) :
    ∃ depth, json.isReadableWithin depth = true := by
  have hmembers : membersAreReadableWithin (maxDepth - 1) members = true := by
    rw [isReadable, isReadableWithin, Bool.and_eq_true] at h
    exact h.2
  obtain ⟨before, after, hsplit, -⟩ := List.lookup_eq_some_iff.mp hkept
  have hmem : (key, json) ∈ members := by
    rw [← List.mem_reverse, hsplit]
    simp
  exact ⟨_, isReadableWithin_of_mem hmembers hmem⟩

end Json

/-! ### Rows -/

namespace Row

variable {members : List (String × Json)}

/-- The names that have a value, in order. -/
def columns (r : Row) : List String :=
  r.values.entries.map Prod.fst

theorem exists_scalars_iff :
    (∃ values, scalars members = .ok values) ↔ ∀ member ∈ members, member.2.isScalar = true := by
  induction members with
  | nil => simp [scalars]
  | cons first rest ih =>
    rw [scalars, List.forall_mem_cons, ← ih, ← Value.exists_ofJson_iff]
    cases Value.ofJson first.2 with
    | error cause => simp
    | ok value => cases scalars rest <;> simp

/-- The first member that is no scalar is reported. -/
theorem scalars_eq_error_iff {e : ValidationError} :
    scalars members = .error e ↔ ∃ member,
      members.find? (fun member => !member.2.isScalar) = some member ∧
        e = .inColumn member.1 (.notAScalar member.2) := by
  induction members with
  | nil => simp [scalars]
  | cons first rest ih =>
    unfold scalars
    cases hvalue : Value.ofJson first.2 with
    | error cause =>
      obtain ⟨hscalar, rfl⟩ := Value.ofJson_eq_error_iff.mp hvalue
      simp [hscalar, eq_comm]
    | ok value =>
      have hscalar := Value.exists_ofJson_iff.mp ⟨value, hvalue⟩
      rw [List.find?_cons_of_neg (by simp [hscalar]), ← ih]
      cases scalars rest <;> simp

theorem ofJson_object_eq_ok_iff {row : Row} :
    ofJson (.object members) = .ok row ↔
      ∃ values, scalars (Keyed.ofList members).entries = .ok values ∧ row = ofList values := by
  rw [ofJson]
  cases scalars (Keyed.ofList members).entries <;> simp [eq_comm]

theorem ofJson_object_eq_error_iff {e : ValidationError} :
    ofJson (.object members) = .error e ↔
      scalars (Keyed.ofList members).entries = .error e := by
  rw [ofJson]
  cases scalars (Keyed.ofList members).entries <;> simp

/-- An object is a row exactly if it keeps nothing but scalars. -/
theorem exists_ofJson_object_iff :
    (∃ row, ofJson (.object members) = .ok row) ↔
      ∀ key json, Json.lastMember? members key = some json → json.isScalar = true := by
  have hscalars : (∃ row, ofJson (.object members) = .ok row) ↔
      ∃ values, scalars (Keyed.ofList members).entries = .ok values := by
    simp only [ofJson_object_eq_ok_iff]
    rw [exists_comm]
    simp
  rw [hscalars, exists_scalars_iff]
  constructor
  · intro h key json hjson
    exact h (key, json) (Json.mem_entries_iff.mpr hjson)
  · intro h member hmember
    exact h member.1 member.2 (Json.mem_entries_iff.mp hmember)

/-- A row has the keys of its object, in order and each once. -/
theorem columns_of_ofJson {row : Row} (h : ofJson (.object members) = .ok row) :
    row.columns.Pairwise (· < ·) ∧ ∀ key, key ∈ row.columns ↔ key ∈ members.map Prod.fst := by
  obtain ⟨values, hvalues, rfl⟩ := ofJson_object_eq_ok_iff.mp h
  constructor
  · rw [columns, List.pairwise_map]
    exact (Keyed.ofList values).ordered
  · intro key
    rw [columns, ofList, Keyed.mem_keys_ofList, map_fst_scalars hvalues, Keyed.mem_keys_ofList]

/-- A row has under each key what the member that is kept stands for. -/
theorem get?_eq_some_iff_standsFor {row : Row} (hreadable : (Json.object members).isReadable = true)
    (h : ofJson (.object members) = .ok row) {key : String} {v : Value} :
    row.get? key = some v ↔ ∃ json, Json.lastMember? members key = some json ∧ json.StandsFor v := by
  rw [get?_of_ofJson h, Option.bind_eq_some_iff]
  refine exists_congr fun json => and_congr_right fun hjson => ?_
  obtain ⟨depth, hdepth⟩ := Json.exists_isReadableWithin hreadable hjson
  rw [← Value.ofJson_eq_ok_iff hdepth]
  cases Value.ofJson json <;> simp [Except.toOption]

/-- The key that is reported is the least one, by its bytes, that keeps no scalar. -/
theorem ofJson_object_eq_error_iff_least {e : ValidationError} :
    ofJson (.object members) = .error e ↔
      ∃ key json, (Json.lastMember? members key = some json ∧ json.isScalar = false) ∧
        (∀ other json', Json.lastMember? members other = some json' → json'.isScalar = false →
          Utf8.encode key ≤ Utf8.encode other) ∧
        e = .inColumn key (.notAScalar json) := by
  rw [ofJson_object_eq_error_iff, scalars_eq_error_iff]
  simp only [Keyed.find?_eq_some_iff (Keyed.ofList members).ordered, Prod.exists, Prod.forall,
    Json.mem_entries_iff, Bool.not_eq_true', Utf8.encode_le_encode_iff, and_assoc]

/-- The order in which an object's members are written does not matter beyond which is last. -/
theorem ofJson_object_eq_of_lastMember?_eq {members' : List (String × Json)}
    (h : ∀ key, Json.lastMember? members' key = Json.lastMember? members key) :
    ofJson (.object members') = ofJson (.object members) := by
  rw [ofJson, Json.ofList_eq_of_lastMember?_eq h, ofJson]

/-- Only an object gives a row. -/
theorem exists_ofJson_iff {json : Json} :
    (∃ row, ofJson json = .ok row) ↔
      ∃ members, json = .object members ∧ ∃ row, ofJson (.object members) = .ok row := by
  cases json with
  | object members => simp
  | _ => simp [ofJson]

/-- **A row is read off a document faithfully.** A document gives a row exactly if it is an object
that keeps nothing but scalars. The row has the keys of the object and under each what the scalar
stands for. Of an object that gives none, the key that is reported is the least one, by its bytes,
that keeps no scalar. Objects that keep the same members give the same, whatever the order. -/
theorem ofJson_faithful {json : Json} (hreadable : json.isReadable = true) :
    ((∃ row, ofJson json = .ok row) ↔ ∃ members, json = .object members ∧
      ∀ key kept, Json.lastMember? members key = some kept → kept.isScalar = true) ∧
    ∀ members, json = .object members →
      (∀ row, ofJson json = .ok row →
        row.columns.Pairwise (· < ·) ∧ (∀ key, key ∈ row.columns ↔ key ∈ members.map Prod.fst) ∧
        ∀ key v, row.get? key = some v ↔
          ∃ kept, Json.lastMember? members key = some kept ∧ kept.StandsFor v) ∧
      (∀ e, ofJson json = .error e ↔
        ∃ key kept, (Json.lastMember? members key = some kept ∧ kept.isScalar = false) ∧
          (∀ other kept', Json.lastMember? members other = some kept' → kept'.isScalar = false →
            Utf8.encode key ≤ Utf8.encode other) ∧
          e = .inColumn key (.notAScalar kept)) ∧
      ∀ members', (∀ key, Json.lastMember? members' key = Json.lastMember? members key) →
        ofJson (.object members') = ofJson json := by
  constructor
  · rw [exists_ofJson_iff]
    simp only [exists_ofJson_object_iff]
  · intro members hjson
    subst hjson
    refine ⟨?_, fun e => ofJson_object_eq_error_iff_least,
      fun members' => ofJson_object_eq_of_lastMember?_eq⟩
    intro row hrow
    obtain ⟨hsorted, hkeys⟩ := columns_of_ofJson hrow
    exact ⟨hsorted, hkeys, fun key v => get?_eq_some_iff_standsFor hreadable hrow⟩

/-- The last of the members of `a` counts. A zero with a minus is the double with a minus, and an
integer that is out of range by one is a double. -/
theorem ofJson_faithful_on_repeated_key :
    let members : List (String × Json) :=
      [("a", .array []), ("z", .number ⟨true, 0, none⟩), ("a", .null),
        ("b", .number ⟨false, 2 ^ 63, none⟩)]
    (Json.object members).isReadable = true ∧
    ∃ row, Row.ofJson (.object members) = .ok row ∧ row.get? "a" = some .null ∧
      row.get? "b" = some (.float (.ofDecimal false ⟨2 ^ 63, 0⟩)) ∧
      row.get? "z" = some (.float (.ofDecimal true ⟨0, 0⟩)) := by
  intro members
  have hreadable : (Json.object members).isReadable = true := by decide +kernel
  obtain ⟨hiff, hobject⟩ := ofJson_faithful hreadable
  have hscalar : ∀ key kept, Json.lastMember? members key = some kept → kept.isScalar = true := by
    intro key kept hkept
    simp only [Json.lastMember?, members, List.reverse_cons, List.reverse_nil, List.nil_append,
      List.cons_append, List.lookup_cons, List.lookup_nil] at hkept
    grind [Json.isScalar]
  obtain ⟨row, hrow⟩ := hiff.mpr ⟨members, rfl, hscalar⟩
  obtain ⟨-, -, hget⟩ := (hobject members rfl).1 row hrow
  have hdouble : ∀ lit : Json.Number, lit.toBinary64.isFinite = true → lit.toInt64? = none →
      (Json.number lit).StandsFor (.float lit.toBinary64) := by
    intro lit hfinite hint
    rw [← Value.ofJson_number_eq_ok_iff hfinite, Value.ofJson, hint]
  refine ⟨hreadable, row, hrow, (hget _ _).mpr ⟨.null, rfl, .null⟩,
    (hget _ _).mpr ⟨_, rfl, hdouble _ (by decide +kernel) (by decide +kernel)⟩,
    (hget _ _).mpr ⟨_, rfl, hdouble _ (by decide +kernel) (by decide +kernel)⟩⟩

-- The last member of `a` is a scalar, and `z` comes before `é` by its bytes.
example : ofJson (.object [("é", .bool true), ("z", .array []), ("a", .bool false), ("a", .null)]) =
    .error (.inColumn "z" (.notAScalar (.array []))) := by rfl

end Row

end TenantSql
