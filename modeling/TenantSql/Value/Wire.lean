import TenantSql.Value.Basic
import TenantSql.Postgres.Type
import TenantSql.Postgres.Numeric
import TenantSql.Text.Escaped
import TenantSql.Text.Utf8
/-!
# TenantSql.Value.Wire

Values as the bytes of a Postgres type. A number goes to the types of numbers, a
text to the types that take text, and null to any; what does not fit is refused
with a cause.
-/

namespace TenantSql

/-- Why a value has no bytes of a type. -/
inductive BindError where
  | mismatch (value : Value) (type : PgType)
  | tooLarge
  | tooSmall
  | tooManyDigits
  | notADecimal
  | notAccepted (type : PgType)

/-- What a message calls a value. -/
def Value.described : Value → String
  | .null => "null"
  | .int n => "integer " ++ intText n.toInt
  | .float x => "number " ++ x.display
  | .text s => "text " ++ Escaped.text s

/-- The wording of a refused value. -/
def BindError.message : BindError → String
  | mismatch value type =>
    "cannot bind " ++ value.described ++ " to column of type " ++ type.display
  | tooLarge => "number too large to fit in target type"
  | tooSmall => "number too small to fit in target type"
  | tooManyDigits => "Invalid decimal: overflow from too many digits"
  | notADecimal => "Invalid decimal: unknown character"
  | notAccepted type =>
    "cannot convert between the Rust type `poolsql::value::Value` and the Postgres type `" ++
      type.display ++ "`"

/-- A number in `width` bytes, most significant first; what does not fit is cut off above. -/
def bigEndian : Nat → Nat → List UInt8
  | 0, _ => []
  | width + 1, n => UInt8.ofNat (n / twoPow (8 * width)) :: bigEndian width n

/-- An integer in two's complement in `width` bytes. -/
def twosComplement (width : Nat) (n : Int) : List UInt8 :=
  bigEndian width (n % twoPow (8 * width)).toNat

/-- The bits of a float, most significant byte first. -/
def BinaryFloat.bytes {f : FloatFormat} (x : BinaryFloat f) : List UInt8 :=
  bigEndian ((f.codeBits + 1) / 8) x.bits

/-- The header and the groups of a stored number, each in two bytes. -/
def Numeric.bytes (n : Numeric) : List UInt8 :=
  bigEndian 2 n.groups.length ++ twosComplement 2 n.weight ++
    bigEndian 2 (if n.negative then 0x4000 else 0) ++ bigEndian 2 n.scale ++
    n.groups.flatMap (bigEndian 2)

namespace Value

/-- An integer in `width` bytes, if it is in their range. -/
def bindInteger (width : Nat) (n : Int) : Except BindError (List UInt8) :=
  let half : Int := twoPow (8 * width - 1)
  if half ≤ n then .error .tooLarge
  else if n < -half then .error .tooSmall
  else .ok (twosComplement width n)

/-- The greatest integer that is bound; a float one above it is taken for it. -/
def maxInteger : Int := Int64.maxValue.toInt

/-- The integer that a float binds as: the integer it is, up to either end of the 64-bit range. A
float at `2 ^ 63` counts as the greatest integer below. -/
def integerOfFloat? (x : Binary64) : Option Int :=
  match x.toInt? with
  | some n =>
    if Int64.minValue.toInt ≤ n && n ≤ maxInteger + 1 then some (min n maxInteger) else none
  | none => none

/-- An integer as a type of numbers. -/
def bindInt (n : Int) (type : PgType) (refused : BindError) : Except BindError (List UInt8) :=
  match type with
  | .builtin .int2 => bindInteger 2 n
  | .builtin .int4 => bindInteger 4 n
  | .builtin .int8 => bindInteger 8 n
  | .builtin .float4 => .ok (BinaryFloat.ofInt n : Binary32).bytes
  | .builtin .float8 => .ok (BinaryFloat.ofInt n : Binary64).bytes
  | .builtin .numeric => .ok (Numeric.ofInt n).bytes
  | _ => .error refused

/-- A float as `numeric`: the decimal it is displayed as. -/
def bindNumeric (x : Binary64) : Except BindError (List UInt8) :=
  if x.isFinite then
    match Numeric.ofDecimal? x.negative x.decimal with
    | some n => .ok n.bytes
    | none => .error .tooManyDigits
  else .error .notADecimal

/-- A float as a type of numbers; a type of integers takes it if it is an integer. -/
def bindFloat (x : Binary64) (type : PgType) : Except BindError (List UInt8) :=
  let refused := BindError.mismatch (.float x) type
  match type with
  | .builtin .float4 => .ok x.toSingle.bytes
  | .builtin .float8 => .ok x.bytes
  | .builtin .numeric => bindNumeric x
  | .builtin .int2 | .builtin .int4 | .builtin .int8 =>
    match integerOfFloat? x with
    | some n => bindInt n type refused
    | none => .error refused
  | _ => .error refused

/-- A text as a type that takes text. -/
def bindText (s : String) (type : PgType) : Except BindError (List UInt8) :=
  if type.takesText then
    .ok (if type.takesVersionedText then 1 :: Utf8.encode s else Utf8.encode s)
  else .error (.mismatch (.text s) type)

/-- The bytes of a value as a type; none for null. -/
def bind (v : Value) (type : PgType) : Except BindError (Option (List UInt8)) :=
  match v with
  | .null => .ok none
  | .int n => (bindInt n.toInt type (.mismatch v type)).map some
  | .float x => (bindFloat x type).map some
  | .text s => (bindText s type).map some

/-- Whether values are bound to a type at all. -/
def accepts (type : PgType) : Bool :=
  type.takesNumbers || type.takesText

/-- The bytes of a value as a type that values are bound to. -/
def bindChecked (v : Value) (type : PgType) : Except BindError (Option (List UInt8)) :=
  if accepts type then v.bind type else .error (.notAccepted type)

end Value

end TenantSql
