import SqlTemplate.Value

/-! The binary form of a value as a parameter of a statement. A value is encoded only as a type
of its own kind; an integer narrows to any numeric type that holds it without loss, a double
rounds to single precision. -/

namespace SqlTemplate

open Number

/-- The type of a parameter. -/
inductive ParameterType
  | bool | int2 | int4 | int8 | float4 | float8 | text | varchar | bytea
  | date | timestamp | timestamptz | uuid | json | jsonb
deriving DecidableEq, Repr

/-- Why a value has no form of a type. -/
inductive WireError
  | wrongType
  | tooLarge
  | tooSmall
  | inexact (n : Int64)
  | outOfRange (x : Double)
deriving DecidableEq, Repr

def WireError.message : WireError → String
  | .wrongType => "the value is not of this type"
  | .tooLarge => "number too large to fit in target type"
  | .tooSmall => "number too small to fit in target type"
  | .inexact n => ofInt n.toInt ++ " cannot be represented exactly as a float parameter"
  | .outOfRange x => x.display ++ " is out of range for type real"

namespace Value

/-- Two's complement of `width` bytes. -/
def integerBytes (width : Nat) (n : Int) : List UInt8 :=
  Text.bigEndian width (n % (Nat.pow 256 width : Nat)).toNat

/-- The form of an integer in `width` bytes, if it fits them. -/
def narrow (width : Nat) (n : Int64) : Except WireError (List UInt8) :=
  let bound : Int := (Nat.pow 256 width / 2 : Nat)
  if bound ≤ n.toInt then .error .tooLarge
  else if n.toInt < -bound then .error .tooSmall
  else .ok (integerBytes width n.toInt)

def floatBytes {f : Format} (x : Binary f) : List UInt8 :=
  Text.bigEndian (f.width / 8) x.bits.toNat

/-- The form of an integer as a floating point number. The integers of at most `limit` are
all numbers of the format; no other is sent, even if it happens to be one. -/
def exactFloat (f : Format) (n : Int64) : Except WireError (List UInt8) :=
  let limit := Nat.pow 2 (f.fractionBits + 1)
  if limit < n.toInt.natAbs then .error (.inexact n)
  else .ok (floatBytes (Binary.ofInt n.toInt : Binary f))

/-- The single precision form of a double; a finite one may not become infinite. -/
def singleBytes (x : Double) : Except WireError (List UInt8) :=
  let narrowed : Single := x.convert
  if x.isFinite ∧ narrowed.isInfinite then .error (.outOfRange x)
  else .ok (floatBytes narrowed)

def textBytes (s : String) : List UInt8 := s.toUTF8.toList

/-- The binary form of a value as a parameter of the given type; null has none. -/
def encode (v : Value) (type : ParameterType) : Except WireError (Option (List UInt8)) :=
  match v, type with
  | .null, _ => .ok none
  | .bool b, .bool => .ok (some [if b then 1 else 0])
  | .int n, .int2 => some <$> narrow 2 n
  | .int n, .int4 => some <$> narrow 4 n
  | .int n, .int8 => .ok (some (integerBytes 8 n.toInt))
  | .int n, .float4 => some <$> exactFloat .single n
  | .int n, .float8 => some <$> exactFloat .double n
  | .float x, .float4 => some <$> singleBytes x
  | .float x, .float8 => .ok (some (floatBytes x))
  | .text s, .text => .ok (some (textBytes s))
  | .text s, .varchar => .ok (some (textBytes s))
  | .bytes bs, .bytea => .ok (some bs)
  | .date d, .date => .ok (some (integerBytes 4 d.dayNumber))
  | .timestamp t, .timestamp => .ok (some (integerBytes 8 t.microseconds))
  | .timestampTz t, .timestamptz => .ok (some (integerBytes 8 t.microseconds))
  | .uuid u, .uuid => .ok (some (Text.bigEndian 16 u.bits.toNat))
  | .json j, .json => .ok (some (textBytes j.print))
  | .json j, .jsonb => .ok (some (1 :: textBytes j.print))
  | _, _ => .error .wrongType

end Value

end SqlTemplate
