import SqlTemplate.Number.Binary
import SqlTemplate.Number.Digits

/-! Decimal numerals. A numeral is an optional sign, digits with an optional point and at
least one digit, and an optional exponent; or a sign and one of the names of infinity and
of what is not a number, in any case. -/

namespace SqlTemplate.Number

/-- The decimal number `coefficient * 10 ^ exponent`. -/
structure Decimal where
  coefficient : Nat
  exponent : Int
deriving DecidableEq, Repr

/-- What a numeral denotes, its sign apart. -/
inductive Magnitude
  | finite (d : Decimal)
  | infinite
  | undefined
deriving DecidableEq, Repr

structure Numeral where
  negative : Bool
  magnitude : Magnitude
deriving DecidableEq, Repr

/-- Split a sign from the text after it. -/
def takeSign : List Char → Bool × List Char
  | '-' :: cs => (true, cs)
  | '+' :: cs => (false, cs)
  | cs => (false, cs)

/-- The exponent at the end of a numeral; no text is the exponent zero. -/
def exponent? : List Char → Option Int
  | [] => some 0
  | c :: cs =>
    let (negative, ds) := takeSign cs
    if (c = 'e' ∨ c = 'E') ∧ ds ≠ [] ∧ ds.all Char.isDigit then
      some (if negative then -(ofDigits ds : Int) else ofDigits ds)
    else none

/-- The decimal number that an unsigned numeral denotes. -/
def decimal? (cs : List Char) : Option Decimal :=
  let whole := cs.takeWhile Char.isDigit
  let (fraction, rest) := match cs.dropWhile Char.isDigit with
    | '.' :: rest => (rest.takeWhile Char.isDigit, rest.dropWhile Char.isDigit)
    | rest => ([], rest)
  if whole = [] ∧ fraction = [] then none
  else (exponent? rest).map fun e => ⟨ofDigits (whole ++ fraction), e - fraction.length⟩

/-- The numeral that a text spells. -/
def numeral? (cs : List Char) : Option Numeral :=
  let (negative, body) := takeSign cs
  let name := String.ofList (body.map Char.toLower)
  if name = "inf" ∨ name = "infinity" then some ⟨negative, .infinite⟩
  else if name = "nan" then some ⟨negative, .undefined⟩
  else (decimal? body).map fun d => ⟨negative, .finite d⟩

/-- The magnitude pattern nearest to a decimal number. A number of more decimal places than
the exponent range of the format has bits is infinite or zero without further computation. -/
def Format.nearestDecimal (f : Format) (d : Decimal) : Nat :=
  let reach : Int := (Nat.pow 2 f.exponentBits : Nat)
  let size : Int := d.exponent + (digits d.coefficient).length
  if d.coefficient = 0 ∨ size < -reach then 0
  else if reach < size then f.infinity
  else
    let (up, down) := powerOfTen d.exponent
    f.nearest (d.coefficient * up) down

/-- The number nearest to what a numeral denotes. -/
def Binary.ofNumeral {f : Format} (n : Numeral) : Binary f :=
  .ofMagnitude n.negative <| match n.magnitude with
    | .finite d => f.nearestDecimal d
    | .infinite => f.infinity
    | .undefined => f.quiet

/-- The number nearest to what a text spells. -/
def Binary.ofText? {f : Format} (s : String) : Option (Binary f) :=
  (numeral? s.toList).map .ofNumeral

end SqlTemplate.Number
