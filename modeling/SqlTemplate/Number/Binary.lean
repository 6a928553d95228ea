/-! Binary floating point numbers as exact data. A format fixes the widths of the exponent
field and of the fraction; a number is its bit pattern. Every operation here is a rational
computation on naturals followed by one rounding to the nearest pattern, a tie going to the
even one. -/

namespace SqlTemplate.Number

/-- A binary interchange format: one sign bit, an exponent field and a fraction. -/
structure Format where
  exponentBits : Nat
  fractionBits : Nat
deriving DecidableEq, Repr

namespace Format

/-- Double precision, 64 bits. -/
def double : Format := ⟨11, 52⟩

/-- Single precision, 32 bits. -/
def single : Format := ⟨8, 23⟩

variable (f : Format)

def width : Nat := 1 + f.exponentBits + f.fractionBits

/-- The weight of the sign bit; patterns below it are magnitudes. -/
def signBit : Nat := Nat.pow 2 (f.exponentBits + f.fractionBits)

/-- The magnitude pattern of infinity; greater ones are not numbers. -/
def infinity : Nat := (Nat.pow 2 f.exponentBits - 1) * Nat.pow 2 f.fractionBits

/-- The magnitude pattern of the quiet not-a-number. -/
def quiet : Nat := f.infinity + Nat.pow 2 (f.fractionBits - 1)

/-- The exponent of the least positive number. -/
def leastExponent : Int := 2 - (Nat.pow 2 (f.exponentBits - 1) : Nat) - f.fractionBits

/-- Significand and exponent of a finite magnitude pattern, whose value is
`significand * 2 ^ exponent`. -/
def parts (magnitude : Nat) : Nat × Int :=
  let field := magnitude / Nat.pow 2 f.fractionBits
  let fraction := magnitude % Nat.pow 2 f.fractionBits
  if field = 0 then (fraction, f.leastExponent)
  else (Nat.pow 2 f.fractionBits + fraction, f.leastExponent + (field - 1 : Nat))

end Format

/-- The quotient rounded to the nearest natural number, a tie to the even one. -/
def roundDiv (n d : Nat) : Nat :=
  let q := n / d
  let r := n % d
  if 2 * r < d then q else if d < 2 * r then q + 1 else q + q % 2

/-- `2 ^ k` as a fraction, numerator and denominator. -/
def powerOfTwo (k : Int) : Nat × Nat := (Nat.pow 2 k.toNat, Nat.pow 2 (-k).toNat)

/-- `10 ^ k` as a fraction, numerator and denominator. -/
def powerOfTen (k : Int) : Nat × Nat := (Nat.pow 10 k.toNat, Nat.pow 10 (-k).toNat)

/-- The greatest `k` with `2 ^ k ≤ n / d`, for positive `n` and `d`. -/
def log2Ratio (n d : Nat) : Int :=
  let k : Int := (n.log2 : Int) - (d.log2 : Int)
  let (up, down) := powerOfTwo k
  if n * down < d * up then k - 1 else k

/-- The magnitude pattern nearest to `n / d`, for positive `d`. -/
def Format.nearest (f : Format) (n d : Nat) : Nat :=
  if n = 0 then 0
  else
    let exponent := max f.leastExponent (log2Ratio n d - f.fractionBits)
    let (up, down) := powerOfTwo exponent
    let significand := roundDiv (n * down) (d * up)
    min f.infinity
      ((exponent - f.leastExponent).toNat * Nat.pow 2 f.fractionBits + significand)

/-- A floating point number, given by its bit pattern. -/
structure Binary (f : Format) where
  bits : BitVec f.width
deriving DecidableEq, Repr

abbrev Double := Binary .double
abbrev Single := Binary .single

namespace Binary

variable {f : Format}

def ofMagnitude (negative : Bool) (magnitude : Nat) : Binary f :=
  ⟨BitVec.ofNat _ ((if negative then f.signBit else 0) + magnitude)⟩

def isNegative (x : Binary f) : Bool := f.signBit ≤ x.bits.toNat

def magnitude (x : Binary f) : Nat := x.bits.toNat % f.signBit

def isNaN (x : Binary f) : Bool := f.infinity < x.magnitude

def isInfinite (x : Binary f) : Bool := x.magnitude == f.infinity

def isFinite (x : Binary f) : Bool := x.magnitude < f.infinity

/-- The number nearest to a fraction with the given sign. -/
def ofRatio (negative : Bool) (n d : Nat) : Binary f :=
  ofMagnitude negative (f.nearest n d)

/-- The number nearest to an integer. -/
def ofInt (n : Int) : Binary f :=
  ofRatio (n < 0) n.natAbs 1

/-- The absolute value of a finite number as a fraction. -/
def ratio (x : Binary f) : Nat × Nat :=
  let (significand, exponent) := f.parts x.magnitude
  let (up, down) := powerOfTwo exponent
  (significand * up, down)

/-- The nearest number of another format; the sign is kept, also of what is not a number. -/
def convert {g : Format} (x : Binary f) : Binary g :=
  if x.isNaN then ofMagnitude x.isNegative g.quiet
  else if x.isInfinite then ofMagnitude x.isNegative g.infinity
  else ofRatio x.isNegative x.ratio.1 x.ratio.2

/-- The product of two finite numbers, rounded once. -/
def mul (x y : Binary f) : Binary f :=
  ofRatio (x.isNegative != y.isNegative) (x.ratio.1 * y.ratio.1) (x.ratio.2 * y.ratio.2)

/-- The quotient of two finite numbers, rounded once; the divisor is not zero. -/
def div (x y : Binary f) : Binary f :=
  ofRatio (x.isNegative != y.isNegative) (x.ratio.1 * y.ratio.2) (x.ratio.2 * y.ratio.1)

def neg (x : Binary f) : Binary f :=
  ofMagnitude (!x.isNegative) x.magnitude

end Binary

end SqlTemplate.Number
