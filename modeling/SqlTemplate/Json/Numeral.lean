import SqlTemplate.Json
import SqlTemplate.Number.Decimal

/-! JSON numbers. An integer of 64 bits is read exactly. Any other number is read through
its leading digits, as many as fit 64 bits, and one scaling by a power of ten that is itself
rounded, so the double can be a unit in the last place off the nearest one. -/

namespace SqlTemplate.Json

open Number

/-- The digits read so far: their value and the power of ten they are to be scaled by. -/
structure Significand where
  value : Nat
  exponent : Int

/-- The least number that does not fit 64 bits. -/
def digitLimit : Nat := 18446744073709551616

/-- Read the digits of the whole part. From the first digit that does not fit on, each one
only scales. -/
def takeWhole : Significand → Bool → List Char → Significand × Bool × List Char
  | s, full, [] => (s, full, [])
  | s, full, c :: cs =>
    if c.isDigit then
      let next := s.value * 10 + ofDigits [c]
      if full || digitLimit ≤ next then takeWhole ⟨s.value, s.exponent + 1⟩ true cs
      else takeWhole ⟨next, s.exponent⟩ false cs
    else (s, full, c :: cs)

/-- Read the digits after the point. From the first digit that does not fit on, they are
passed over. -/
def takeFraction : Significand → Bool → List Char → Significand × List Char
  | s, _, [] => (s, [])
  | s, full, c :: cs =>
    if c.isDigit then
      let next := s.value * 10 + ofDigits [c]
      if full || digitLimit ≤ next then takeFraction s true cs
      else takeFraction ⟨next, s.exponent - 1⟩ false cs
    else (s, c :: cs)

/-- `10 ^ k` rounded to a double, for `k` up to 308. -/
def roundedPower (k : Nat) : Double := .ofRatio false (Nat.pow 10 k) 1

/-- Divide by `10 ^ 308` until the rest of the exponent has a double power of ten. -/
def scaleDown : Nat → Double → Nat → Double
  | 0, x, _ => x
  | steps + 1, x, k =>
    if k ≤ 308 then x.div (roundedPower k)
    else if x.magnitude = 0 then x
    else scaleDown steps (x.div (roundedPower 308)) (k - 308)

/-- The double for the significand scaled by its power of ten, if that is finite. Five
divisions take any significand below the least double. -/
def scale (s : Significand) : Option Double :=
  let x : Double := .ofRatio false s.value 1
  if s.exponent < 0 then some (scaleDown 5 x s.exponent.natAbs)
  else if 308 < s.exponent then if s.value = 0 then some x else none
  else
    let y := x.mul (roundedPower s.exponent.toNat)
    if y.isFinite then some y else none

/-- Read an exponent after its letter. -/
def takeExponent (cs : List Char) : Option (Int × List Char) :=
  let (negative, rest) := takeSign cs
  let ds := rest.takeWhile Char.isDigit
  if ds = [] then none
  else some (if negative then -(ofDigits ds : Int) else ofDigits ds, rest.dropWhile Char.isDigit)

/-- The document of a double with the given sign. -/
def signed? (negative : Bool) (s : Significand) : Option Json :=
  (scale s).map fun x => .float (if negative then x.neg else x)

/-- The document of a number without fraction and exponent. `-0` is a double, and so is every
integer that does not fit. -/
def whole? (negative full : Bool) (s : Significand) : Option Json :=
  if full then signed? negative s
  else if !negative then some (.int s.value)
  else if 0 < s.value ∧ s.value ≤ 9223372036854775808 then some (.int (-s.value))
  else signed? negative s

/-- Read what follows the digits: the exponent, if there is one. -/
def takeScaled (negative : Bool) (s : Significand) (plain : Option Json) :
    List Char → Option (Json × List Char)
  | [] => plain.map fun j => (j, [])
  | c :: rest =>
    if c = 'e' ∨ c = 'E' then do
      let (e, rest) ← takeExponent rest
      let j ← signed? negative ⟨s.value, s.exponent + e⟩
      some (j, rest)
    else plain.map fun j => (j, c :: rest)

/-- Read an unsigned number at the head of the text. -/
def takeUnsigned (negative : Bool) (cs : List Char) : Option (Json × List Char) :=
  let ds := cs.takeWhile Char.isDigit
  if ds = [] ∨ (1 < ds.length ∧ ds.head? = some '0') then none
  else
    match takeWhole ⟨0, 0⟩ false cs with
    | (s, _, '.' :: rest) =>
      if rest.takeWhile Char.isDigit = [] then none
      else
        let (s, rest) := takeFraction s false rest
        takeScaled negative s (signed? negative s) rest
    | (s, full, rest) => takeScaled negative s (whole? negative full s) rest

/-- Read a number at the head of the text. -/
def takeNumber : List Char → Option (Json × List Char)
  | '-' :: cs => takeUnsigned true cs
  | cs => takeUnsigned false cs

end SqlTemplate.Json
