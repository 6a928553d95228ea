import SqlTemplate.Number.Decimal

/-! Shortest decimal forms. The shortest form of a binary number is the decimal number with
the fewest digits among those that read back as it, and the nearest to it of those. On each
decimal grid only the two neighbours of the number need be tried, because any grid point
that reads back has one of them between itself and the number. -/

namespace SqlTemplate.Number

/-- Which of two equally near decimal numbers is taken. -/
inductive Tie
  | toEven
  | awayFromZero
deriving DecidableEq, Repr

/-- A positive number with the interval of the numbers that round to it, over one denominator. -/
structure Cell where
  low : Nat
  value : Nat
  high : Nat
  denominator : Nat
  closed : Bool
deriving Repr

/-- The cell of a positive finite magnitude pattern. Its lower half is halved where the
spacing of the numbers changes; its ends belong to it when the pattern is even. -/
def Format.cell (f : Format) (magnitude : Nat) : Cell :=
  let (significand, exponent) := f.parts magnitude
  let (up, down) := powerOfTwo (exponent - 2)
  let below := if significand = Nat.pow 2 f.fractionBits ∧ exponent ≠ f.leastExponent then 1 else 2
  { low := (4 * significand - below) * up
    value := 4 * significand * up
    high := (4 * significand + 2) * up
    denominator := down
    closed := significand % 2 == 0 }

/-- A point, given by its numerator, lies in the cell. -/
def Cell.contains (c : Cell) (point : Nat) : Bool :=
  if c.closed then c.low ≤ point && point ≤ c.high else c.low < point && point < c.high

/-- The better neighbour of the value on the grid of the multiples of `10 ^ exponent`,
if one of the two lies in the cell. -/
def Cell.onGrid? (c : Cell) (tie : Tie) (exponent : Int) : Option Nat :=
  let (up, down) := powerOfTen exponent
  let c := { c with low := c.low * down, value := c.value * down, high := c.high * down }
  let unit := c.denominator * up
  let k := c.value / unit
  let r := c.value % unit
  match c.contains (k * unit), c.contains ((k + 1) * unit) with
  | false, false => none
  | true, false => some k
  | false, true => some (k + 1)
  | true, true =>
    if 2 * r < unit then some k
    else if unit < 2 * r then some (k + 1)
    else match tie with
      | .toEven => some (k + k % 2)
      | .awayFromZero => some (k + 1)

/-- Try the grids from `10 ^ exponent` downwards. -/
def Cell.search (c : Cell) (tie : Tie) : Nat → Int → Decimal
  | 0, exponent => ⟨0, exponent⟩
  | steps + 1, exponent =>
    match c.onGrid? tie exponent with
    | some k => ⟨k, exponent⟩
    | none => c.search tie steps (exponent - 1)

/-- The shortest decimal form of a finite magnitude pattern. The search starts above the
leading digit, whose place is `log10` of the number; twenty grids reach the seventeen
digits that always suffice. -/
def Format.shortest (f : Format) (tie : Tie) (magnitude : Nat) : Decimal :=
  if magnitude = 0 then ⟨0, 0⟩
  else
    let c := f.cell magnitude
    let top := log2Ratio c.value c.denominator * 30103 / 100000 + 2
    c.search tie 20 top

/-- The digits of a decimal number with the place of its point: the text, and how many of its
digits stand before the point. -/
def Decimal.digitsAndPoint (d : Decimal) : List Char × Int :=
  let ds := digits d.coefficient
  (ds, ds.length + d.exponent)

/-- Positional notation; a whole number has no point. -/
def Decimal.positional (d : Decimal) : List Char :=
  let (ds, point) := d.digitsAndPoint
  if d.coefficient = 0 then ['0']
  else if 0 ≤ d.exponent then ds ++ List.replicate d.exponent.toNat '0'
  else if point ≤ 0 then '0' :: '.' :: (List.replicate (-point).toNat '0' ++ ds)
  else ds.take point.toNat ++ '.' :: ds.drop point.toNat

/-- Scientific notation: one digit before the point, and a signed exponent. -/
def Decimal.scientific (d : Decimal) : List Char :=
  let (ds, point) := d.digitsAndPoint
  let place := point - 1
  let mantissa := match ds with
    | [] => []
    | [c] => [c]
    | c :: rest => c :: '.' :: rest
  mantissa ++ 'e' :: (if place < 0 then '-' else '+') :: digits place.natAbs

/-- Shortest digits in positional notation, whatever the exponent; a tie goes away from zero. -/
def Binary.display {f : Format} (x : Binary f) : String :=
  if x.isNaN then "NaN"
  else
    let body := if x.isInfinite then "inf".toList
      else (f.shortest .awayFromZero x.magnitude).positional
    String.ofList (if x.isNegative then '-' :: body else body)

end SqlTemplate.Number
