/-! Digits. Natural numbers are written in decimal without leading zeros; a digit list is read
with any number of them. An index is a natural number below `2 ^ 64`, which a text may spell
with a leading `+`. Bytes are written with two hexadecimal digits each, high half first, in
lower case; they are read in either. -/

namespace SqlTemplate.Number

/-- The decimal digits of a natural number. -/
def digits (n : Nat) : List Char :=
  Nat.toDigits 10 n

/-- The value of a list of digits. -/
def ofDigits (cs : List Char) : Nat :=
  Nat.ofDigitChars 10 cs 0

@[simp] theorem ofDigits_digits (n : Nat) : ofDigits (digits n) = n :=
  Nat.ofDigitChars_toDigits (by decide) (by decide)

/-- The number of distinct indices. -/
def indexLimit : Nat := 18446744073709551616

/-- The index that a text spells: digits, and in front of them at most one `+`. -/
def index? (s : String) : Option Nat :=
  let cs := match s.toList with
    | '+' :: cs => cs
    | cs => cs
  if cs ≠ [] ∧ cs.all Char.isDigit ∧ ofDigits cs < indexLimit then some (ofDigits cs) else none

/-- An integer in decimal. -/
def ofInt (n : Int) : String :=
  String.ofList (if n < 0 then '-' :: digits n.natAbs else digits n.natAbs)

/-- A natural number in decimal, padded with zeros to at least `width` digits. -/
def padded (width n : Nat) : String :=
  String.ofList (List.replicate (width - (digits n).length) '0' ++ digits n)

end SqlTemplate.Number

namespace SqlTemplate.Text

/-- The value of a hexadecimal digit. -/
def hexDigit? (c : Char) : Option Nat :=
  if c.isDigit then some (c.toNat - '0'.toNat)
  else if 'a' ≤ c ∧ c ≤ 'f' then some (c.toNat - 'a'.toNat + 10)
  else if 'A' ≤ c ∧ c ≤ 'F' then some (c.toNat - 'A'.toNat + 10)
  else none

def hexPair (b : UInt8) : List Char :=
  [Nat.digitChar (b.toNat / 16), Nat.digitChar (b.toNat % 16)]

def hexOfBytes (bytes : List UInt8) : List Char :=
  bytes.flatMap hexPair

/-- The bytes that a hexadecimal text spells. -/
def bytesOfHex? : List Char → Option (List UInt8)
  | [] => some []
  | [_] => none
  | a :: b :: rest => do
    let high ← hexDigit? a
    let low ← hexDigit? b
    let bytes ← bytesOfHex? rest
    some (UInt8.ofNat (16 * high + low) :: bytes)

/-- The `width` low bytes of a number, the highest first. -/
def bigEndian (width n : Nat) : List UInt8 :=
  (List.range width).reverse.map fun k => UInt8.ofNat (n / Nat.pow 256 k)

/-- The number whose bytes, the highest first, are given. -/
def ofBigEndian (bytes : List UInt8) : Nat :=
  bytes.foldl (fun n b => 256 * n + b.toNat) 0

end SqlTemplate.Text
