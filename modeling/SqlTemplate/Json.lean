import SqlTemplate.Number.Digits
import SqlTemplate.Number.Shortest

/-! JSON documents and their compact text. An object keeps its fields in the order of their names
and has each name once; a number is an integer of 64 bits, signed or not, or a finite double.

The text has no spaces; control characters below the space are escaped, by a letter where one
exists; a double has the fewest digits that read back, with a point or an exponent that tells
it from an integer. -/

namespace SqlTemplate

inductive Json
  | null
  | bool (b : Bool)
  | int (n : Int)
  | float (x : Number.Double)
  | text (s : String)
  | list (items : List Json)
  | object (fields : List (String × Json))

namespace Json

/-- Put a field where its name belongs, in place of a field of that name. -/
def insertField (name : String) (value : Json) : List (String × Json) → List (String × Json)
  | [] => [(name, value)]
  | (n, v) :: rest =>
    if name < n then (name, value) :: (n, v) :: rest
    else if name = n then (name, value) :: rest
    else (n, v) :: insertField name value rest

/-- The object with the given fields; of two with one name the later counts. -/
def ofFields (fields : List (String × Json)) : Json :=
  .object (fields.foldl (fun acc (name, value) => insertField name value acc) [])

/-- The field of an object. -/
def field? (name : String) : Json → Option Json
  | .object fields => fields.lookup name
  | _ => none

/-! ## Compact text -/

open Number

def escapeChar (c : Char) : List Char :=
  match c with
  | '"' => ['\\', '"']
  | '\\' => ['\\', '\\']
  | '\n' => ['\\', 'n']
  | '\r' => ['\\', 'r']
  | '\t' => ['\\', 't']
  | _ =>
    if c.toNat = 8 then ['\\', 'b']
    else if c.toNat = 12 then ['\\', 'f']
    else if c.toNat < 32 then '\\' :: 'u' :: '0' :: '0' :: Text.hexPair (UInt8.ofNat c.toNat)
    else [c]

def printText (s : String) : String :=
  String.ofList ('"' :: (s.toList.flatMap escapeChar ++ ['"']))

/-- The exponents printed in positional notation: `10 ^ -5` and above, below `10 ^ 16`. -/
def isPositional (place : Int) : Bool := -5 ≤ place && place < 16

/-- A double in shortest form, a tie going to the even digit. -/
def printDouble (x : Double) : String :=
  let d := Format.double.shortest .toEven x.magnitude
  let place := d.digitsAndPoint.2 - 1
  let body :=
    if isPositional place then
      let text := d.positional
      if text.contains '.' then text else text ++ ['.', '0']
    else d.scientific
  String.ofList (if x.isNegative then '-' :: body else body)

mutual

/-- The pieces of the text of a document, in order. -/
def pieces : Json → List String
  | .null => ["null"]
  | .bool true => ["true"]
  | .bool false => ["false"]
  | .int n => [ofInt n]
  | .float x => [printDouble x]
  | .text s => [printText s]
  | .list items => "[" :: itemPieces items ++ ["]"]
  | .object fields => "\x7b" :: fieldPieces fields ++ ["\x7d"]

def itemPieces : List Json → List String
  | [] => []
  | [item] => pieces item
  | item :: items => pieces item ++ "," :: itemPieces items

def fieldPieces : List (String × Json) → List String
  | [] => []
  | [(name, value)] => printText name :: ":" :: pieces value
  | (name, value) :: fields =>
    printText name :: ":" :: pieces value ++ "," :: fieldPieces fields

end

/-- The compact text of a document. -/
def print (j : Json) : String :=
  String.join j.pieces

end Json

end SqlTemplate
