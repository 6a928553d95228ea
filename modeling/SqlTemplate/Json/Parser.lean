import SqlTemplate.Json.Numeral
import SqlTemplate.Number.Digits

/-! Reading JSON text. Every reader takes the text and gives what it read with the rest. The
readers of nested values count down a bound on their number of calls; each call takes at
least one character, so the length of the text is enough. -/

namespace SqlTemplate.Json

open Text (hexDigit?)

def isSpace (c : Char) : Bool := c == ' ' || c == '\n' || c == '\r' || c == '\t'

def skipSpace (cs : List Char) : List Char := cs.dropWhile isSpace

/-- The code unit that four hexadecimal digits spell. -/
def codeUnit? (a b c d : Char) : Option Nat := do
  return (((← hexDigit? a) * 16 + (← hexDigit? b)) * 16 + (← hexDigit? c)) * 16 + (← hexDigit? d)

def isHighSurrogate (n : Nat) : Bool := 0xD800 ≤ n && n < 0xDC00

def isLowSurrogate (n : Nat) : Bool := 0xDC00 ≤ n && n < 0xE000

/-- The character that a backslash and a letter stand for. -/
def escapedChar? : Char → Option Char
  | '"' => some '"'
  | '\\' => some '\\'
  | '/' => some '/'
  | 'b' => some (Char.ofNat 8)
  | 'f' => some (Char.ofNat 12)
  | 'n' => some '\n'
  | 'r' => some '\r'
  | 't' => some '\t'
  | _ => none

/-- Read the code units of a text after its opening quote; `acc` holds those read, the last
one first. -/
def takeUnits (acc : List Nat) : List Char → Option (List Nat × List Char)
  | [] => none
  | '"' :: rest => some (acc.reverse, rest)
  | '\\' :: 'u' :: a :: b :: c :: d :: rest =>
    match codeUnit? a b c d with
    | some n => takeUnits (n :: acc) rest
    | none => none
  | '\\' :: c :: rest =>
    match escapedChar? c with
    | some e => takeUnits (e.toNat :: acc) rest
    | none => none
  | c :: rest => if c.toNat < 32 then none else takeUnits (c.toNat :: acc) rest

/-- The characters that code units stand for: a high surrogate and the low one after it are
one character, and no surrogate stands alone. -/
def joinSurrogates : List Nat → Option (List Char)
  | [] => some []
  | high :: low :: rest =>
    if isHighSurrogate high && isLowSurrogate low then
      (joinSurrogates rest).map
        (Char.ofNat (0x10000 + (high - 0xD800) * 0x400 + (low - 0xDC00)) :: ·)
    else if isHighSurrogate high || isLowSurrogate high then none
    else (joinSurrogates (low :: rest)).map (Char.ofNat high :: ·)
  | [n] => if isHighSurrogate n || isLowSurrogate n then none else some [Char.ofNat n]

/-- Read a text after its opening quote. -/
def takeText (cs : List Char) : Option (String × List Char) := do
  let (units, rest) ← takeUnits [] cs
  let chars ← joinSurrogates units
  some (String.ofList chars, rest)

mutual

/-- Read a value. -/
def takeValue : Nat → List Char → Option (Json × List Char)
  | 0, _ => none
  | bound + 1, cs =>
    match skipSpace cs with
    | 'n' :: 'u' :: 'l' :: 'l' :: rest => some (.null, rest)
    | 't' :: 'r' :: 'u' :: 'e' :: rest => some (.bool true, rest)
    | 'f' :: 'a' :: 'l' :: 's' :: 'e' :: rest => some (.bool false, rest)
    | '"' :: rest => (takeText rest).map fun (s, rest) => (.text s, rest)
    | '[' :: rest =>
      match skipSpace rest with
      | ']' :: rest => some (.list [], rest)
      | rest => takeItems bound [] rest
    | '{' :: rest =>
      match skipSpace rest with
      | '}' :: rest => some (.object [], rest)
      | rest => takeFields bound [] rest
    | rest => takeNumber rest

/-- Read the items of a list up to its end; `acc` holds those read, the last one first. -/
def takeItems : Nat → List Json → List Char → Option (Json × List Char)
  | 0, _, _ => none
  | bound + 1, acc, cs =>
    match takeValue bound cs with
    | none => none
    | some (item, rest) =>
      match skipSpace rest with
      | ',' :: rest => takeItems bound (item :: acc) rest
      | ']' :: rest => some (.list (item :: acc).reverse, rest)
      | _ => none

/-- Read the fields of an object up to its end; `acc` holds those read. -/
def takeFields : Nat → List (String × Json) → List Char → Option (Json × List Char)
  | 0, _, _ => none
  | bound + 1, acc, cs =>
    match skipSpace cs with
    | '"' :: rest =>
      match takeText rest with
      | none => none
      | some (name, rest) =>
        match skipSpace rest with
        | ':' :: rest =>
          match takeValue bound rest with
          | none => none
          | some (value, rest) =>
            match skipSpace rest with
            | ',' :: rest => takeFields bound (insertField name value acc) rest
            | '}' :: rest => some (.object (insertField name value acc), rest)
            | _ => none
        | _ => none
    | _ => none

end

/-- The document that a text spells. -/
def parse? (s : String) : Option Json :=
  let cs := s.toList
  match takeValue (cs.length + 1) cs with
  | some (j, rest) => if skipSpace rest = [] then some j else none
  | none => none

end SqlTemplate.Json
