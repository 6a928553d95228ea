import SqlTemplate.Number.Digits
import SqlTemplate.Template.Token
import SqlTemplate.Text.Basic

/-! Rendered text in which the placeholders are still told from the text around them. A
placeholder knows its slot, the place of its argument among all arguments; the text of an
indexed one shows it. -/

namespace SqlTemplate

/-- A piece of output: a character, or a placeholder for the argument in a slot. Slots count
from one. -/
inductive Symbol
  | char (c : Char)
  | placeholder (style : Style) (slot : Nat)
deriving DecidableEq, Repr

abbrev Output := List Symbol

namespace Symbol

def chars : Symbol → List Char
  | .char c => [c]
  | .placeholder .indexed slot => '$' :: Number.digits slot
  | .placeholder .positional _ => ['?']

/-- A placeholder is never blank. -/
def isBlank : Symbol → Bool
  | .char c => Text.isBlank c
  | .placeholder .. => false

end Symbol

namespace Output

def ofString (s : String) : Output := s.toList.map .char

def chars (o : Output) : List Char := o.flatMap Symbol.chars

def text (o : Output) : String := String.ofList o.chars

/-- The output without blanks at its ends. -/
def trim (o : Output) : Output := Text.trim Symbol.isBlank o

def isBlank (o : Output) : Bool := o.all Symbol.isBlank

/-- The outputs with a text between each two. -/
def join (separator : String) (parts : List Output) : Output :=
  (ofString separator).intercalate parts

@[simp] theorem chars_nil : chars [] = [] := rfl

@[simp] theorem chars_append (o p : Output) : chars (o ++ p) = chars o ++ chars p := by
  simp [chars]

@[simp] theorem chars_ofString (s : String) : chars (ofString s) = s.toList := by
  simp only [chars, ofString, List.flatMap_map]
  exact List.flatMap_singleton' _

end Output

end SqlTemplate
