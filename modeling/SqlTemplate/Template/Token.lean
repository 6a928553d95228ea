import SqlTemplate.Template.Position

/-! The two styles of placeholders, and the tokens of a template. A token is a piece of the template
with the place where it begins; a malformed piece is a token too. -/

namespace SqlTemplate

/-- How a placeholder refers to its argument: by a number, `$1`, or by its place among the
placeholders, `?`. -/
inductive Style
  | indexed
  | positional
deriving DecidableEq, Repr

namespace Style

/-- The character that marks a reference of this style. -/
def sign : Style → Char
  | .indexed => '$'
  | .positional => '?'

/-- The name of a style in a configuration; no style is the automatic one. -/
def name : Option Style → String
  | none => "auto"
  | some .indexed => "indexed"
  | some .positional => "positional"

/-- The style, or the lack of one, that a name stands for. -/
def ofName? : String → Option (Option Style)
  | "auto" => some none
  | "indexed" => some (some .indexed)
  | "positional" => some (some .positional)
  | _ => none

/-- The name of a style in a log. -/
def title : Option Style → String
  | none => "Auto"
  | some .indexed => "Indexed"
  | some .positional => "Positional"

end Style

end SqlTemplate

namespace SqlTemplate.Template

/-- The kinds of tokens. -/
inductive Kind
  /-- Text copied to the output; it may end inside an open quotation. -/
  | text (closed : Bool)
  /-- The sign of a placeholder. -/
  | marker (style : Style)
  /-- The sign of a function. -/
  | hash
  | name
  /-- The index behind a placeholder or a function name. -/
  | digits
  /-- A quoted argument; its closing quote may be missing. -/
  | quoted (closed : Bool)
  /-- An argument without quotes. -/
  | bare
  | openParen
  | closeParen
  | comma
deriving DecidableEq, Repr

/-- What a diagnostic calls a kind of token. -/
def Kind.describe : Kind → String
  | .text _ => "plain text"
  | .marker _ => "bind-var"
  | .hash => "'#'"
  | .name => "name"
  | .digits | .quoted _ | .bare => "literal"
  | .openParen => "'('"
  | .closeParen => "')'"
  | .comma => "','"

/-- What a diagnostic calls a token, or the lack of one. -/
def Kind.describe? : Option Kind → String
  | some kind => kind.describe
  | none => "end of input"

structure Token where
  kind : Kind
  lexeme : List Char
  pos : Position
deriving DecidableEq, Repr

/-- The number of characters that the tokens have together. -/
def weight : List Token → Nat
  | [] => 0
  | t :: ts => t.lexeme.length + weight ts

@[simp] theorem weight_nil : weight [] = 0 := rfl

@[simp] theorem weight_cons (t : Token) (ts : List Token) :
    weight (t :: ts) = t.lexeme.length + weight ts := rfl

end SqlTemplate.Template
