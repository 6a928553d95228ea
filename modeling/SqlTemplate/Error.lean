import SqlTemplate.Segment
import SqlTemplate.Template.Token
import SqlTemplate.Text.Escaped

/-! Errors. An error is a cause and the path of templates that were being built when it arose.
Causes say what is wrong; their wording is in `Cause.message` and the functions it uses. Each
family has a constructor `other` for a cause that a caller words itself. -/

namespace SqlTemplate

open Template (Kind Position)
open Query (JoinKind)

/-- The kinds of declarations that a template refers to. -/
inductive DeclKind
  | arg
  | column
  | table
  | segment
deriving DecidableEq, Repr

def DeclKind.name : DeclKind → String
  | .arg => "arg"
  | .column => "column"
  | .table => "table"
  | .segment => "segment"

/-- What is wrong with the text of a template. -/
inductive SyntaxFault
  | openQuote
  | unexpected (kind : Kind) (lexeme : String)
  | missingIndex
  | indexTooLarge (digits : String)
  | missingName (found : Option Kind)
  | missingArgument (found : Option Kind)
  | badArgument (lexeme : String)
  | missingSeparator (found : Option Kind)
  | bareMarker (name : String)
  | other (text : String)
deriving DecidableEq, Repr

def SyntaxFault.message : SyntaxFault → String
  | .openQuote => "unterminated quoted text"
  | .unexpected kind lexeme => "unexpected " ++ kind.describe ++ " '" ++ lexeme ++ "'"
  | .missingIndex => "'$' must be followed by a positive index"
  | .indexTooLarge digits =>
    "bad index '" ++ digits ++ "': number too large to fit in target type"
  | .missingName found =>
    "unexpected " ++ Kind.describe? found ++ " after '#', want function name"
  | .missingArgument found => "unexpected " ++ Kind.describe? found ++ ", want argument"
  | .badArgument lexeme => "bad argument: " ++ lexeme
  | .missingSeparator found => "unexpected " ++ Kind.describe? found ++ ", want ',' or ')'"
  | .bareMarker name => "bare '#" ++ name ++ "' is only allowed in a join template"
  | .other text => text

/-- One side of a conflict of styles: a placeholder in a template, or a whole template. -/
inductive StyleUse
  | marker (style : Style) (pos : Position)
  | template (raw : String)
deriving DecidableEq, Repr

def StyleUse.describe : StyleUse → String
  | .marker style pos => style.sign.toString ++ " at " ++ pos.describe
  | .template raw => raw

/-- Why the markers of a join do not line up. -/
inductive JoinFault
  | different (first second template : String)
  | repeats (first : String) (firstCount : Nat) (second : String) (secondCount : Nat)
    (template : String)
  | none (template : String)
  | other (text : String)
deriving DecidableEq, Repr

def JoinFault.message : JoinFault → String
  | .different first second template =>
    "'#" ++ first ++ "' and '#" ++ second ++ "' reference different declarations in '" ++
      template ++ "'"
  | .repeats first firstCount second secondCount template =>
    "'#" ++ first ++ "' repeats " ++ Nat.repr firstCount ++ " times but '#" ++ second ++
      "' repeats " ++ Nat.repr secondCount ++ " times in '" ++ template ++ "'"
  | .none template => "no references found in '" ++ template ++ "'"
  | .other text => text

/-- The shape of the arguments that a built-in function takes. -/
inductive Signature
  | argument
  | column
  | table
  | segment
  | join
deriving DecidableEq, Repr

def Signature.text : Signature → String
  | .argument => "$(index)"
  | .column => "column(index)"
  | .table => "table(index)"
  | .segment => "segment(index)"
  | .join => "join(template, separator)"

/-- What is wrong with the parts of a query. -/
inductive QueryFault
  | anchorUnnamed
  | joinUnnamed (kind : JoinKind)
  | alreadyJoined (table : Table)
  | withUnnamed
  | alreadyDeclared (name : String)
  | noAnchor
  | notFound (table : String)
  | noColumns
  | other (text : String)
deriving DecidableEq, Repr

def QueryFault.message : QueryFault → String
  | .anchorUnnamed => "from table name is empty"
  | .joinUnnamed kind => kind.keyword ++ " table name is empty"
  | .alreadyJoined table => "table [" ++ table.declaration ++ "] is already joined"
  | .withUnnamed => "with name is empty"
  | .alreadyDeclared name => "CTE [" ++ name ++ "] is already declared"
  | .noAnchor => "no FROM table"
  | .notFound table => "table '" ++ table ++ "' not found in FROM"
  | .noColumns => "no columns selected"
  | .other text => text

/-- Why the arguments cannot be written into a query. -/
inductive InterpolationFault
  | noArgument (pos : Position) (index given : Nat)
  | function (pos : Position)
  | other (text : String)
deriving DecidableEq, Repr

def InterpolationFault.message : InterpolationFault → String
  | .noArgument pos index given =>
    pos.describe ++ ": placeholder " ++ Nat.repr index ++ " has no argument (" ++
      Nat.repr given ++ " given)"
  | .function pos => pos.describe ++ ": template functions cannot be interpolated"
  | .other text => text

/-- Why a query is not executed. -/
inductive ExecutionFault
  | positional (sql : String)
  | other (text : String)
deriving DecidableEq, Repr

def ExecutionFault.message : ExecutionFault → String
  | .positional sql =>
    "positional placeholders cannot be sent to PostgreSQL, build with indexed style: " ++ sql
  | .other text => text

/-- Which row is missing. -/
inductive RowFault
  | noRow
  | other (text : String)
deriving DecidableEq, Repr

def RowFault.message : RowFault → String
  | .noRow => "Expected one row, got none"
  | .other text => text

/-- What went wrong. -/
inductive Cause
  | syntaxError (pos : Position) (fault : SyntaxFault)
  | unknownFunction (name : String)
  | indexOutOfRange (kind : DeclKind) (index declared : Nat)
  | unusedDeclaration (kind : DeclKind) (index : Nat)
  | mixedStyles (first second : StyleUse)
  | unalignedJoin (fault : JoinFault)
  | badArguments (signature : Signature) (got : List String)
  | invalidFunctionName (name : String)
  | badQuery (faults : List QueryFault)
  | interpolation (fault : InterpolationFault)
  | notExecutable (fault : ExecutionFault)
  | notFound (fault : RowFault)
  | badRow (column message : String)
deriving DecidableEq, Repr

def Cause.message : Cause → String
  | .syntaxError pos fault => "syntax error at " ++ pos.describe ++ ": " ++ fault.message
  | .unknownFunction name => "function '" ++ name ++ "' is not found"
  | .indexOutOfRange kind index declared =>
    "invalid " ++ kind.name ++ " index " ++ Nat.repr index ++ ": " ++ Nat.repr declared ++
      " declared"
  | .unusedDeclaration kind index => kind.name ++ " " ++ Nat.repr index ++ " is not used"
  | .mixedStyles first second =>
    "mixed bind-var styles between '" ++ first.describe ++ "' and '" ++ second.describe ++ "'"
  | .unalignedJoin fault => "unaligned join references: " ++ fault.message
  | .badArguments signature got =>
    "bad arguments for #" ++ signature.text ++ ": got " ++ Text.escapeAll got
  | .invalidFunctionName name =>
    "invalid function name '" ++ name ++ "': must be non-empty, digit-free and not a built-in"
  | .badQuery faults =>
    "collected errors: " ++ String.join (faults.map fun fault => " * " ++ fault.message ++ ";")
  | .interpolation fault => "interpolate: " ++ fault.message
  | .notExecutable fault => "Validation error: " ++ fault.message
  | .notFound fault => "Not found: " ++ fault.message
  | .badRow column message => "Decode error on column '" ++ column ++ "': " ++ message

/-- A cause with the templates that were being built, the outermost first. -/
structure Error where
  path : List String
  cause : Cause
deriving DecidableEq, Repr

namespace Error

/-- An error that did not arise in a template. -/
def ofCause (cause : Cause) : Error := ⟨[], cause⟩

/-- The error as it leaves the build of a template. -/
def within (raw : String) (e : Error) : Error :=
  { e with path := raw :: e.path }

def message (e : Error) : String :=
  String.join (e.path.map fun raw => "build '" ++ raw ++ "': ") ++ e.cause.message

/-- A row is missing, and not in the build of a template. -/
def isNotFound : Error → Bool
  | ⟨[], .notFound _⟩ => true
  | _ => false

@[simp] theorem within_path (raw : String) (e : Error) : (e.within raw).path = raw :: e.path := rfl

@[simp] theorem within_cause (raw : String) (e : Error) : (e.within raw).cause = e.cause := rfl

end Error

end SqlTemplate
