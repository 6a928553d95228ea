import SqlTemplate.Session
import SqlTemplate.Template.Parser

/-! Built queries: SQL text with the arguments for its placeholders; and interpolation, which
writes the arguments into the text, for people who read a log. -/

namespace SqlTemplate

/-- A built query. Its style is open when it has no placeholders. -/
structure Built where
  sql : String
  args : List Value
  style : Option Style

namespace Built

/-- The query rendered as `sql` into a session. -/
def ofSession (sql : String) (s : Session) : Built :=
  ⟨sql, s.args, s.style⟩

def isEmpty (b : Built) : Bool := b.sql = ""

/-- Only indexed placeholders can be sent to a database. -/
def checkExecutable (b : Built) : Except Error Unit :=
  if b.style = some .positional then .error (.ofCause (.notExecutable (.positional b.sql)))
  else .ok ()

end Built

open Template (Item parse)

/-- The text that stands for an item. -/
def interpolateItem (args : List Value) (item : Item) : Except Cause String :=
  match item.expr with
  | .text s => .ok s
  | .bind _ index =>
    match if index = 0 then none else args[index - 1]? with
    | some v => .ok v.literal
    | none => .error (.interpolation (.noArgument item.pos index args.length))
  | .call .. | .marker _ => .error (.interpolation (.function item.pos))

/-- Write the literal of its argument in the place of every placeholder of a query. -/
def interpolate (query : String) (args : List Value) : Except Error String :=
  match parse query with
  | .error cause => .error (.ofCause cause)
  | .ok c =>
    match c.mapM (interpolateItem args) with
    | .error cause => .error (.ofCause cause)
    | .ok texts => .ok (String.join texts)

def Built.interpolate (b : Built) : Except Error String :=
  SqlTemplate.interpolate b.sql b.args

end SqlTemplate
