import SqlTemplate.Built
import SqlTemplate.Settings
import SqlTemplate.Text.Basic

/-! What is logged of built queries. A long text is cut, but the message of an interpolation
that fails is shown whole. -/

namespace SqlTemplate

inductive Level
  | error | warn | info | debug | trace
deriving DecidableEq, Repr

/-- A built query in the log: its text, the text with its arguments written into it, its style
and the number of its arguments. -/
structure QueryRecord where
  level : Level
  sql : String
  interpolated : String
  style : Option Style
  parameters : Nat
deriving DecidableEq, Repr

inductive Event
  | built (record : QueryRecord)
  /-- A build failed with that message. -/
  | failed (message : String)
deriving DecidableEq, Repr

/-- How built queries are logged. -/
structure Logger where
  level : Level := .debug
  maxLogged : Option Nat := some 200
deriving DecidableEq, Repr

namespace Logger

def ofSettings (s : Settings) : Logger := { maxLogged := s.maxLogged }

/-- The text as it is logged. -/
def shorten (l : Logger) (s : String) : String :=
  match l.maxLogged with
  | none => s
  | some budget => Text.shorten budget s

/-- The record of a built query. -/
def record (l : Logger) (b : Built) : QueryRecord where
  level := l.level
  sql := l.shorten b.sql
  interpolated := match b.interpolate with
    | .ok text => l.shorten text
    | .error e => "<" ++ e.message ++ ">"
  style := b.style
  parameters := b.args.length

end Logger

end SqlTemplate
