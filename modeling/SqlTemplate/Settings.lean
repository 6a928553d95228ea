import SqlTemplate.Json
import SqlTemplate.Template.Token

/-! Settings of a query, and their JSON form. -/

namespace SqlTemplate

structure Settings where
  /-- The style of the placeholders; without one, the first placeholder decides. -/
  style : Option Style := none
  /-- Log every built query. -/
  debug : Bool := false
  /-- The bytes of a text that are logged; without a number, all. -/
  maxLogged : Option Nat := some 200
deriving DecidableEq, Repr

namespace Settings

/-- A style is its name, or an object whose only field is the name, with a null value. -/
def styleOfJson? : Json → Option (Option Style)
  | .text name => Style.ofName? name
  | .object [(name, .null)] => Style.ofName? name
  | _ => none

def debugOfJson? : Json → Option Bool
  | .bool b => some b
  | _ => none

def maxLoggedOfJson? : Json → Option (Option Nat)
  | .null => some none
  | .int n => if 0 ≤ n then some (some n.toNat) else none
  | _ => none

/-- Read a value, which has a default when it is missing. -/
def readOr {α : Type} (default : α) (read : Json → Option α) : Option Json → Option α
  | none => some default
  | some j => read j

/-- Read the three values in the order of the fields. -/
def read (style debug maxLogged : Option Json) : Option Settings := do
  let defaults : Settings := {}
  let style ← readOr defaults.style styleOfJson? style
  let debug ← readOr defaults.debug debugOfJson? debug
  let maxLogged ← readOr defaults.maxLogged maxLoggedOfJson? maxLogged
  some { style, debug, maxLogged }

/-- Settings are an object, or a list of the values in the order of the fields; what is missing
has its default. -/
def ofJson? : Json → Option Settings
  | .list items =>
    if items.length ≤ 3 then read items[0]? items[1]? items[2]? else none
  | .object fields =>
    read (fields.lookup "bind_var_style") (fields.lookup "debug") (fields.lookup "max_sql_length")
  | _ => none

def toJson (s : Settings) : Json :=
  .ofFields [("bind_var_style", .text (Style.name s.style)), ("debug", .bool s.debug),
    ("max_sql_length", match s.maxLogged with
      | none => .null
      | some n => .int n)]

end Settings

end SqlTemplate
