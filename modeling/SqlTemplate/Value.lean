import SqlTemplate.Calendar
import SqlTemplate.Json
import SqlTemplate.Number.Digits
import SqlTemplate.Text.Basic

/-! The values that an argument can have, and their SQL literals. A literal is for people who
read a log; it is never executed. -/

namespace SqlTemplate

/-- A universally unique identifier. -/
structure Uuid where
  bits : BitVec 128
deriving DecidableEq, Repr

namespace Uuid

/-- Lower-case digits in groups of 8, 4, 4, 4 and 12. -/
def text (u : Uuid) : String :=
  let ds := Text.hexOfBytes (Text.bigEndian 16 u.bits.toNat)
  let group (start size : Nat) := (ds.drop start).take size
  String.ofList <| ['-'].intercalate
    [group 0 8, group 8 4, group 12 4, group 16 4, group 20 12]

/-- The identifier that 32 digits spell, whatever hyphens stand among them. -/
def ofText? (s : String) : Option Uuid := do
  let bytes ← Text.bytesOfHex? (s.toList.filter (· ≠ '-'))
  if bytes.length = 16 then some ⟨BitVec.ofNat _ (Text.ofBigEndian bytes)⟩ else none

end Uuid

/-- The value of an argument. -/
inductive Value
  | null
  | bool (b : Bool)
  | int (n : Int64)
  | float (x : Number.Double)
  | text (s : String)
  | bytes (bs : List UInt8)
  | date (d : Date)
  | timestamp (t : Timestamp)
  | timestampTz (t : Timestamp)
  | uuid (u : Uuid)
  | json (j : Json)

namespace Value

def isNull : Value → Bool
  | .null => true
  | _ => false

/-- A text value, or null. -/
def ofText? : Option String → Value
  | some s => .text s
  | none => .null

/-- An integer value, or null. -/
def ofInt? : Option Int64 → Value
  | some n => .int n
  | none => .null

/-- The value of a moment given in seconds since 1970-01-01 00:00 UTC. -/
def ofUnixSeconds (n : Int) : Value :=
  .timestampTz (.ofUnixSeconds n)

/-- The SQL literal of a value. -/
def literal : Value → String
  | .null => "NULL"
  | .bool true => "TRUE"
  | .bool false => "FALSE"
  | .int n => Number.ofInt n.toInt
  | .float x => x.display
  | .text s => Text.literal s
  | .bytes bs => "'\\x" ++ String.ofList (Text.hexOfBytes bs) ++ "'"
  | .date d => Text.literal d.text
  | .timestamp t => Text.literal t.text
  | .timestampTz t => Text.literal (t.text ++ "+00:00")
  | .uuid u => Text.literal u.text
  | .json j => Text.literal j.print

end Value

end SqlTemplate
