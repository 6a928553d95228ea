import SqlTemplate.Value

/-! Tables with the columns they own, the kinds of joins, and segments: SQL templates with the
arguments, columns, tables and further segments that the template refers to. A segment holds no
state of a build. -/

namespace SqlTemplate

/-- A table and the alias it has in a query; an empty alias is none. -/
structure Table where
  name : String
  aliasName : String := ""
deriving DecidableEq, Repr

/-- A column or an expression of a table: a template whose only table is the owner. -/
structure Column where
  table : Table
  raw : String
  args : List Value := []

namespace Table

def withAlias (t : Table) (aliasName : String) : Table :=
  { t with aliasName }

/-- The name that a query refers to the table by: the alias, or the name if there is none. -/
def appliedName (t : Table) : String :=
  if t.aliasName = "" then t.name else t.aliasName

/-- The table as it is declared in a query. -/
def declaration (t : Table) : String :=
  if t.aliasName = "" then t.name else t.name ++ " AS " ++ t.aliasName

/-- The name and the alias as two tables without alias. -/
def names (t : Table) : List Table :=
  [⟨t.name, ""⟩, ⟨t.aliasName, ""⟩]

/-- An expression of the table; `#t1` in it is the applied name. -/
def expression (t : Table) (raw : String) (args : List Value) : Column :=
  ⟨t, raw, args⟩

/-- The column of that name. -/
def column (t : Table) (name : String) : Column :=
  t.expression ("#t1." ++ name) []

def columns (t : Table) (names : List String) : List Column :=
  names.map t.column

def expressions (t : Table) (raws : List String) : List Column :=
  raws.map fun raw => t.expression raw []

end Table

/-- A template with its declarations. `lead` and `trail` are put around a body that is not
blank. -/
structure Segment where
  raw : String
  args : List Value := []
  columns : List Column := []
  tables : List Table := []
  segments : List Segment := []
  lead : String := ""
  trail : String := ""

instance : Inhabited Segment := ⟨{ raw := "" }⟩

namespace Segment

/-- The segment with more columns at the end. -/
def withColumns (s : Segment) (columns : List Column) : Segment :=
  { s with columns := s.columns ++ columns }

/-- The segment with one more child at the end. -/
def withSegment (s child : Segment) : Segment :=
  { s with segments := s.segments ++ [child] }

mutual

/-- The columns of a segment and of its descendants. -/
def allColumns : Segment → List Column
  | ⟨_, _, columns, _, segments, _, _⟩ => columns ++ allColumnsOf segments

def allColumnsOf : List Segment → List Column
  | [] => []
  | s :: rest => s.allColumns ++ allColumnsOf rest

end

end Segment

end SqlTemplate

namespace SqlTemplate.Query

/-- How a table is joined to those before it. -/
inductive JoinKind
  | inner | left | right | full | cross
deriving DecidableEq, Repr

def JoinKind.keyword : JoinKind → String
  | .inner => "INNER JOIN"
  | .left => "LEFT JOIN"
  | .right => "RIGHT JOIN"
  | .full => "FULL JOIN"
  | .cross => "CROSS JOIN"

end SqlTemplate.Query
