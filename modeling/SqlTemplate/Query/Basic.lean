import SqlTemplate.Registry
import SqlTemplate.Segment
import SqlTemplate.Settings

/-! Queries under construction. A query holds each clause as a segment, so every part keeps its
own arguments until the query is built. Mistakes in its parts are collected, not raised. -/

namespace SqlTemplate.Query

/-- A table in the FROM clause: the text that declares it is a segment. -/
structure FromEntry where
  table : Table
  segment : Segment
  /-- A join that may be left out when nothing refers to its table. -/
  optional : Bool

def FromEntry.name (e : FromEntry) : String := e.table.appliedName

/-- A named query in front of the others. -/
structure Cte (B : Type) where
  name : String
  body : B

/-- A SELECT query whose nested queries are of type `B`. -/
structure QueryOf (B : Type) where
  settings : Settings := {}
  registry : Option Registry := none
  ctes : List (Cte B) := []
  anchor : Option FromEntry := none
  joins : List FromEntry := []
  selects : Segment := { raw := "#join('#column', ', ')" }
  /-- The ordered columns, which DISTINCT requires to be selected. -/
  touches : Segment := { raw := "#join('#segment', ', ')" }
  conditions : Segment := { raw := "#join('#segment', ' AND ')", lead := "WHERE" }
  orders : Segment := { raw := "#join('#segment', ', ')", lead := "ORDER BY" }
  groupBys : Segment := { raw := "#join('#segment', ', ')", lead := "GROUP BY" }
  distinct : Bool := false
  /-- At most so many rows; zero is no limit. -/
  limit : Nat := 0
  offset : Nat := 0
  unions : List B := []
  faults : List QueryFault := []

/-- What can be nested in a query. -/
inductive Builder
  | segment (s : Segment)
  | query (q : QueryOf Builder)

namespace QueryOf

variable {B : Type}

/-- A query without parts. -/
def ofSettings (settings : Settings) : QueryOf B := { settings }

/-- The tables in the order of the FROM clause. -/
def froms (q : QueryOf B) : List FromEntry := q.anchor.toList ++ q.joins

/-- The table that the query refers to by that name. -/
def from? (q : QueryOf B) (name : String) : Option FromEntry :=
  q.froms.find? fun e => e.name == name

def withFault (q : QueryOf B) (fault : QueryFault) : QueryOf B :=
  { q with faults := q.faults ++ [fault] }

/-- Set the table that the FROM clause begins with, in place of the previous one. -/
def setAnchor (q : QueryOf B) (table : Table) : QueryOf B :=
  if table.name = "" then q.withFault .anchorUnnamed
  else if q.joins.any fun e => e.name == table.appliedName then
    q.withFault (.alreadyJoined table)
  else
    { q with anchor := some ⟨table, { raw := table.declaration }, false⟩ }

/-- The text of a join. A condition without a template is dropped with its declarations. -/
def joinSegment (kind : JoinKind) (table : Table) (on : Option Segment) : Segment :=
  let head := kind.keyword ++ " " ++ table.declaration
  match on with
  | none => { raw := head }
  | some on =>
    if on.raw = "" then { raw := head }
    else { on with raw := head ++ " ON " ++ on.raw, lead := "", trail := "" }

/-- Join a table. -/
def join (q : QueryOf B) (kind : JoinKind) (table : Table) (on : Option Segment)
    (optional : Bool) : QueryOf B :=
  if table.name = "" then q.withFault (.joinUnnamed kind)
  else if (q.from? table.appliedName).isSome then q.withFault (.alreadyJoined table)
  else { q with joins := q.joins ++ [⟨table, joinSegment kind table on, optional⟩] }

/-- Declare a named query. -/
def addCte (q : QueryOf B) (name : String) (body : B) : QueryOf B :=
  if name = "" then q.withFault .withUnnamed
  else if q.ctes.any fun cte => cte.name == name then q.withFault (.alreadyDeclared name)
  else { q with ctes := q.ctes ++ [⟨name, body⟩] }

def select (q : QueryOf B) (columns : List Column) : QueryOf B :=
  { q with selects := q.selects.withColumns columns }

/-- Require a condition. -/
def addCondition (q : QueryOf B) (condition : Segment) : QueryOf B :=
  { q with conditions := q.conditions.withSegment condition }

/-- Require that a column compares to a value. -/
def compare (q : QueryOf B) (column : Column) (op : String) (v : Value) : QueryOf B :=
  q.addCondition { raw := "#c1" ++ op ++ "$1", columns := [column], args := [v] }

/-- Require that a column is null, or is not. -/
def testNull (q : QueryOf B) (column : Column) (negated : Bool) : QueryOf B :=
  q.addCondition
    { raw := if negated then "#c1 IS NOT NULL" else "#c1 IS NULL", columns := [column] }

/-- Require that a column is one of the values, or is none of them. Nothing is one of no
values. -/
def testMember (q : QueryOf B) (column : Column) (values : List Value) (negated : Bool) :
    QueryOf B :=
  if values.isEmpty then q.addCondition { raw := if negated then "TRUE" else "FALSE" }
  else
    let op := if negated then "NOT IN" else "IN"
    q.addCondition
      { raw := "#c1 " ++ op ++ " (#join('#$', ', '))", columns := [column], args := values }

def addGroupBy (q : QueryOf B) (column : Column) : QueryOf B :=
  { q with groupBys := q.groupBys.withSegment { raw := "#c1", columns := [column] } }

/-- Order by a column, which is also selected under a name of its own. -/
def addOrderBy (q : QueryOf B) (column : Column) (order : String) : QueryOf B :=
  let label := "_order_" ++ Nat.repr (q.orders.segments.length + 1)
  { q with
    touches := q.touches.withSegment { raw := "#c1 AS " ++ label, columns := [column] }
    orders := q.orders.withSegment { raw := label ++ " " ++ order } }

/-- Append another query. -/
def addUnion (q : QueryOf B) (body : B) : QueryOf B :=
  { q with unions := q.unions ++ [body] }

def setStyle (q : QueryOf B) (style : Option Style) : QueryOf B :=
  { q with settings := { q.settings with style } }

def setDebug (q : QueryOf B) : QueryOf B :=
  { q with settings := { q.settings with debug := true } }

/-- A segment that selects the given columns in place of the declared ones. -/
def projection (q : QueryOf B) (columns : List Column) : Segment :=
  { raw := q.selects.raw, columns }

end QueryOf

/-- A call that adds to a query. -/
inductive Step (B : Type)
  | select (columns : List Column)
  | anchor (table : Table)
  | join (kind : JoinKind) (table : Table) (on : Option Segment) (optional : Bool)
  | condition (s : Segment)
  | compare (column : Column) (op : String) (v : Value)
  | testNull (column : Column) (negated : Bool)
  | testMember (column : Column) (values : List Value) (negated : Bool)
  | groupBy (column : Column)
  | orderBy (column : Column) (order : String)
  | limit (n : Nat)
  | offset (n : Nat)
  | cte (name : String) (body : B)
  | union (body : B)
  | distinct
  | debug
  | style (style : Option Style)
  | registry (registry : Registry)

/-- The query after a call. -/
def QueryOf.apply {B : Type} (q : QueryOf B) : Step B → QueryOf B
  | .select columns => q.select columns
  | .anchor table => q.setAnchor table
  | .join kind table on optional => q.join kind table on optional
  | .condition s => q.addCondition s
  | .compare column op v => q.compare column op v
  | .testNull column negated => q.testNull column negated
  | .testMember column values negated => q.testMember column values negated
  | .groupBy column => q.addGroupBy column
  | .orderBy column order => q.addOrderBy column order
  | .limit n => { q with limit := n }
  | .offset n => { q with offset := n }
  | .cte name body => q.addCte name body
  | .union body => q.addUnion body
  | .distinct => { q with distinct := true }
  | .debug => q.setDebug
  | .style style => q.setStyle style
  | .registry registry => { q with registry := some registry }

/-- The query after a chain of calls. -/
def QueryOf.applyAll {B : Type} (q : QueryOf B) (steps : List (Step B)) : QueryOf B :=
  steps.foldl QueryOf.apply q

end SqlTemplate.Query

namespace SqlTemplate

/-- A SELECT query. -/
abbrev Query := Query.QueryOf Query.Builder

end SqlTemplate
