import SqlTemplate.Render.Evaluation
import SqlTemplate.Segment

/-! Rendering segments and columns. Both are templates in a scope of their own; a segment is
trimmed and put between its lead and its trail, a column is only trimmed. -/

namespace SqlTemplate

open Render

/-- Build the template of a scope. -/
def Render.Scope.render (registry : Registry) (scope : Scope) : RenderM Output :=
  within scope.raw do
    let c ← liftCause (Template.parse scope.raw)
    let (out, memo) ← (evaluate registry scope c).runFresh
    liftCause (scope.checkUse memo.used)
    return out

namespace Column

/-- A column sees its table and its arguments, and need not refer to the table. -/
def scope (c : Column) : Scope :=
  { raw := c.raw, args := c.args, columns := [], tables := [c.table], segments := [],
    tablesOptional := true }

def render (registry : Registry) (c : Column) : RenderM Output :=
  Output.trim <$> c.scope.render registry

def child (registry : Registry) (c : Column) : Child :=
  ⟨!c.args.isEmpty, c.render registry⟩

end Column

namespace Segment

/-- A body between lead and trail; nothing if the body is blank. -/
def wrap (lead trail : String) (body : Output) : Output :=
  match body.trim with
  | [] => []
  | body =>
    (if lead = "" then [] else Output.ofString lead ++ [.char ' ']) ++ body ++
      (if trail = "" then [] else .char ' ' :: Output.ofString trail)

mutual

def render (registry : Registry) : Segment → RenderM Output
  | ⟨raw, args, columns, tables, segments, lead, trail⟩ =>
    let scope : Scope :=
      { raw, args, columns := columns.map (Column.child registry), tables,
        segments := children registry segments }
    wrap lead trail <$> scope.render registry

/-- The segments as the template that declares them sees them. -/
def children (registry : Registry) : List Segment → List Child
  | [] => []
  | s :: rest => ⟨!s.args.isEmpty, s.render registry⟩ :: children registry rest

end

end Segment

end SqlTemplate
