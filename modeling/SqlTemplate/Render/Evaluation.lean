import SqlTemplate.Render.Scope
import SqlTemplate.Template.Parser

/-! Evaluating a clause in a scope. A join evaluates the clause of its own template, which is
shorter than the template that the join stands in; so evaluation ends. The main statement is
`evaluate_eq`: the text of a clause is put together from the texts of its items.

The markers in the template of a join refer to lists of declarations, and the template is
repeated once for each declaration; so the markers have to be of one family and their lists of
one length. Columns and tables are one family. -/

namespace SqlTemplate.Render

open Template (Clause Item Expr parse)

inductive Family
  | argument
  | column
  | segment
deriving DecidableEq, Repr

/-- A marker that refers to declarations. -/
structure Repeat where
  name : String
  family : Family
  count : Nat
deriving DecidableEq, Repr

/-- The family of a marker and the number of its declarations, if it refers to any. -/
def Scope.repeat? (scope : Scope) (name : String) : Option Repeat :=
  match Function.builtins.lookup name with
  | some (.argument _) => some ⟨name, .argument, scope.args.length⟩
  | some .column => some ⟨name, .column, scope.columns.length⟩
  | some .table => some ⟨name, .column, scope.tables.length⟩
  | some .segment => some ⟨name, .segment, scope.segments.length⟩
  | _ => none

/-- What is wrong with a marker beside the first one. -/
def Repeat.fault? (template : String) (first other : Repeat) : Option JoinFault :=
  if first.family ≠ other.family then some (.different first.name other.name template)
  else if first.count ≠ other.count then
    some (.repeats first.name first.count other.name other.count template)
  else none

/-- How often a template with these markers is repeated. -/
def Scope.repeats (scope : Scope) (template : String) (markers : List String) :
    Except JoinFault Nat :=
  match markers.filterMap scope.repeat? with
  | [] => .error (.none template)
  | first :: others =>
    match others.findSome? (first.fault? template) with
    | some fault => .error fault
    | none => .ok first.count

/-- The iterations of a join, separated, without those that are blank. -/
def joinParts (separator : String) (parts : List Output) : Output :=
  .join separator (parts.filter fun part => !part.isBlank)

/-- Evaluate a clause: the texts of its items one after the other. -/
def evaluate (registry : Registry) (scope : Scope) (c : Clause) : ScopeM Output :=
  List.flatten <$> c.attach.mapM fun ⟨item, _hitem⟩ =>
    match _hexpr : item.expr with
    | .text s => pure (Output.ofString s)
    | .bind style index => scope.bind style index
    | .marker name => fail (.syntaxError item.pos (.bareMarker name))
    | .call name args =>
      match registry.find? name with
      | none => fail (.unknownFunction name)
      | some f =>
        scope.call args (fun template separator _hargs =>
          match _hparse : parse template with
          | .error cause => throw ((Error.ofCause cause).within template)
          | .ok inner =>
            match scope.repeats template inner.markers with
            | .error fault => fail (.unalignedJoin fault)
            | .ok count =>
              joinParts separator <$> (List.range count).mapM fun i =>
                within template
                  (evaluate registry scope (inner.instantiate (Nat.repr (i + 1))))) f
termination_by c.room
decreasing_by
  rw [Clause.room_instantiate]
  have h₁ := Template.room_le_of_parse _hparse
  have h₂ := Clause.room_le_of_mem _hitem
  simp only [_hexpr, _hargs, Expr.room] at h₂
  omega

/-- The text of a join: its template once for each declaration, with the markers standing for
the declarations of that index. -/
def join (registry : Registry) (scope : Scope) (template separator : String) : ScopeM Output :=
  match parse template with
  | .error cause => throw ((Error.ofCause cause).within template)
  | .ok inner =>
    match scope.repeats template inner.markers with
    | .error fault => fail (.unalignedJoin fault)
    | .ok count =>
      joinParts separator <$> (List.range count).mapM fun i =>
        within template (evaluate registry scope (inner.instantiate (Nat.repr (i + 1))))

/-- The text of an item. -/
def evaluateItem (registry : Registry) (scope : Scope) (item : Item) : ScopeM Output :=
  match item.expr with
  | .text s => pure (Output.ofString s)
  | .bind style index => scope.bind style index
  | .marker name => fail (.syntaxError item.pos (.bareMarker name))
  | .call name args =>
    match registry.find? name with
    | none => fail (.unknownFunction name)
    | some f =>
      scope.call args (fun template separator _ => join registry scope template separator) f

theorem evaluate_eq (registry : Registry) (scope : Scope) (c : Clause) :
    evaluate registry scope c = List.flatten <$> c.mapM (evaluateItem registry scope) := by
  rw [evaluate]
  congr 1
  conv => rhs; rw [← List.attach_map_subtype_val c, List.mapM_map]
  congr 1
  funext ⟨⟨pos, expr⟩, hitem⟩
  cases expr with
  | call name args =>
    dsimp only [Function.comp_apply, evaluateItem]
    cases registry.find? name with
    | none => rfl
    | some f =>
      show scope.call args _ f = scope.call args _ f
      congr 1
      funext template separator hargs
      unfold join
      cases parse template <;> rfl
  | _ => rfl

end SqlTemplate.Render
