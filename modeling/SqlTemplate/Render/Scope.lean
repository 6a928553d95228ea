import SqlTemplate.Registry

/-! Resolving the references of one template. A scope is a template with what it declares; a
child is known only by whether it has arguments of its own and by how it renders. While the
template is built, the memo remembers what was referred to and what it was rendered as. -/

namespace SqlTemplate.Render

/-- A column or a segment as the template that declares it sees it. -/
structure Child where
  hasArgs : Bool
  render : RenderM Output

/-- A template with its declarations. -/
structure Scope where
  raw : String
  args : List Value
  columns : List Child
  tables : List Table
  segments : List Child
  /-- The tables need not be referred to. -/
  tablesOptional : Bool := false

/-- A reference to a declaration; indices count from one. -/
structure Reference where
  kind : DeclKind
  index : Nat
deriving DecidableEq, Repr

/-- What the build of a template remembers, the latest first. -/
structure Memo where
  used : List Reference := []
  /-- The slots of the arguments that were given one. -/
  slots : List (Nat × Nat) := []
  /-- The texts of the columns and segments that were rendered. -/
  texts : List (Reference × Output) := []

structure Frame where
  session : Session
  memo : Memo := {}

/-- A computation in the build of a template. -/
abbrev ScopeM := EStateM Error Frame

namespace ScopeM

/-- Render into the session. -/
def ofRender {α : Type} (x : RenderM α) : ScopeM α := fun f =>
  match x f.session with
  | .ok a session => .ok a { f with session }
  | .error e session => .error e { f with session }

/-- Run with an empty memo, and give the memo at the end. -/
def runFresh {α : Type} (x : ScopeM α) : RenderM (α × Memo) := fun session =>
  match x { session } with
  | .ok a f => .ok (a, f.memo) f.session
  | .error e f => .error e f.session

def style : ScopeM (Option Style) := do
  return (← get).session.style

/-- The declaration of that index, which is used from now on. -/
def declared {α : Type} (kind : DeclKind) (declarations : List α) (index : Nat) : ScopeM α :=
  match if index = 0 then none else declarations[index - 1]? with
  | none => fail (.indexOutOfRange kind index declarations.length)
  | some a => do
    modify fun f => { f with memo := { f.memo with used := ⟨kind, index⟩ :: f.memo.used } }
    return a

/-- The slot of an argument, a new one if it has none. -/
def slot (index : Nat) (v : Value) : ScopeM Nat := do
  match (← get).memo.slots.lookup index with
  | some n => return n
  | none =>
    let n ← ofRender (RenderM.append v)
    modify fun f => { f with memo := { f.memo with slots := (index, n) :: f.memo.slots } }
    return n

/-- Render a child and remember its text. -/
def renderChild (reference : Reference) (child : Child) : ScopeM Output := do
  let out ← ofRender child.render
  modify fun f => { f with memo := { f.memo with texts := (reference, out) :: f.memo.texts } }
  return out

end ScopeM

namespace Scope

open ScopeM

/-- The placeholder for an argument. Indexed ones share the slot of the argument; each
positional one has a slot of its own. -/
def bind (scope : Scope) (marker : Style) (index : Nat) : ScopeM Output := do
  let style ← ofRender (RenderM.observe marker scope.raw)
  let v ← declared .arg scope.args index
  match style with
  | .indexed => return [.placeholder .indexed (← slot index v)]
  | .positional => return [.placeholder .positional (← ofRender (RenderM.append v))]

/-- The placeholder for an argument in the style of the session, indexed if it is open. -/
def argument (scope : Scope) (index : Nat) : ScopeM Output := do
  scope.bind ((← style).getD .indexed) index

/-- The text of a child: the one remembered, except that a child with arguments of its own is
rendered anew each time when placeholders are positional. -/
def child (kind : DeclKind) (children : List Child) (index : Nat) : ScopeM Output := do
  let child ← declared kind children index
  let f ← get
  if f.session.style = some .positional ∧ child.hasArgs then renderChild ⟨kind, index⟩ child
  else
    match f.memo.texts.lookup ⟨kind, index⟩ with
    | some out => return out
    | none => renderChild ⟨kind, index⟩ child

/-- The applied name of a table. -/
def table (scope : Scope) (index : Nat) : ScopeM Output := do
  let t ← declared .table scope.tables index
  return .ofString t.appliedName

/-- The text of a declaration. -/
def resolve (scope : Scope) (index : Nat) : DeclKind → ScopeM Output
  | .arg => scope.argument index
  | .column => child .column scope.columns index
  | .table => scope.table index
  | .segment => child .segment scope.segments index

/-- Follow a custom function. What a reference did before it failed is not undone. -/
def follow (scope : Scope) : Action → ScopeM Output
  | .done out => pure out
  | .fail e => throw e
  | .resolve kind index next => do
    let outcome ← observing (scope.resolve index kind)
    scope.follow (next outcome)
  | .style next => do
    let style ← ScopeM.style
    scope.follow (next style)
  | .template next => scope.follow (next scope.raw)

/-- The index in a call of a built-in function, its only argument. -/
def indexArgument (signature : Signature) (args : List String) : ScopeM Nat :=
  match args with
  | [arg] =>
    match Number.index? arg with
    | some index => pure index
    | none => fail (.badArguments signature args)
  | _ => fail (.badArguments signature args)

/-- The text of a call; `join` gives that of a join of a template with a separator. -/
def call (scope : Scope) (args : List String)
    (join : (template separator : String) → args = [template, separator] → ScopeM Output) :
    Function → ScopeM Output
  | .argument marker => do scope.bind marker (← indexArgument .argument args)
  | .column => do scope.resolve (← indexArgument .column args) .column
  | .table => do scope.resolve (← indexArgument .table args) .table
  | .segment => do scope.resolve (← indexArgument .segment args) .segment
  | .join =>
    match args, join with
    | [template, separator], join => join template separator rfl
    | args, _ => fail (.badArguments .join args)
  | .custom f => scope.follow (f args)

/-- All references of a kind to a number of declarations. -/
def references (kind : DeclKind) (count : Nat) : List Reference :=
  (List.range count).map fun i => ⟨kind, i + 1⟩

/-- The declarations that the template has to refer to, in the order of the check. -/
def required (scope : Scope) : List Reference :=
  references .arg scope.args.length ++ references .column scope.columns.length ++
    (if scope.tablesOptional then [] else references .table scope.tables.length) ++
    references .segment scope.segments.length

/-- Every declaration must have been referred to. -/
def checkUse (scope : Scope) (used : List Reference) : Except Cause Unit :=
  match scope.required.find? (· ∉ used) with
  | some r => .error (.unusedDeclaration r.kind r.index)
  | none => .ok ()

end Scope

end SqlTemplate.Render
