import SqlTemplate.Registry

/-! Recipes: custom functions written as data. A recipe is a list of parts whose texts are put
one after the other. -/

namespace SqlTemplate

namespace Recipe

/-- The index of a declaration: a number, or an argument of the call. -/
inductive Index
  | fixed (n : Nat)
  | given (k : Nat)
deriving DecidableEq, Repr

/-- The index that a call means; an argument that is missing or no index means the first. -/
def Index.value (args : List String) : Index → Nat
  | .fixed n => n
  | .given k => (args[k]?.bind Number.index?).getD 1

inductive Part
  | literal (s : String)
  | resolve (kind : DeclKind) (index : Index)
  /-- An argument of the call, or nothing if it is missing. -/
  | callArgument (k : Nat)
  | argumentCount
  | template
  | style
  | fail (message : String)
deriving DecidableEq, Repr

end Recipe

abbrev Recipe := List Recipe.Part

namespace Recipe

/-- Follow a recipe after the output `done`. -/
def run (args : List String) : Recipe → Output → Action
  | [], done => .done done
  | .literal s :: rest, done => run args rest (done ++ .ofString s)
  | .resolve kind index :: rest, done =>
    .need kind (index.value args) fun out => run args rest (done ++ out)
  | .callArgument k :: rest, done =>
    run args rest (done ++ .ofString (args[k]?.getD ""))
  | .argumentCount :: rest, done =>
    run args rest (done ++ .ofString (Nat.repr args.length))
  | .template :: rest, done => .template fun raw => run args rest (done ++ .ofString raw)
  | .style :: rest, done =>
    .style fun style => run args rest (done ++ .ofString (Style.name style))
  | .fail message :: _, _ => .fail (.ofCause (.notExecutable (.other message)))

/-- A recipe does not go on after an error. -/
theorem propagates_run (args : List String) (recipe : Recipe) (done : Output) :
    (recipe.run args done).Propagates := by
  induction recipe generalizing done with
  | nil => exact .done done
  | cons part rest ih =>
      cases part with
      | resolve kind index => exact .need fun out => ih (done ++ out)
      | template => exact .template fun raw => ih _
      | style => exact .style fun style => ih _
      | fail message => exact .fail _
      | _ => exact ih _

/-- The custom function that a recipe describes. -/
def toFunction (recipe : Recipe) : CustomFunction := fun args => recipe.run args []

end Recipe

/-- The standard registry with functions registered in order, up to the first name that is
rejected. -/
def Registry.ofRecipes (recipes : List (String × Recipe)) : Except Error Registry :=
  recipes.foldlM (fun registry (name, recipe) => registry.register name recipe.toFunction) standard

end SqlTemplate
