import SqlTemplate.Session

/-! Template functions. The built-in functions refer to declarations; a custom function is a
request tree, which asks for declarations one after the other and is given the text of each, or
the error. It cannot see how they are found. A registry always has the built-in functions. -/

namespace SqlTemplate

/-- What a custom function does next. -/
inductive Action
  | done (out : Output)
  | fail (e : Error)
  /-- Ask for the text of a declaration; indices count from one. The function goes on with the
  text, or with the error if there is none. -/
  | resolve (kind : DeclKind) (index : Nat) (next : Except Error Output → Action)
  /-- Ask for the style of the session. -/
  | style (next : Option Style → Action)
  /-- Ask for the template that is being built. -/
  | template (next : String → Action)

/-- Ask for the text of a declaration, and fail if there is none. -/
def Action.need (kind : DeclKind) (index : Nat) (next : Output → Action) : Action :=
  .resolve kind index fun
    | .ok out => next out
    | .error e => .fail e

/-- The action fails with every error that it is given. -/
inductive Action.Propagates : Action → Prop
  | done (out : Output) : Propagates (.done out)
  | fail (e : Error) : Propagates (.fail e)
  | resolve {kind : DeclKind} {index : Nat} {next : Except Error Output → Action}
    (hok : ∀ out, Propagates (next (.ok out))) (herror : ∀ e, next (.error e) = .fail e) :
    Propagates (.resolve kind index next)
  | style {next : Option Style → Action} (h : ∀ style, Propagates (next style)) :
    Propagates (.style next)
  | template {next : String → Action} (h : ∀ raw, Propagates (next raw)) :
    Propagates (.template next)

theorem Action.Propagates.need {kind : DeclKind} {index : Nat} {next : Output → Action}
    (h : ∀ out, (next out).Propagates) : (Action.need kind index next).Propagates :=
  .resolve h fun _ => rfl

/-- A custom function of the arguments of its call. -/
abbrev CustomFunction := List String → Action

inductive Function
  | argument (style : Style)
  | column
  | table
  | segment
  | join
  | custom (f : CustomFunction)

namespace Function

/-- The built-in functions by name. -/
def builtins : List (String × Function) :=
  [("$", .argument .indexed), ("?", .argument .positional),
    ("c", .column), ("col", .column), ("column", .column),
    ("t", .table), ("table", .table),
    ("s", .segment), ("seg", .segment), ("segment", .segment),
    ("join", .join)]

theorem mem_of_lookup {name : String} {f : Function} (h : builtins.lookup name = some f) :
    (name, f) ∈ builtins := by
  obtain ⟨before, after, hsplit, _⟩ := List.lookup_eq_some_iff.mp h
  simp [hsplit]

theorem not_custom_of_lookup {name : String} {f : CustomFunction} :
    builtins.lookup name ≠ some (.custom f) := by
  intro h
  simpa [builtins] using mem_of_lookup h

def isBuiltin (name : String) : Bool := (builtins.map Prod.fst).contains name

/-- The names that a custom function can have. A digit would be read as an index. -/
def isCustomName (name : String) : Bool :=
  name ≠ "" && name.toList.all (fun c => c.isAlpha || c == '_') && !isBuiltin name

end Function

/-- The functions that templates can call, by name. -/
structure Registry where
  entries : List (String × Function)

namespace Registry

/-- The registry of the built-in functions. -/
def standard : Registry := ⟨Function.builtins⟩

def find? (r : Registry) (name : String) : Option Function := r.entries.lookup name

def contains (r : Registry) (name : String) : Bool := (r.find? name).isSome

/-- Put a function in the place of one of that name, or at the end. -/
def insert (name : String) (f : Function) :
    List (String × Function) → List (String × Function)
  | [] => [(name, f)]
  | (n, g) :: rest => if n = name then (name, f) :: rest else (n, g) :: insert name f rest

/-- The registry with a custom function of that name. -/
def register (r : Registry) (name : String) (f : CustomFunction) : Except Error Registry :=
  if Function.isCustomName name then .ok ⟨insert name (.custom f) r.entries⟩
  else .error (.ofCause (.invalidFunctionName name))

section Lookup

variable {entries : List (String × Function)} {name other : String} {f : Function}

theorem lookup_insert_self : (insert name f entries).lookup name = some f := by
  induction entries with
  | nil => simp [insert]
  | cons entry rest ih =>
      obtain ⟨n, g⟩ := entry
      unfold insert
      split
      · simp
      · rename_i hn
        have hbeq : (name == n) = false := by simpa using Ne.symm hn
        rw [List.lookup_cons, hbeq]
        exact ih

theorem lookup_insert_ne (h : other ≠ name) :
    (insert name f entries).lookup other = entries.lookup other := by
  have hbeq : (other == name) = false := by simpa using h
  induction entries with
  | nil => rw [insert, List.lookup_cons, hbeq]
  | cons entry rest ih =>
      obtain ⟨n, g⟩ := entry
      unfold insert
      split
      · rename_i hn
        subst hn
        simp [List.lookup_cons, hbeq]
      · rw [List.lookup_cons, List.lookup_cons, ih]

end Lookup

/-- The registry comes from the standard one by registering functions of which every action
satisfies `q`. -/
inductive All (q : Action → Prop) : Registry → Prop
  | standard : All q standard
  | register {r r' : Registry} {name : String} {f : CustomFunction} (h : All q r)
    (hf : ∀ args, q (f args)) (hregister : r.register name f = .ok r') : All q r'

theorem All.action {q : Action → Prop} {r : Registry} (h : r.All q) {name : String}
    {f : CustomFunction} (hf : r.find? name = some (.custom f)) (args : List String) :
    q (f args) := by
  induction h with
  | standard => exact absurd hf Function.not_custom_of_lookup
  | @register r r' other g _ hg hregister ih =>
      unfold Registry.register at hregister
      split at hregister
      · cases hregister
        by_cases hname : name = other
        · subst hname
          cases lookup_insert_self.symm.trans hf
          exact hg args
        · exact ih ((lookup_insert_ne hname).symm.trans hf)
      · cases hregister

/-- The names of the functions in order. -/
def names (r : Registry) : List String :=
  (r.entries.map Prod.fst).mergeSort fun a b => a ≤ b

/-- The registry in diagnostics. -/
def describe (r : Registry) : String :=
  "FuncMap \x7b funcs: " ++ Text.escapeAll r.names ++ " \x7d"

end Registry

end SqlTemplate
