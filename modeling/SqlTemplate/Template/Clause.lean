import SqlTemplate.Template.Token

/-! Parsed templates. A clause is the list of the expressions of a template, each with the
place where it begins. -/

namespace SqlTemplate.Template

inductive Expr
  /-- Text that is copied to the output. -/
  | text (s : String)
  /-- A placeholder for the argument of that index, which counts from one. -/
  | bind (style : Style) (index : Nat)
  /-- A call of a function. -/
  | call (name : String) (args : List String)
  /-- The name of a function alone, which stands for a call in each iteration of a join. -/
  | marker (name : String)
deriving DecidableEq, Repr

/-- The room that the template of a join needs: a call of two arguments holds a template in
the first. -/
def Expr.room : Expr → Nat
  | .call _ [template, _] => template.length + 1
  | _ => 0

structure Item where
  pos : Position
  expr : Expr
deriving DecidableEq, Repr

abbrev Clause := List Item

namespace Clause

/-- The expressions without their places. -/
def exprs (c : Clause) : List Expr := c.map (·.expr)

/-- The names of the markers. -/
def markers (c : Clause) : List String :=
  c.filterMap fun item => match item.expr with
    | .marker name => some name
    | _ => none

/-- Every marker becomes a call with the given argument. -/
def instantiate (arg : String) (c : Clause) : Clause :=
  c.map fun item => match item.expr with
    | .marker name => { item with expr := .call name [arg] }
    | _ => item

/-- A bound on the length of the templates of the joins in a clause. -/
def room (c : Clause) : Nat :=
  (c.map fun item => item.expr.room).foldr max 0

theorem room_le_of_mem {c : Clause} {item : Item} (h : item ∈ c) :
    item.expr.room ≤ c.room := by
  induction c with
  | nil => simp at h
  | cons i c ih =>
    simp only [room, List.map_cons, List.foldr_cons] at ih ⊢
    rcases List.mem_cons.mp h with rfl | h
    · omega
    · have := ih h
      omega

theorem room_le_of_forall {c : Clause} {n : Nat} (h : ∀ item ∈ c, item.expr.room ≤ n) :
    c.room ≤ n := by
  induction c with
  | nil => simp [room]
  | cons i c ih =>
    have h₁ := h i (by simp)
    have h₂ := ih fun item hi => h item (by simp [hi])
    simp only [room, List.map_cons, List.foldr_cons] at h₂ ⊢
    omega

/-- A marker has one argument when it becomes a call, so it needs no room. -/
theorem room_instantiate (arg : String) (c : Clause) : (c.instantiate arg).room = c.room := by
  induction c with
  | nil => rfl
  | cons i c ih =>
    simp only [room, instantiate, List.map_cons, List.foldr_cons] at ih ⊢
    rw [ih]
    congr 1
    rcases i with ⟨pos, _ | _ | _ | _⟩ <;> rfl

end Clause

end SqlTemplate.Template
