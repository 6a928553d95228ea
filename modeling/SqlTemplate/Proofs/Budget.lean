import Mathlib.Data.List.MinMax
import SqlTemplate.Proofs.Paths

/-!
# Rendering within a budget

Rendering enters templates: those of segments, of the columns and segments that they
declare, and of joins, which stand in the text of the template that is entered and are
evaluated in the same node. Here every template that is entered takes one unit of a
budget, and without budget rendering fails. An argument of a call is shorter than its
template, so a node takes no more than its template is long, and the whole tree no more
than `Segment.budget`: with so much, rendering is never short of it
(`Segment.render_within_budget`).
-/

namespace SqlTemplate

open Render
open Template (Clause Item parse)

/-! ## One step -/

namespace Render

variable (registry : Registry) (scope : Scope)

/-- The text of a join, given how clauses evaluate. -/
def joinBy (recur : Clause → ScopeM Output) (template separator : String) : ScopeM Output :=
  match parse template with
  | .error cause => throw ((Error.ofCause cause).within template)
  | .ok inner =>
    match scope.repeats template inner.markers with
    | .error fault => fail (.unalignedJoin fault)
    | .ok count =>
      joinParts separator <$> (List.range count).mapM fun i =>
        within template (recur (inner.instantiate (Nat.repr (i + 1))))

/-- The text of an item, given how the clauses of joins evaluate. -/
def itemBy (recur : Clause → ScopeM Output) (item : Item) : ScopeM Output :=
  match item.expr with
  | .text s => pure (Output.ofString s)
  | .bind style index => scope.bind style index
  | .marker name => fail (.syntaxError item.pos (.bareMarker name))
  | .call name args =>
    match registry.find? name with
    | none => fail (.unknownFunction name)
    | some f =>
      scope.call args (fun template separator _ => joinBy scope recur template separator) f

/-- The text of a clause, given how the clauses of its joins evaluate. -/
def evaluateBy (recur : Clause → ScopeM Output) (c : Clause) : ScopeM Output :=
  List.flatten <$> c.mapM (itemBy registry scope recur)

/-- Evaluation is the step that goes on with itself. -/
theorem evaluateBy_evaluate (c : Clause) :
    evaluateBy registry scope (evaluate registry scope) c = evaluate registry scope c := by
  rw [evaluate_eq]
  rfl

variable {registry scope}

/-- A step goes on with clauses of less room only. -/
theorem evaluateBy_congr {recur recur' : Clause → ScopeM Output} {c : Clause}
    (h : ∀ inner : Clause, inner.room < c.room → recur inner = recur' inner) :
    evaluateBy registry scope recur c = evaluateBy registry scope recur' c := by
  unfold evaluateBy
  congr 1
  refine mapM_congr fun item hitem => ?_
  obtain ⟨pos, expr⟩ := item
  cases expr with
  | call name args =>
      simp only [itemBy]
      cases registry.find? name with
      | none => rfl
      | some f =>
          dsimp only
          congr 1
          funext template separator hargs
          subst hargs
          unfold joinBy
          cases hparse : parse template with
          | error cause => rfl
          | ok inner =>
              have hroom := room_lt_of_parse hitem rfl hparse
              have hrecur : ∀ i : Nat, recur (inner.instantiate (Nat.repr (i + 1))) =
                  recur' (inner.instantiate (Nat.repr (i + 1))) :=
                fun i => h _ (by rwa [Clause.room_instantiate])
              simp only [hrecur]
  | _ => rfl

end Render

namespace Node

/-- The scope of a node, given how nodes render. -/
def scopeBy (recur : Node → RenderM Output) : Node → Scope
  | .segment s =>
    { raw := s.raw, args := s.args, tables := s.tables
      columns := s.columns.map fun c => ⟨!c.args.isEmpty, recur (.column c)⟩
      segments := s.segments.map fun child => ⟨!child.args.isEmpty, recur (.segment child)⟩ }
  | .column c => c.scope

/-- Render a node, given its scope and how its clause evaluates. -/
def renderBy (scope : Scope) (recur : Clause → ScopeM Output) (node : Node) : RenderM Output :=
  node.finish <$> within node.raw do
    let c ← liftCause (parse node.raw)
    let (out, memo) ← (recur c).runFresh
    liftCause (scope.checkUse memo.used)
    return out

variable (registry : Registry)

theorem scopeBy_render (node : Node) : node.scopeBy (render registry) = node.scope registry := by
  cases node <;> rfl

/-- Rendering is the step that evaluates the template. -/
theorem renderBy_evaluate (node : Node) :
    node.renderBy (node.scope registry) (evaluate registry (node.scope registry)) =
      node.render registry := by
  cases node with
  | segment s => exact (s.render_eq registry).symm
  | column c => rfl

theorem renderBy_congr {scope : Scope} {recur recur' : Clause → ScopeM Output} {node : Node}
    (h : ∀ c, parse node.raw = .ok c → recur c = recur' c) :
    node.renderBy scope recur = node.renderBy scope recur' := by
  unfold renderBy
  congr 2
  cases hparse : parse node.raw with
  | error cause => rfl
  | ok c =>
      show (pure c >>= _ : RenderM Output) = (pure c >>= _)
      rw [pure_bind, pure_bind, h c hparse]

end Node

/-! ## The budget -/

section Budget

variable (registry : Registry) (spent : Error)

mutual

/-- Render a node. What is left of the budget is that of everything in its template; without
any there is the error `spent`. -/
def Node.renderWithin : Nat → Node → RenderM Output
  | 0, _ => throw spent
  | budget + 1, node =>
    node.renderBy (node.scopeBy (Node.renderWithin budget)) (Node.evaluateWithin budget node)

/-- Evaluate a clause in a node: its own, or one of a join. -/
def Node.evaluateWithin : Nat → Node → Clause → ScopeM Output
  | 0, _, _ => throw spent
  | budget + 1, node, c =>
    evaluateBy registry (node.scopeBy (Node.renderWithin budget))
      (Node.evaluateWithin budget node) c

end

end Budget

namespace Segment

mutual

/-- The number of segments on the longest way down the tree. -/
def depth : Segment → Nat
  | ⟨_, _, _, _, segments, _, _⟩ => depthOf segments + 1

def depthOf : List Segment → Nat
  | [] => 0
  | s :: rest => max s.depth (depthOf rest)

end

/-- The length of the longest template in the tree. -/
def longest (s : Segment) : Nat := (s.templates.map String.length).foldr max 0

/-- Enough for each segment on the way down, and for a column of the last one: a unit for the
node, one for its clause, and one for each join within the other. -/
def budget (s : Segment) : Nat := (s.depth + 1) * (s.longest + 2)

theorem depth_lt {s child : Segment} (h : child ∈ s.segments) : child.depth < s.depth := by
  have hle : ∀ segments : List Segment, child ∈ segments → child.depth ≤ depthOf segments := by
    intro segments hchild
    induction segments with
    | nil => cases hchild
    | cons s rest ih =>
        rw [depthOf]
        rcases List.mem_cons.mp hchild with rfl | hchild
        · exact Nat.le_max_left ..
        · exact (ih hchild).trans (Nat.le_max_right ..)
  cases s
  exact Nat.lt_succ_of_le (hle _ h)

theorem length_le_longest {s : Segment} {raw : String} (h : raw ∈ s.templates) :
    raw.length ≤ s.longest :=
  List.le_max_of_le' 0 (List.mem_map_of_mem h) le_rfl

end Segment

/-! ## Enough of it -/

section Enough

variable {registry : Registry} {spent : Error} {node : Node} {least budget : Nat}

/-- A clause takes a unit for each join within the other, beside what children take. -/
theorem Node.evaluateWithin_eq
    (hchildren : ∀ budget, least ≤ budget →
      node.scopeBy (Node.renderWithin registry spent budget) = node.scope registry)
    {c : Clause} (h : least + c.room + 1 ≤ budget) :
    node.evaluateWithin registry spent budget c = evaluate registry (node.scope registry) c := by
  induction budget generalizing c with
  | zero => omega
  | succ budget ih =>
      rw [evaluateWithin, hchildren budget (by omega), ← evaluateBy_evaluate]
      refine evaluateBy_congr fun inner hroom => ?_
      exact ih (by omega)

/-- A node takes no more than its template is long, beside what its children take. -/
theorem Node.renderWithin_eq (least : Nat)
    (hchildren : ∀ budget, least ≤ budget →
      node.scopeBy (Node.renderWithin registry spent budget) = node.scope registry)
    (h : least + (node.raw.length + 2) ≤ budget) :
    node.renderWithin registry spent budget = node.render registry := by
  obtain ⟨budget, rfl⟩ := Nat.exists_eq_add_of_le' (show 1 ≤ budget by omega)
  rw [renderWithin, hchildren budget (by omega), ← renderBy_evaluate]
  refine renderBy_congr fun c hparse => ?_
  have hroom := Template.room_le_of_parse hparse
  exact evaluateWithin_eq hchildren (by omega)

theorem Column.renderWithin_eq {c : Column} (h : c.raw.length + 2 ≤ budget) :
    (Node.column c).renderWithin registry spent budget = c.render registry :=
  Node.renderWithin_eq 0 (fun _ _ => rfl) (by simpa [Node.raw] using h)

/-- A way down the tree takes a node for each of its segments, and one for a column. -/
theorem Segment.renderWithin_eq {longest : Nat} {s : Segment}
    (hlongest : ∀ raw ∈ s.templates, raw.length ≤ longest)
    (h : (s.depth + 1) * (longest + 2) ≤ budget) :
    (Node.segment s).renderWithin registry spent budget = s.render registry := by
  induction s using Segment.induction generalizing budget with
  | step s ih =>
      refine Node.renderWithin_eq (s.depth * (longest + 2)) ?_ ?_
      · intro budget hbudget
        rw [← Node.scopeBy_render]
        simp only [Node.scopeBy, Scope.mk.injEq, true_and, and_true]
        constructor
        · refine List.map_congr_left fun c hc => ?_
          have hlength := hlongest c.raw (column_mem_templates hc)
          have hdepth : 1 * (longest + 2) ≤ s.depth * (longest + 2) :=
            Nat.mul_le_mul_right _ (by cases s; simp [depth])
          rw [Column.renderWithin_eq (by omega)]
          rfl
        · refine List.map_congr_left fun child hchild => ?_
          have hdepth : (child.depth + 1) * (longest + 2) ≤ s.depth * (longest + 2) :=
            Nat.mul_le_mul_right _ (depth_lt hchild)
          rw [ih child hchild (fun raw hraw => hlongest raw (templates_subset hchild hraw))
            (hdepth.trans hbudget)]
          rfl
      · have hlength := hlongest s.raw s.raw_mem_templates
        rw [Nat.add_mul] at h
        simp only [Node.raw]
        omega

end Enough

/-- **Evaluation ends on every tree.** An argument of a call is shorter than the template that the
call stands in; and with the budget of a tree, which its depth and the lengths of its templates
give, or with more, rendering does the same as without a budget, whatever error there would be
if the budget were spent. -/
theorem Segment.render_within_budget (registry : Registry) (s : Segment) :
    (∀ raw c, parse raw = .ok c → ∀ item ∈ c, ∀ name args, item.expr = .call name args →
      ∀ arg ∈ args, arg.length < raw.length) ∧
    ∀ spent budget, s.budget ≤ budget →
      (Node.segment s).renderWithin registry spent budget = s.render registry := by
  constructor
  · intro raw c hparse item hitem name args hexpr arg harg
    exact Template.length_arg_lt hparse hitem hexpr harg
  · intro spent budget hbudget
    exact renderWithin_eq (fun raw hraw => length_le_longest hraw) hbudget

/-- A join in a join in the column of a child, which is referred to in a join. -/
def Segment.budgetSample : Segment where
  raw := "#join('(#s)', ' AND ')"
  segments := [{ raw := "TRUE" },
    { raw := "#c1 > 0"
      columns := [⟨⟨"t", ""⟩, "#join('#$ #join(''#$'', '','')', ';')", [.int 7, .int 8]⟩] }]

theorem Segment.render_within_budget_sample :
    parse "#join('(#s)', ' AND ')" =
      .ok [⟨⟨0, 1, 1⟩, .call "join" ["(#s)", " AND "]⟩] ∧
    "(#s)".length < "#join('(#s)', ' AND ')".length ∧
    budgetSample.budget = 117 ∧ ∀ spent session,
      (Node.segment budgetSample).renderWithin .standard spent 117 session =
        budgetSample.render .standard session := by
  have hparse : parse "#join('(#s)', ' AND ')" =
      .ok [⟨⟨0, 1, 1⟩, .call "join" ["(#s)", " AND "]⟩] := by decide +kernel
  have hbudget : budgetSample.budget = 117 := by decide +kernel
  obtain ⟨hlength, hrender⟩ := render_within_budget .standard budgetSample
  refine ⟨hparse, ?_, hbudget, ?_⟩
  · exact hlength _ _ hparse _ (List.mem_cons_self ..) _ _ rfl _ (List.mem_cons_self ..)
  · intro spent session
    rw [hrender spent 117 hbudget.le]

/-- Less can be too little: nine units are taken here, and with eight the clause of the inner
join is not evaluated. -/
example : (match (Node.segment Segment.budgetSample).renderWithin .standard
      ⟨[], .badRow "" ""⟩ 8 {} with
    | .ok .. => []
    | .error e _ => e.path) =
    ["#join('(#s)', ' AND ')", "(#s)", "#c1 > 0", "#join('#$ #join(''#$'', '','')', ';')",
      "#$ #join('#$', ',')", "#$"] := by
  decide +kernel

end SqlTemplate
