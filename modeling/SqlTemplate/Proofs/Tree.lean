import SqlTemplate.Proofs.Unrolled

/-!
# Segments as trees

What every induction over segments needs: the scope that a segment's template is
rendered in, the segment's rendering as an equation over it, and the induction
principle itself. Then the templates of a tree, and the fact that a registry
with more functions renders a tree that calls only built-in ones like the
standard registry does.
-/

namespace SqlTemplate

open Render
open Template (Clause Item Expr parse)

namespace Segment

/-- **Induction over the tree**: what holds of a segment when it holds of its children holds
of every segment. -/
@[elab_as_elim]
theorem induction {P : Segment → Prop} (step : ∀ s, (∀ child ∈ s.segments, P child) → P s)
    (s : Segment) : P s := by
  refine step s ?_
  intro child hchild
  exact induction step child
termination_by sizeOf s
decreasing_by
  have hlt := List.sizeOf_lt_of_mem hchild
  cases s
  simp only [mk.sizeOf_spec] at hlt ⊢
  omega

def child (registry : Registry) (s : Segment) : Child :=
  ⟨!s.args.isEmpty, s.render registry⟩

theorem children_eq_map (registry : Registry) (segments : List Segment) :
    children registry segments = segments.map (child registry) := by
  induction segments with
  | nil => rfl
  | cons s rest ih => rw [children, ih, List.map_cons, child]

/-- The scope that the template of a segment is built in. -/
def scope (registry : Registry) (s : Segment) : Scope :=
  { raw := s.raw, args := s.args, columns := s.columns.map (Column.child registry),
    tables := s.tables, segments := s.segments.map (child registry) }

theorem render_eq (registry : Registry) (s : Segment) :
    s.render registry = wrap s.lead s.trail <$> (s.scope registry).render registry := by
  obtain ⟨raw, args, columns, tables, segments, lead, trail⟩ := s
  rw [render, children_eq_map]
  rfl

/-! ## Templates -/

mutual

/-- The templates of a segment, of its columns and of its descendants. -/
def templates : Segment → List String
  | ⟨raw, _, columns, _, segments, _, _⟩ =>
    raw :: columns.map Column.raw ++ templatesOf segments

def templatesOf : List Segment → List String
  | [] => []
  | s :: rest => s.templates ++ templatesOf rest

end

theorem raw_mem_templates (s : Segment) : s.raw ∈ s.templates := by
  cases s
  simp [templates]

theorem column_mem_templates {s : Segment} {c : Column} (h : c ∈ s.columns) :
    c.raw ∈ s.templates := by
  cases s
  simp only [templates, List.mem_append, List.mem_cons]
  exact .inl (.inr (List.mem_map_of_mem h))

theorem templates_subset_templatesOf {child : Segment} {segments : List Segment}
    (h : child ∈ segments) : child.templates ⊆ templatesOf segments := by
  intro raw hraw
  induction segments with
  | nil => cases h
  | cons s rest ih =>
      rw [templatesOf, List.mem_append]
      rcases List.mem_cons.mp h with rfl | h
      · exact .inl hraw
      · exact .inr (ih h)

theorem templates_subset {s child : Segment} (h : child ∈ s.segments) :
    child.templates ⊆ s.templates := by
  obtain ⟨raw, args, columns, tables, segments, lead, trail⟩ := s
  intro raw' hraw
  rw [templates, List.mem_append]
  exact .inr (templates_subset_templatesOf h hraw)

/-! ## Everything below a segment -/

mutual

/-- The segment and its descendants, each before those below it. -/
def subtree : Segment → List Segment
  | ⟨raw, args, columns, tables, segments, lead, trail⟩ =>
    ⟨raw, args, columns, tables, segments, lead, trail⟩ :: subtreeOf segments

def subtreeOf : List Segment → List Segment
  | [] => []
  | s :: rest => s.subtree ++ subtreeOf rest

end

theorem subtreeOf_eq_flatMap (segments : List Segment) :
    subtreeOf segments = segments.flatMap subtree := by
  induction segments with
  | nil => rfl
  | cons s rest ih => rw [subtreeOf, ih, List.flatMap_cons]

theorem subtree_eq (s : Segment) : s.subtree = s :: s.segments.flatMap subtree := by
  cases s
  rw [subtree, subtreeOf_eq_flatMap]

theorem allColumnsOf_eq_flatMap (segments : List Segment) :
    allColumnsOf segments = segments.flatMap allColumns := by
  induction segments with
  | nil => rfl
  | cons s rest ih => rw [allColumnsOf, ih, List.flatMap_cons]

theorem allColumns_eq_flatMap_subtree (s : Segment) :
    s.allColumns = s.subtree.flatMap columns := by
  induction s using Segment.induction with
  | step s ih =>
      have hbelow : s.segments.flatMap allColumns =
          (s.segments.flatMap subtree).flatMap columns := by
        rw [List.flatMap_assoc, List.flatMap_def, List.flatMap_def, List.map_congr_left ih]
      rw [subtree_eq, List.flatMap_cons, ← hbelow, ← allColumnsOf_eq_flatMap]
      cases s
      rfl

end Segment

/-! ## Trees that call built-in functions only -/

/-- The clause names a function: in a call, as a marker, or in the template of a join. -/
inductive Template.Clause.Names : Clause → String → Prop
  | call {c : Clause} {item : Item} {name : String} {args : List String}
      (hitem : item ∈ c) (hexpr : item.expr = .call name args) : Names c name
  | marker {c : Clause} {item : Item} {name : String}
      (hitem : item ∈ c) (hexpr : item.expr = .marker name) : Names c name
  | join {c inner : Clause} {item : Item} {template separator name : String}
      (hitem : item ∈ c) (hexpr : item.expr = .call "join" [template, separator])
      (hparse : parse template = .ok inner) (h : Names inner name) : Names c name

/-- Every function that the templates of the tree name is a built-in one. -/
def Segment.UsesBuiltins (s : Segment) : Prop :=
  ∀ raw ∈ s.templates, ∀ c, parse raw = .ok c → ∀ name, c.Names name → Function.isBuiltin name

/-- Whether a template names built-in functions only, where joins nest less than `depth`
deep. -/
def Template.Clause.checkBuiltins : Nat → Clause → Bool
  | 0, _ => false
  | depth + 1, c => c.all fun item =>
    match item.expr with
    | .call name args => Function.isBuiltin name &&
      match args with
      | [template, _] =>
        match parse template with
        | .ok inner => checkBuiltins depth inner
        | .error _ => true
      | _ => true
    | .marker name => Function.isBuiltin name
    | _ => true

theorem Template.Clause.Names.isBuiltin {c : Clause} {name : String} (h : c.Names name) :
    ∀ {depth : Nat}, c.checkBuiltins depth → Function.isBuiltin name := by
  induction h with
  | @call c item name args hitem hexpr =>
      intro depth hcheck
      cases depth with
      | zero => cases hcheck
      | succ depth =>
          have h := List.all_eq_true.mp hcheck item hitem
          simp only [hexpr, Bool.and_eq_true] at h
          exact h.1
  | @marker c item name hitem hexpr =>
      intro depth hcheck
      cases depth with
      | zero => cases hcheck
      | succ depth =>
          have h := List.all_eq_true.mp hcheck item hitem
          simpa only [hexpr] using h
  | @join c inner item template separator name hitem hexpr hparse _ ih =>
      intro depth hcheck
      cases depth with
      | zero => cases hcheck
      | succ depth =>
          have h := List.all_eq_true.mp hcheck item hitem
          simp only [hexpr, hparse, Bool.and_eq_true] at h
          exact ih h.2

theorem Segment.usesBuiltins_of_check (depth : Nat) {s : Segment}
    (h : s.templates.all fun raw => ((parse raw).toOption.map
      (Template.Clause.checkBuiltins depth)).getD true) : s.UsesBuiltins := by
  intro raw hraw c hparse name hname
  have hcheck := List.all_eq_true.mp h raw hraw
  rw [hparse] at hcheck
  exact hname.isBuiltin hcheck

/-- The built-in names stand for the built-in functions. -/
def Registry.HasBuiltins (registry : Registry) : Prop :=
  ∀ name, Function.isBuiltin name → registry.find? name = Function.builtins.lookup name

theorem Registry.hasBuiltins_standard : Registry.standard.HasBuiltins := by
  intro name _
  rfl

/-- Registering a function leaves the built-in ones in place. -/
theorem Registry.HasBuiltins.register {registry registry' : Registry} {name : String}
    {f : CustomFunction} (hr : registry.HasBuiltins)
    (h : registry.register name f = .ok registry') : registry'.HasBuiltins := by
  intro other hother
  unfold Registry.register at h
  split at h
  · rename_i hname
    cases h
    have hne : other ≠ name := by
      rintro rfl
      simp [Function.isCustomName, hother] at hname
    rw [← hr other hother]
    exact Registry.lookup_insert_ne hne
  · cases h

theorem Registry.All.hasBuiltins {q : Action → Prop} {registry : Registry} (h : registry.All q) :
    registry.HasBuiltins := by
  induction h with
  | standard => exact hasBuiltins_standard
  | register _ _ hregister ih => exact ih.register hregister

namespace Template.Clause

/-- In an iteration a marker becomes a call of the same name, and no join. -/
theorem Names.of_instantiate {c : Clause} {arg name : String}
    (h : (c.instantiate arg).Names name) : c.Names name := by
  have hitems : ∀ item ∈ c.instantiate arg, ∃ item₀ ∈ c, item.expr = item₀.expr ∨
      ∃ marker, item₀.expr = .marker marker ∧ item.expr = .call marker [arg] := by
    intro item hitem
    obtain ⟨item₀, hitem₀, rfl⟩ := List.mem_map.mp hitem
    refine ⟨item₀, hitem₀, ?_⟩
    obtain ⟨pos, expr⟩ := item₀
    cases expr with
    | marker name => exact .inr ⟨name, rfl, rfl⟩
    | _ => exact .inl rfl
  cases h with
  | call hitem hexpr =>
      obtain ⟨item₀, hitem₀, heq | ⟨marker, hm, hc⟩⟩ := hitems _ hitem
      · exact .call hitem₀ (heq ▸ hexpr)
      · rw [hc] at hexpr
        cases hexpr
        exact .marker hitem₀ hm
  | marker hitem hexpr =>
      obtain ⟨item₀, hitem₀, heq | ⟨marker, hm, hc⟩⟩ := hitems _ hitem
      · exact .marker hitem₀ (heq ▸ hexpr)
      · rw [hc] at hexpr
        cases hexpr
  | join hitem hexpr hparse h =>
      obtain ⟨item₀, hitem₀, heq | ⟨marker, hm, hc⟩⟩ := hitems _ hitem
      · exact .join hitem₀ (heq ▸ hexpr) hparse h
      · rw [hc] at hexpr
        cases hexpr

end Template.Clause

theorem Function.eq_join_of_lookup {name : String}
    (h : Function.builtins.lookup name = some .join) : name = "join" := by
  simpa [Function.builtins] using Function.mem_of_lookup h

namespace Render

theorem callPart_congr {args : List String} {p q : Part} {f : Function}
    (h : f = .join → p = q) : Scope.callPart args p f = Scope.callPart args q f := by
  cases f with
  | join => exact h rfl
  | _ => rfl

theorem unroll_eq_standard {registry : Registry} (hr : registry.HasBuiltins) (scope : Scope)
    (c : Clause) (hc : ∀ name, c.Names name → Function.isBuiltin name) :
    unroll registry scope c = unroll .standard scope c := by
  induction h : c.room using Nat.strongRecOn generalizing c with
  | _ room ih =>
      subst h
      rw [unroll_eq, unroll_eq]
      refine List.map_congr_left ?_
      intro item hitem
      obtain ⟨pos, expr⟩ := item
      cases expr with
      | call name args =>
          have hname : Function.isBuiltin name := hc name (.call hitem rfl)
          simp only [itemPart, hr name hname, Registry.hasBuiltins_standard name hname]
          cases hf : Function.builtins.lookup name with
          | none => rfl
          | some f =>
              refine callPart_congr ?_
              rintro rfl
              have hjoin : name = "join" := Function.eq_join_of_lookup hf
              subst hjoin
              unfold joinPart
              match args with
              | [template, separator] =>
                  dsimp only
                  cases hparse : parse template with
                  | error cause => rfl
                  | ok inner =>
                      dsimp only
                      cases scope.repeats template inner.markers with
                      | error fault => rfl
                      | ok count =>
                          have hroom := room_lt_of_parse hitem rfl hparse
                          dsimp only
                          congr 1
                          refine List.map_congr_left ?_
                          intro i _
                          refine ih _ (by rwa [Clause.room_instantiate]) _ ?_ rfl
                          -- What an iteration names, the template of the join names.
                          intro other hother
                          exact hc other (.join hitem rfl hparse hother.of_instantiate)
              | [] => rfl
              | [_] => rfl
              | _ :: _ :: _ :: _ => rfl
      | _ => rfl

theorem Scope.render_eq_standard {registry : Registry} (hr : registry.HasBuiltins) (scope : Scope)
    (h : ∀ c, parse scope.raw = .ok c → ∀ name, c.Names name → Function.isBuiltin name) :
    scope.render registry = scope.render .standard := by
  unfold Scope.render
  congr 1
  cases hparse : parse scope.raw with
  | error cause => rfl
  | ok c =>
      have heval : evaluate registry scope c = evaluate .standard scope c := by
        rw [evaluate_eq_runAll, evaluate_eq_runAll, unroll_eq_standard hr scope c (h c hparse)]
      show (pure c >>= _ : RenderM Output) = (pure c >>= _)
      rw [pure_bind, pure_bind, heval]

end Render

/-- **A registry of more functions renders the same** what calls only the built-in ones. -/
theorem Segment.render_eq_standard {registry : Registry} (hr : registry.HasBuiltins)
    {s : Segment} (h : s.UsesBuiltins) : s.render registry = s.render .standard := by
  induction s using Segment.induction with
  | step s ih =>
      have hcolumns : s.columns.map (Column.child registry) =
          s.columns.map (Column.child .standard) := by
        refine List.map_congr_left ?_
        intro c hc
        unfold Column.child Column.render
        rw [Scope.render_eq_standard hr c.scope (h c.raw (column_mem_templates hc))]
      have hsegments : s.segments.map (Segment.child registry) =
          s.segments.map (Segment.child .standard) := by
        refine List.map_congr_left ?_
        intro child hchild
        unfold Segment.child
        rw [ih child hchild fun raw hraw => h raw (templates_subset hchild hraw)]
      have hscope : s.scope registry = s.scope .standard := by
        unfold Segment.scope
        rw [hcolumns, hsegments]
      rw [render_eq, render_eq, hscope,
        Scope.render_eq_standard hr (s.scope .standard) (h s.raw (raw_mem_templates s))]

end SqlTemplate
