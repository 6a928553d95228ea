import SqlTemplate.Proofs.Outcomes

/-!
# Unrolled templates

A clause with its joins written out. What a template refers to depends only on
its text and on how many declarations there are, so a clause can be unrolled
into a finite tree of parts before anything is rendered: a join becomes the list
of its iterations. Running the tree is evaluating the clause
(`evaluate_eq_runAll`), and the proofs about rendering are inductions on the
tree. For properties that go through sequencing this induction is made once
(`Scope.Closed.evaluate`).
-/

namespace SqlTemplate.Render

open Template (Clause Item Expr parse)

inductive Part
  | text (s : String)
  | bind (marker : Style) (index : Nat)
  | refer (kind : DeclKind) (index : Nat)
  | fail (e : Error)
  /-- A call of a custom function. -/
  | follow (a : Action)
  | join (template separator : String) (iterations : List (List Part))

/-! ## Running -/

mutual

def Part.run (scope : Scope) : Part → ScopeM Output
  | .text s => pure (Output.ofString s)
  | .bind marker index => scope.bind marker index
  | .refer kind index => scope.resolve index kind
  | .fail e => throw e
  | .follow a => scope.follow a
  | .join template separator iterations =>
    joinParts separator <$> Part.runEach scope template iterations

def Part.runAll (scope : Scope) : List Part → ScopeM Output
  | [] => pure []
  | p :: rest => do
    let out ← p.run scope
    let others ← Part.runAll scope rest
    return out ++ others

/-- Run the iterations of a join of `template`. -/
def Part.runEach (scope : Scope) (template : String) : List (List Part) → ScopeM (List Output)
  | [] => pure []
  | iteration :: rest => do
    let out ← within template (Part.runAll scope iteration)
    let others ← Part.runEach scope template rest
    return out :: others

end

theorem Part.flatten_mapM_run (scope : Scope) (parts : List Part) :
    List.flatten <$> parts.mapM (Part.run scope) = Part.runAll scope parts := by
  induction parts with
  | nil => rfl
  | cons p rest ih =>
      simp only [List.mapM_cons, map_bind, map_pure, List.flatten_cons]
      rw [Part.runAll, ← ih]
      simp only [bind_map_left]

theorem Part.mapM_within_runAll (scope : Scope) (template : String)
    (iterations : List (List Part)) :
    iterations.mapM (fun parts => within template (Part.runAll scope parts)) =
      Part.runEach scope template iterations := by
  induction iterations with
  | nil => rfl
  | cons iteration rest ih => rw [List.mapM_cons, ih, Part.runEach]

/-! ## Unrolling -/

/-- The part for a built-in function that takes an index. -/
def indexPart (signature : Signature) (args : List String) (part : Nat → Part) : Part :=
  match args with
  | [arg] =>
    match Number.index? arg with
    | some index => part index
    | none => .fail (.ofCause (.badArguments signature args))
  | _ => .fail (.ofCause (.badArguments signature args))

/-- The part for a call; `join` is that for a join. -/
def Scope.callPart (args : List String) (join : Part) : Function → Part
  | .argument marker => indexPart .argument args (.bind marker)
  | .column => indexPart .column args (.refer .column)
  | .table => indexPart .table args (.refer .table)
  | .segment => indexPart .segment args (.refer .segment)
  | .join => join
  | .custom f => .follow (f args)

/-- The template of a join is shorter than the call it stands in. -/
theorem room_lt_of_parse {c inner : Clause} {item : Item} {name template separator : String}
    (hitem : item ∈ c) (hexpr : item.expr = .call name [template, separator])
    (hparse : parse template = .ok inner) : inner.room < c.room := by
  have h₁ := Template.room_le_of_parse hparse
  have h₂ := Clause.room_le_of_mem hitem
  simp only [hexpr, Expr.room] at h₂
  omega

/-- The parts of a clause. Of the scope only the numbers of declarations matter. -/
def unroll (registry : Registry) (scope : Scope) (c : Clause) : List Part :=
  c.attach.map fun ⟨item, _hitem⟩ =>
    match _hexpr : item.expr with
    | .text s => .text s
    | .bind style index => .bind style index
    | .marker name => .fail (.ofCause (.syntaxError item.pos (.bareMarker name)))
    | .call name args =>
      match registry.find? name with
      | none => .fail (.ofCause (.unknownFunction name))
      | some f =>
        Scope.callPart args (
          match args with
          | [template, separator] =>
            match _hparse : parse template with
            | .error cause => .fail ((Error.ofCause cause).within template)
            | .ok inner =>
              match scope.repeats template inner.markers with
              | .error fault => .fail (.ofCause (.unalignedJoin fault))
              | .ok count =>
                .join template separator <| (List.range count).map fun i =>
                  unroll registry scope (inner.instantiate (Nat.repr (i + 1)))
          | _ => .fail (.ofCause (.badArguments .join args))) f
termination_by c.room
decreasing_by
  rw [Clause.room_instantiate]
  exact room_lt_of_parse _hitem _hexpr _hparse

/-- The part for a join; the arguments are a template and a separator. -/
def joinPart (registry : Registry) (scope : Scope) (args : List String) : Part :=
  match args with
  | [template, separator] =>
    match parse template with
    | .error cause => .fail ((Error.ofCause cause).within template)
    | .ok inner =>
      match scope.repeats template inner.markers with
      | .error fault => .fail (.ofCause (.unalignedJoin fault))
      | .ok count =>
        .join template separator <| (List.range count).map fun i =>
          unroll registry scope (inner.instantiate (Nat.repr (i + 1)))
  | _ => .fail (.ofCause (.badArguments .join args))

/-- The part for an item. -/
def itemPart (registry : Registry) (scope : Scope) (item : Item) : Part :=
  match item.expr with
  | .text s => .text s
  | .bind style index => .bind style index
  | .marker name => .fail (.ofCause (.syntaxError item.pos (.bareMarker name)))
  | .call name args =>
    match registry.find? name with
    | none => .fail (.ofCause (.unknownFunction name))
    | some f => Scope.callPart args (joinPart registry scope args) f

theorem unroll_eq (registry : Registry) (scope : Scope) (c : Clause) :
    unroll registry scope c = c.map (itemPart registry scope) := by
  -- The list of items with proofs only serves termination.
  rw [unroll]
  conv => rhs; rw [← List.attach_map_subtype_val c, List.map_map]
  congr 1
  funext ⟨⟨pos, expr⟩, hitem⟩
  cases expr with
  | call name args =>
      dsimp only [Function.comp_apply, itemPart]
      cases registry.find? name with
      | none => rfl
      | some f =>
          show Scope.callPart args _ f = Scope.callPart args _ f
          congr 1
          unfold joinPart
          match args with
          | [template, separator] =>
              dsimp only
              cases parse template <;> rfl
          | [] => rfl
          | [_] => rfl
          | _ :: _ :: _ :: _ => rfl
  | _ => rfl

/-! ## Evaluating is running -/

theorem run_indexPart (scope : Scope) (signature : Signature) (args : List String)
    (part : Nat → Part) :
    (indexPart signature args part).run scope =
      Scope.indexArgument signature args >>= fun index => (part index).run scope := by
  unfold indexPart Scope.indexArgument
  match args with
  | [] => rfl
  | [arg] =>
      dsimp only
      cases Number.index? arg <;> rfl
  | _ :: _ :: _ => rfl

theorem run_callPart (registry : Registry) (scope : Scope) (args : List String)
    {join : (template separator : String) → args = [template, separator] → ScopeM Output}
    (hjoin : ∀ template separator hargs,
      (joinPart registry scope args).run scope = join template separator hargs)
    (f : Function) :
    (Scope.callPart args (joinPart registry scope args) f).run scope = scope.call args join f := by
  cases f with
  | argument marker => exact run_indexPart ..
  | column => exact run_indexPart ..
  | table => exact run_indexPart ..
  | segment => exact run_indexPart ..
  | join =>
      match args with
      | [template, separator] => exact hjoin template separator rfl
      | [] => rfl
      | [_] => rfl
      | _ :: _ :: _ :: _ => rfl
  | custom f => rfl

theorem mapM_congr {ε σ α β : Type} {f g : α → EStateM ε σ β} {xs : List α}
    (h : ∀ x ∈ xs, f x = g x) : xs.mapM f = xs.mapM g := by
  induction xs with
  | nil => rfl
  | cons x xs ih =>
      rw [List.mapM_cons, List.mapM_cons, h x (by simp), ih fun y hy => h y (by simp [hy])]

/-- **Evaluating is running.** Induction on the room of the clause: the template of a join
is shorter than the call it stands in. -/
theorem evaluate_eq_runAll (registry : Registry) (scope : Scope) (c : Clause) :
    evaluate registry scope c = Part.runAll scope (unroll registry scope c) := by
  induction h : c.room using Nat.strongRecOn generalizing c with
  | _ room ih =>
      subst h
      rw [evaluate_eq, unroll_eq, ← Part.flatten_mapM_run, List.mapM_map]
      congr 1
      refine mapM_congr ?_
      intro item hitem
      obtain ⟨pos, expr⟩ := item
      cases expr with
      | call name args =>
          simp only [evaluateItem, itemPart, Function.comp_apply]
          cases registry.find? name with
          | none => rfl
          | some f =>
              refine (run_callPart registry scope args ?_ f).symm
              intro template separator hargs
              subst hargs
              unfold join joinPart
              dsimp only
              cases hparse : parse template with
              | error cause => rfl
              | ok inner =>
                  dsimp only
                  cases scope.repeats template inner.markers with
                  | error fault => rfl
                  | ok count =>
                      have hroom := room_lt_of_parse hitem rfl hparse
                      -- The iterations correspond one by one.
                      dsimp only [Part.run]
                      rw [← Part.mapM_within_runAll, List.mapM_map]
                      congr 1
                      refine mapM_congr ?_
                      intro i _
                      rw [Function.comp_apply, ih _ (by rwa [Clause.room_instantiate]) _ rfl]
      | _ => rfl

/-! ## What templates are made of -/

/-- **Induction over the parts of a clause.** The styles of placeholders are mixed in no part but
for the template of a join that cannot be parsed. -/
theorem unroll_induction {registry : Registry} {scope : Scope} {P : Part → Prop}
    (text : ∀ s, P (.text s))
    (bind : ∀ marker index, P (.bind marker index))
    (refer : ∀ kind index, kind ≠ .arg → P (.refer kind index))
    (fail : ∀ cause, (∀ first second, cause ≠ .mixedStyles first second) →
      P (.fail (.ofCause cause)))
    (follow : ∀ name f, registry.find? name = some (.custom f) → ∀ args, P (.follow (f args)))
    (parseError : ∀ template cause, parse template = .error cause →
      P (.fail ((Error.ofCause cause).within template)))
    (join : ∀ template separator iterations, (∀ parts ∈ iterations, ∀ p ∈ parts, P p) →
      P (.join template separator iterations))
    (c : Clause) : ∀ p ∈ unroll registry scope c, P p := by
  have hindex : ∀ signature args (part : Nat → Part), (∀ index, P (part index)) →
      P (indexPart signature args part) := by
    intro signature args part hpart
    unfold indexPart
    split
    · split
      · exact hpart _
      · exact fail _ nofun
    · exact fail _ nofun
  induction h : c.room using Nat.strongRecOn generalizing c with
  | _ room ih =>
      subst h
      rw [unroll_eq]
      intro p hp
      obtain ⟨⟨pos, expr⟩, hitem, rfl⟩ := List.mem_map.mp hp
      cases expr with
      | text s => exact text s
      | bind marker index => exact bind marker index
      | marker name => exact fail _ nofun
      | call name args =>
          simp only [itemPart]
          cases hf : registry.find? name with
          | none => exact fail _ nofun
          | some f =>
              cases f with
              | join =>
                  show P (joinPart registry scope args)
                  unfold joinPart
                  match args with
                  | [template, separator] =>
                      dsimp only
                      cases hparse : parse template with
                      | error cause => exact parseError template cause hparse
                      | ok inner =>
                          dsimp only
                          cases scope.repeats template inner.markers with
                          | error fault => exact fail _ nofun
                          | ok count =>
                              have hroom := room_lt_of_parse hitem rfl hparse
                              refine join template separator _ ?_
                              intro parts hparts
                              obtain ⟨i, _, rfl⟩ := List.mem_map.mp hparts
                              exact ih _ (by rwa [Clause.room_instantiate]) _ rfl
                  | [] => exact fail _ nofun
                  | [_] => exact fail _ nofun
                  | _ :: _ :: _ :: _ => exact fail _ nofun
              | custom f => exact follow name f hf args
              | argument marker => exact hindex _ _ _ (bind marker)
              | column => exact hindex _ _ _ fun index => refer .column index nofun
              | table => exact hindex _ _ _ fun index => refer .table index nofun
              | segment => exact hindex _ _ _ fun index => refer .segment index nofun

/-- A property of computations that goes through sequencing, and that every reference to a
declaration of the scope has. -/
structure Scope.Closed (scope : Scope) (P : (α : Type) → ScopeM α → Prop) : Prop where
  pure : ∀ {α : Type} (a : α), P α (pure a)
  throw : ∀ {α : Type} (e : Error), P α (throw e)
  map : ∀ {α β : Type} (g : α → β) {x : ScopeM α}, P α x → P β (g <$> x)
  bind : ∀ {α β : Type} {x : ScopeM α} {f : α → ScopeM β}, P α x → (∀ a, P β (f a)) →
    P β (x >>= f)
  within : ∀ {α : Type} {raw : String} {x : ScopeM α}, P α x → P α (within raw x)
  style : P (Option Style) ScopeM.style
  placeholder : ∀ marker index, P Output (scope.bind marker index)
  resolve : ∀ kind index, P Output (scope.resolve index kind)

/-- A function that passes errors on is only followed after a success. -/
theorem Scope.follow_resolve (scope : Scope) {kind : DeclKind} {index : Nat}
    {next : Except Error Output → Action} (h : ∀ e, next (.error e) = .fail e) :
    scope.follow (.resolve kind index next) =
      scope.resolve index kind >>= fun out => scope.follow (next (.ok out)) := by
  funext f
  rw [Scope.follow]
  cases hrun : scope.resolve index kind f with
  | ok out f' => rw [bind_of_ok (observing_of_ok hrun), bind_of_ok hrun]
  | error e f' =>
      rw [bind_of_ok (observing_of_error hrun), bind_of_error hrun, h]
      rfl

namespace Scope.Closed

variable {scope : Scope} {P : (α : Type) → ScopeM α → Prop}

/-- A custom function does nothing but refer to declarations. If it goes on after errors, the
property must be one of references that may fail. -/
theorem follow (h : scope.Closed P)
    (hobserving : ∀ kind index, P (Except Error Output) (observing (scope.resolve index kind)))
    (a : Action) : P Output (scope.follow a) := by
  induction a with
  | done out => exact h.pure out
  | fail e => exact h.throw e
  | resolve kind index next ih => exact h.bind (hobserving kind index) ih
  | style next ih => exact h.bind h.style ih
  | template next ih => exact ih scope.raw

theorem follow_of_propagates (h : scope.Closed P) {a : Action} (ha : a.Propagates) :
    P Output (scope.follow a) := by
  induction ha with
  | done out => exact h.pure out
  | fail e => exact h.throw e
  | resolve _ herror ih =>
      rw [scope.follow_resolve herror]
      exact h.bind (h.resolve _ _) ih
  | style _ ih => exact h.bind h.style ih
  | template _ ih => exact ih scope.raw

theorem runAll (h : scope.Closed P) {parts : List Part}
    (hparts : ∀ p ∈ parts, P Output (p.run scope)) : P Output (Part.runAll scope parts) := by
  induction parts with
  | nil => exact h.pure _
  | cons p rest ih =>
      rw [List.forall_mem_cons] at hparts
      exact h.bind hparts.1 fun _ => h.bind (ih hparts.2) fun _ => h.pure _

theorem runEach (h : scope.Closed P) (template : String) {iterations : List (List Part)}
    (hparts : ∀ parts ∈ iterations, ∀ p ∈ parts, P Output (p.run scope)) :
    P (List Output) (Part.runEach scope template iterations) := by
  induction iterations with
  | nil => exact h.pure _
  | cons parts rest ih =>
      rw [List.forall_mem_cons] at hparts
      exact h.bind (h.within (h.runAll hparts.1)) fun _ => h.bind (ih hparts.2) fun _ => h.pure _

/-- What every custom function has, every part has. -/
theorem run (h : scope.Closed P) (hfollow : ∀ a, P Output (scope.follow a)) :
    ∀ p : Part, P Output (p.run scope)
  | .text _ => h.pure _
  | .bind marker index => h.placeholder marker index
  | .refer kind index => h.resolve kind index
  | .fail e => h.throw e
  | .follow a => hfollow a
  | .join template _ iterations =>
    h.map _ (h.runEach template fun parts _hparts p _hp => h.run hfollow p)
termination_by p => sizeOf p
decreasing_by
  have h₁ := List.sizeOf_lt_of_mem _hparts
  have h₂ := List.sizeOf_lt_of_mem _hp
  simp only [Part.join.sizeOf_spec]
  omega

/-- **What holds of every reference holds of every template**, if it holds of the custom functions
that the template can call. -/
theorem evaluate (h : scope.Closed P) {registry : Registry}
    (hfollow : ∀ name f, registry.find? name = some (.custom f) →
      ∀ args, P Output (scope.follow (f args))) (c : Clause) :
    P Output (Render.evaluate registry scope c) := by
  rw [evaluate_eq_runAll]
  refine h.runAll (unroll_induction ?_ ?_ ?_ ?_ ?_ ?_ ?_ c)
  · exact fun s => h.pure _
  · exact h.placeholder
  · exact fun kind index _ => h.resolve kind index
  · exact fun cause _ => h.throw _
  · exact hfollow
  · exact fun template cause _ => h.throw _
  · exact fun template separator iterations hparts => h.map _ (h.runEach template hparts)

end Scope.Closed

end SqlTemplate.Render
