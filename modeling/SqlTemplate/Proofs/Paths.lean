import SqlTemplate.Proofs.Iterations

/-!
# The path of an error

An error leaves the builds of templates one inside the other, and each puts its template
in front of the path. So the path is the way from the root to the place where the error
arose. Its layers are the templates of segments and columns, each declared by the one
before and referred to in its template, and between them the templates of joins
(`Layer.Next`); the cause is one that the last layer can raise (`Layer.Raises`).
-/

namespace SqlTemplate

open Render
open Template (Clause Item parse)

/-! ## Layers -/

/-- A segment or a column. -/
inductive Node
  | segment (s : Segment)
  | column (c : Column)

namespace Node

def raw : Node → String
  | .segment s => s.raw
  | .column c => c.raw

/-- The scope that the template is built in. -/
def scope (registry : Registry) : Node → Scope
  | .segment s => s.scope registry
  | .column c => c.scope

def render (registry : Registry) : Node → RenderM Output
  | .segment s => s.render registry
  | .column c => c.render registry

/-- What a node makes of its body. -/
def finish : Node → Output → Output
  | .segment s => Segment.wrap s.lead s.trail
  | .column _ => Output.trim

/-- The number of declarations of a kind. -/
def count : Node → DeclKind → Nat
  | .segment s, .arg => s.args.length
  | .segment s, .column => s.columns.length
  | .segment s, .table => s.tables.length
  | .segment s, .segment => s.segments.length
  | .column c, .arg => c.args.length
  | .column _, .table => 1
  | .column _, _ => 0

/-- The column or segment that is declared under a reference. -/
def child? : Node → Reference → Option Node
  | .segment s, ⟨.column, index⟩ => (declaration? s.columns index).map .column
  | .segment s, ⟨.segment, index⟩ => (declaration? s.segments index).map .segment
  | _, _ => none

end Node

/-- The declaration that an item asks for by its index. -/
def Template.Item.reference? (item : Item) : Option Reference :=
  match item.expr with
  | .bind _ index => some ⟨.arg, index⟩
  | .call name [arg] => do
    return ⟨← Function.referenceKind? name, ← Number.index? arg⟩
  | _ => none

/-- A template on the way: that of a node, or that of a join in the build of a node. -/
inductive Layer
  | own (node : Node)
  | join (node : Node) (template : String)

namespace Layer

def node : Layer → Node
  | .own node => node
  | .join node _ => node

def template : Layer → String
  | .own node => node.raw
  | .join _ template => template

/-- The clause is evaluated in the layer: it is that of the template, or of an iteration. -/
inductive Evaluates : Layer → Clause → Prop
  | own {node : Node} {c : Clause} (hparse : parse node.raw = .ok c) : Evaluates (.own node) c
  | join {node : Node} {template : String} {c : Clause} {i : Nat} (hparse : parse template = .ok c)
    (hpos : 0 < i) (hle : i ≤ c.repeatCount node.count) :
    Evaluates (.join node template) (c.instantiate (Nat.repr i))

/-- The layer behind another: a child that is referred to, or a join in the template. -/
inductive Next : Layer → Layer → Prop
  | child {layer : Layer} {c : Clause} {item : Item} {r : Reference} {child : Node}
    (hc : layer.Evaluates c) (hitem : item ∈ c) (hr : item.reference? = some r)
    (hchild : layer.node.child? r = some child) : Next layer (.own child)
  | join {layer : Layer} {c : Clause} {item : Item} {template separator : String}
    (hparse : parse layer.template = .ok c) (hitem : item ∈ c)
    (hexpr : item.expr = .call "join" [template, separator]) :
    Next layer (.join layer.node template)

end Layer

/-! ## Causes -/

/-- How the arguments of a function are described; a custom function takes any. -/
def Function.signature? : Function → Option Signature
  | .argument _ => some .argument
  | .column => some .column
  | .table => some .table
  | .segment => some .segment
  | .join => some .join
  | .custom _ => none

/-- The arguments have the shape: two for a join, else one index. -/
def Signature.Fits : Signature → List String → Prop
  | .join, args => args.length = 2
  | _, args => ∃ arg index, args = [arg] ∧ Number.index? arg = some index

/-- What can be wrong with an item that is evaluated in the build of a node. -/
inductive Template.Item.Raises (registry : Registry) (node : Node) : Item → Cause → Prop
  | marker (pos : Template.Position) (name : String) :
    Raises registry node ⟨pos, .marker name⟩ (.syntaxError pos (.bareMarker name))
  | unknown (pos : Template.Position) {name : String} (args : List String)
    (h : registry.find? name = none) :
    Raises registry node ⟨pos, .call name args⟩ (.unknownFunction name)
  | arguments (pos : Template.Position) {name : String} {args : List String} {f : Function}
    {signature : Signature} (hf : registry.find? name = some f)
    (hsignature : f.signature? = some signature) (h : ¬ signature.Fits args) :
    Raises registry node ⟨pos, .call name args⟩ (.badArguments signature args)
  | range {item : Item} {kind : DeclKind} {index : Nat}
    (hr : item.reference? = some ⟨kind, index⟩) (h : index = 0 ∨ node.count kind < index) :
    Raises registry node item (.indexOutOfRange kind index (node.count kind))
  | style {item : Item} {index : Nat} (hr : item.reference? = some ⟨.arg, index⟩)
    (origin : String) :
    Raises registry node item (.mixedStyles (.template origin) (.template node.raw))
  | unaligned (pos : Template.Position) {template : String} (separator : String) {c : Clause}
    {fault : JoinFault} (hparse : parse template = .ok c)
    (h : (node.scope registry).repeats template c.markers = .error fault) :
    Raises registry node ⟨pos, .call "join" [template, separator]⟩ (.unalignedJoin fault)

/-- What can be wrong with a template: its text, an item that is evaluated in it, or, in the
template of a node, a declaration that it does not refer to. -/
inductive Layer.Raises (registry : Registry) : Layer → Cause → Prop
  | parse {layer : Layer} {cause : Cause} (h : Template.parse layer.template = .error cause) :
    Raises registry layer cause
  | item {layer : Layer} {c : Clause} {item : Item} {cause : Cause} (hc : layer.Evaluates c)
    (hitem : item ∈ c) (h : item.Raises registry layer.node cause) : Raises registry layer cause
  | unused {node : Node} {c : Clause} {r : Reference} (hparse : Template.parse node.raw = .ok c)
    (h : (node.scope registry).FirstUnused c r) :
    Raises registry (.own node) (.unusedDeclaration r.kind r.index)

/-- The error arose in the build of the layer or of one behind it, and its path leads there. -/
inductive Layer.Traces (registry : Registry) : Layer → Error → Prop
  | here {layer : Layer} {cause : Cause} (h : layer.Raises registry cause) :
    Traces registry layer ((Error.ofCause cause).within layer.template)
  | next {layer layer' : Layer} {e : Error} (hnext : layer.Next layer')
    (h : layer'.Traces registry e) : Traces registry layer (e.within layer.template)

/-- What is traced has the templates of a chain of layers as its path. -/
theorem Layer.Traces.exists_layers {registry : Registry} {layer : Layer} {e : Error}
    (h : layer.Traces registry e) : ∃ layers, (layer :: layers).IsChain Next ∧
      e.path = (layer :: layers).map template ∧
      ((layer :: layers).getLast (List.cons_ne_nil _ _)).Raises registry e.cause := by
  induction h with
  | here h => exact ⟨[], .singleton _, rfl, h⟩
  | @next layer layer' e hnext _ ih =>
      obtain ⟨layers, hchain, hpath, hraises⟩ := ih
      refine ⟨layer' :: layers, hchain.cons_cons hnext, ?_, hraises⟩
      rw [Error.within_path, hpath]
      rfl

/-! ## Errors of a computation -/

/-- Every error of the computation has the property. -/
def Throws {σ α : Type} (x : EStateM Error σ α) (P : Error → Prop) : Prop :=
  ∀ ⦃s s' : σ⦄ ⦃e : Error⦄, x s = .error e s' → P e

namespace Throws

variable {σ α β : Type} {x : EStateM Error σ α} {P Q : Error → Prop}

theorem imp (h : Throws x P) (hPQ : ∀ e, P e → Q e) : Throws x Q :=
  fun _ _ e he => hPQ e (h he)

theorem pure (a : α) : Throws (pure a : EStateM Error σ α) P := by
  intro s s' e he
  cases (show EStateM.Result.ok a s = .error e s' from he)

theorem fail {cause : Cause} (h : P (.ofCause cause)) :
    Throws (SqlTemplate.fail cause : EStateM Error σ α) P := by
  intro s s' e he
  cases (show EStateM.Result.error (.ofCause cause) s = .error e s' from he)
  exact h

/-- What comes behind runs only on what comes before. -/
theorem bind {k : α → EStateM Error σ β} (hx : Throws x P)
    (hk : ∀ s a s', x s = .ok a s' → Throws (k a) P) : Throws (x >>= k) P := by
  intro s s' e he
  cases h : x s with
  | ok a s₁ =>
      rw [bind_of_ok h] at he
      exact hk s a s₁ h he
  | error e₁ s₁ =>
      rw [bind_of_error h] at he
      cases he
      exact hx h

theorem map (g : α → β) (hx : Throws x P) : Throws (g <$> x) P := by
  intro s s' e he
  cases h : x s with
  | ok a s₁ =>
      rw [map_of_ok h] at he
      cases he
  | error e₁ s₁ =>
      rw [map_of_error h] at he
      cases he
      exact hx h

theorem mapM {f : α → EStateM Error σ β} {xs : List α} (h : ∀ a ∈ xs, Throws (f a) P) :
    Throws (xs.mapM f) P := by
  induction xs with
  | nil => exact .pure []
  | cons a xs ih =>
      rw [List.mapM_cons]
      refine bind (h a List.mem_cons_self) fun _ b _ _ => ?_
      exact bind (ih fun a ha => h a (List.mem_cons_of_mem _ ha)) fun _ bs _ _ => .pure _

theorem within (raw : String) (x : EStateM Error σ α) :
    Throws (within raw x) fun e => e.path ≠ [] := by
  intro s s' e he
  unfold SqlTemplate.within at he
  cases hx : x s with
  | ok a s₁ =>
      rw [hx] at he
      cases he
  | error e₁ s₁ =>
      rw [hx] at he
      cases he
      exact List.cons_ne_nil _ _

/-- A check that the computation has to pass. -/
theorem check {c : Prop} [Decidable c] {cause : Cause} {k : PUnit → EStateM Error σ α}
    (hcause : P (.ofCause cause)) (hk : Throws (k ()) P) :
    Throws (if c then SqlTemplate.fail cause >>= k else k ()) P := by
  split
  · exact .bind (.fail hcause) fun s a s' hfail => absurd hfail fail_ne_ok
  · exact hk

theorem liftCause {x : Except Cause α} (h : ∀ cause, x = .error cause → P (.ofCause cause)) :
    Throws (liftCause x : EStateM Error σ α) P := by
  cases x with
  | ok a => exact .pure a
  | error cause => exact .fail (h cause rfl)

theorem ofRender {x : RenderM α} (h : Throws x P) : Throws (ScopeM.ofRender x) P := by
  intro f f' e he
  unfold ScopeM.ofRender at he
  cases hx : x f.session with
  | ok a s =>
      rw [hx] at he
      cases he
  | error e' s =>
      rw [hx] at he
      cases he
      exact h hx

end Throws

/-! ## Errors of a reference -/

namespace Render

theorem declaration?_eq_none_iff {α : Type} {xs : List α} {index : Nat} :
    declaration? xs index = none ↔ index = 0 ∨ xs.length < index := by
  unfold declaration?
  split
  · simp_all
  · rw [List.getElem?_eq_none_iff]
    omega

section References

variable {P : Error → Prop}

theorem declared_throws {α : Type} {kind : DeclKind} {xs : List α} {index : Nat}
    (h : index = 0 ∨ xs.length < index → P (.ofCause (.indexOutOfRange kind index xs.length))) :
    Throws (ScopeM.declared kind xs index) P := by
  rw [ScopeM.declared_eq]
  cases hnone : declaration? xs index with
  | none => exact .fail (h (declaration?_eq_none_iff.mp hnone))
  | some a =>
      intro f f' e he
      cases (show EStateM.Result.ok a (f.refer ⟨kind, index⟩) = .error e f' from he)

theorem observe_throws {marker : Style} {raw : String}
    (h : ∀ origin, P (.ofCause (.mixedStyles (.template origin) (.template raw)))) :
    Throws (RenderM.observe marker raw) P := by
  intro s s' e he
  rw [RenderM.observe_apply] at he
  cases hobserve : s.choice.observe marker raw with
  | ok p =>
      rw [hobserve] at he
      cases he
  | error cause =>
      rw [hobserve] at he
      cases he
      unfold StyleChoice.observe at hobserve
      split at hobserve
      · cases hobserve
      · cases hobserve
      · split at hobserve
        · cases hobserve
        · cases hobserve
          exact h _

theorem append_throws {v : Value} : Throws (ScopeM.ofRender (RenderM.append v)) P := by
  intro f f' e he
  cases he

theorem slot_throws {index : Nat} {v : Value} : Throws (ScopeM.slot index v) P := by
  intro f f' e he
  rw [ScopeM.slot_apply] at he
  split at he <;> cases he

/-- A placeholder fails because of its style or its index. -/
theorem bind_throws {scope : Scope} {marker : Style} {index : Nat}
    (hstyle : ∀ origin, P (.ofCause (.mixedStyles (.template origin) (.template scope.raw))))
    (hrange : index = 0 ∨ scope.args.length < index →
      P (.ofCause (.indexOutOfRange .arg index scope.args.length))) :
    Throws (scope.bind marker index) P := by
  unfold Scope.bind
  refine .bind (.ofRender (observe_throws hstyle)) fun _ style _ _ => ?_
  refine .bind (declared_throws hrange) fun _ v _ _ => ?_
  cases style with
  | indexed => exact .bind slot_throws fun _ n _ _ => .pure _
  | positional => exact .bind append_throws fun _ n _ _ => .pure _

theorem renderChild_throws {r : Reference} {child : Child} (h : Throws child.render P) :
    Throws (ScopeM.renderChild r child) P := by
  unfold ScopeM.renderChild
  refine .bind (.ofRender h) fun _ out _ _ f f' e he => ?_
  cases he

/-- A child fails because of its index, or in its own build. -/
theorem child_throws {kind : DeclKind} {children : List Child} {index : Nat}
    (hrange : index = 0 ∨ children.length < index →
      P (.ofCause (.indexOutOfRange kind index children.length)))
    (hchild : ∀ child, declaration? children index = some child → Throws child.render P) :
    Throws (Scope.child kind children index) P := by
  intro f f' e he
  rw [Scope.child_apply] at he
  cases hdeclared : declaration? children index with
  | none =>
      rw [hdeclared] at he
      cases he
      exact hrange (declaration?_eq_none_iff.mp hdeclared)
  | some child =>
      have hrender := renderChild_throws (r := ⟨kind, index⟩) (hchild child hdeclared)
      rw [hdeclared] at he
      dsimp only at he
      split at he
      · exact hrender he
      · split at he
        · cases he
        · exact hrender he

theorem table_throws {scope : Scope} {index : Nat}
    (hrange : index = 0 ∨ scope.tables.length < index →
      P (.ofCause (.indexOutOfRange .table index scope.tables.length))) :
    Throws (scope.table index) P := by
  unfold Scope.table
  exact .bind (declared_throws hrange) fun _ t _ _ => .pure _

/-- A call with an index fails because of its arguments, or in what it does with the index. -/
theorem indexArgument_throws {signature : Signature} {args : List String}
    {k : Nat → ScopeM Output} (hjoin : signature ≠ .join)
    (harguments : ¬ signature.Fits args → P (.ofCause (.badArguments signature args)))
    (hk : ∀ arg index, args = [arg] → Number.index? arg = some index → Throws (k index) P) :
    Throws (Scope.indexArgument signature args >>= k) P := by
  have hfits : signature.Fits args ↔
      ∃ arg index, args = [arg] ∧ Number.index? arg = some index := by
    cases signature with
    | join => exact absurd rfl hjoin
    | _ => rfl
  unfold Scope.indexArgument
  split
  · rename_i arg
    cases hindex : Number.index? arg with
    | some index =>
        refine .bind (.pure index) fun _ _ _ hok => ?_
        obtain ⟨rfl, rfl⟩ := pure_eq_ok.mp hok
        exact hk arg index rfl hindex
    | none =>
        refine .bind (.fail (harguments fun h => ?_)) fun _ _ _ hok => absurd hok fail_ne_ok
        obtain ⟨_, _, ⟨⟩, hindex'⟩ := hfits.mp h
        rw [hindex] at hindex'
        cases hindex'
  · rename_i hargs
    refine .bind (.fail (harguments fun h => ?_)) fun _ _ _ hok => absurd hok fail_ne_ok
    obtain ⟨arg, _, rfl, _⟩ := hfits.mp h
    exact hargs arg rfl

end References

end Render

/-! ## Errors of a layer -/

namespace Node

variable (registry : Registry) (node : Node)

theorem scope_raw : (node.scope registry).raw = node.raw := by
  cases node <;> rfl

theorem count_scope : (node.scope registry).count = node.count := by
  funext kind
  cases node <;> cases kind <;> simp [scope, Segment.scope, Column.scope, Scope.count, count]

theorem render_eq :
    node.render registry = node.finish <$> (node.scope registry).render registry := by
  cases node with
  | segment s => exact s.render_eq registry
  | column c => rfl

variable {registry node} {index : Nat} {c : Child}

theorem exists_column (h : declaration? (node.scope registry).columns index = some c) :
    ∃ child, node.child? ⟨.column, index⟩ = some child ∧ c.render = child.render registry := by
  cases node with
  | segment s =>
      rw [scope, Segment.scope, declaration?_map, Option.map_eq_some_iff] at h
      obtain ⟨column, hcolumn, rfl⟩ := h
      exact ⟨.column column, by rw [child?, hcolumn, Option.map_some], rfl⟩
  | column column => cases mem_of_declaration? h

theorem exists_segment (h : declaration? (node.scope registry).segments index = some c) :
    ∃ child, node.child? ⟨.segment, index⟩ = some child ∧ c.render = child.render registry := by
  cases node with
  | segment s =>
      rw [scope, Segment.scope, declaration?_map, Option.map_eq_some_iff] at h
      obtain ⟨segment, hsegment, rfl⟩ := h
      exact ⟨.segment segment, by rw [child?, hsegment, Option.map_some], rfl⟩
  | column column => cases mem_of_declaration? h

end Node

/-- The error arises while the template of the layer is evaluated. -/
def Layer.Fails (registry : Registry) (layer : Layer) (e : Error) : Prop :=
  layer.Traces registry (e.within layer.template)

/-- A join in an iteration was there in the template. -/
theorem Layer.Evaluates.exists_join {layer : Layer} {c : Clause} (h : layer.Evaluates c)
    {pos : Template.Position} {template separator : String}
    (hitem : ⟨pos, .call "join" [template, separator]⟩ ∈ c) :
    ∃ c', parse layer.template = .ok c' ∧ ⟨pos, .call "join" [template, separator]⟩ ∈ c' := by
  cases h with
  | own hparse => exact ⟨c, hparse, hitem⟩
  | @join _ _ c' _ hparse _ _ =>
      obtain ⟨⟨pos', expr⟩, hitem', heq⟩ := List.mem_map.mp hitem
      cases expr with
      | marker name => cases heq
      | _ => exact ⟨c', hparse, heq ▸ hitem'⟩

section Evaluation

variable {registry : Registry} {layer : Layer} {c : Clause} {item : Item} {index : Nat}

theorem Layer.fails_of_item {cause : Cause} (hc : layer.Evaluates c) (hitem : item ∈ c)
    (h : item.Raises registry layer.node cause) : layer.Fails registry (.ofCause cause) :=
  .here (.item hc hitem h)

theorem Layer.range_fails {kind : DeclKind} (hc : layer.Evaluates c) (hitem : item ∈ c)
    (hr : item.reference? = some ⟨kind, index⟩)
    (h : index = 0 ∨ (layer.node.scope registry).count kind < index) :
    layer.Fails registry
      (.ofCause (.indexOutOfRange kind index ((layer.node.scope registry).count kind))) := by
  rw [Node.count_scope] at h ⊢
  exact fails_of_item hc hitem (.range hr h)

theorem Layer.placeholder_fails (hc : layer.Evaluates c) (hitem : item ∈ c)
    (hr : item.reference? = some ⟨.arg, index⟩) (marker : Style) :
    Throws ((layer.node.scope registry).bind marker index) (layer.Fails registry) := by
  refine bind_throws (fun origin => ?_) (range_fails hc hitem hr)
  rw [Node.scope_raw]
  exact fails_of_item hc hitem (.style hr origin)

/-- The children fail with paths that begin at them. -/
def Node.ChildrenTrace (registry : Registry) (node : Node) : Prop :=
  ∀ r child, node.child? r = some child →
    Throws (child.render registry) ((Layer.own child).Traces registry)

theorem Layer.child_fails (hchildren : layer.node.ChildrenTrace registry)
    (hc : layer.Evaluates c) (hitem : item ∈ c) {r : Reference} (hr : item.reference? = some r)
    {child : Node} (hchild : layer.node.child? r = some child) :
    Throws (child.render registry) (layer.Fails registry) :=
  (hchildren r child hchild).imp fun _ h => .next (.child hc hitem hr hchild) h

theorem Layer.resolve_fails (hchildren : layer.node.ChildrenTrace registry)
    (hc : layer.Evaluates c) (hitem : item ∈ c) {kind : DeclKind} (hkind : kind ≠ .arg)
    (hr : item.reference? = some ⟨kind, index⟩) :
    Throws ((layer.node.scope registry).resolve index kind) (layer.Fails registry) := by
  cases kind with
  | arg => exact absurd rfl hkind
  | column =>
      refine child_throws (range_fails hc hitem hr) fun child h => ?_
      obtain ⟨child', hchild', hrender⟩ := Node.exists_column h
      rw [hrender]
      exact child_fails hchildren hc hitem hr hchild'
  | table => exact table_throws (range_fails hc hitem hr)
  | segment =>
      refine child_throws (range_fails hc hitem hr) fun child h => ?_
      obtain ⟨child', hchild', hrender⟩ := Node.exists_segment h
      rw [hrender]
      exact child_fails hchildren hc hitem hr hchild'

/-- A join fails where it stands, or in its template, which is a layer of its own. -/
theorem Layer.join_fails (hc : layer.Evaluates c) {pos : Template.Position}
    {template separator : String} (hitem : ⟨pos, .call "join" [template, separator]⟩ ∈ c)
    (hiterations : ∀ inner, parse template = .ok inner → ∀ i,
      (Layer.join layer.node template).Evaluates (inner.instantiate (Nat.repr i)) →
      Throws (evaluate registry (layer.node.scope registry) (inner.instantiate (Nat.repr i)))
        ((Layer.join layer.node template).Fails registry)) :
    Throws (Render.join registry (layer.node.scope registry) template separator)
      (layer.Fails registry) := by
  obtain ⟨c', hparse', hitem'⟩ := hc.exists_join hitem
  have hnext : layer.Next (.join layer.node template) := .join hparse' hitem' rfl
  intro f f' e he
  cases hparse : parse template with
  | error cause =>
      unfold Render.join at he
      rw [hparse] at he
      cases he
      exact .next hnext (.here (.parse hparse))
  | ok inner =>
      rcases join_cases registry (layer.node.scope registry) separator hparse f with
        ⟨fault, hrepeats, herror⟩ | ⟨n, hrepeats, hrun⟩
      · rw [herror] at he
        cases he
        exact fails_of_item hc hitem (.unaligned pos separator hparse hrepeats)
      · rcases hrun with ⟨_, _, -, hok⟩ | ⟨e', _, hfails, herror⟩
        · rw [hok] at he
          cases he
        · rw [herror] at he
          cases he
          obtain ⟨before, i, after, _, _, hrange, -, hi⟩ := hfails
          have hmem : i ∈ List.range' 1 n := by simp [hrange]
          rw [List.mem_range'_1] at hmem
          have hcount := Scope.repeatCount_eq hrepeats
          rw [Node.count_scope] at hcount
          have hinstance : (Layer.join layer.node template).Evaluates
              (inner.instantiate (Nat.repr i)) := .join hparse hmem.1 (by omega)
          exact .next hnext (hiterations inner hparse i hinstance hi)

/-- The function of a call fails because of its arguments or in what it refers to. -/
theorem Layer.call_fails (hchildren : layer.node.ChildrenTrace registry) (hc : layer.Evaluates c)
    {pos : Template.Position} {name : String} {args : List String}
    (hitem : ⟨pos, .call name args⟩ ∈ c) {f : Function}
    (hf : Function.builtins.lookup name = some f) (hfind : registry.find? name = some f)
    (hjoin : ∀ template separator, name = "join" → args = [template, separator] →
      Throws (Render.join registry (layer.node.scope registry) template separator)
        (layer.Fails registry)) :
    Throws ((layer.node.scope registry).call args (fun template separator _ =>
      Render.join registry (layer.node.scope registry) template separator) f)
      (layer.Fails registry) := by
  have hkind := Function.referenceKind?_eq hf
  have harguments : ∀ signature, f.signature? = some signature → ¬ signature.Fits args →
      layer.Fails registry (.ofCause (.badArguments signature args)) :=
    fun signature hsignature h => fails_of_item hc hitem (.arguments pos hfind hsignature h)
  have hreference : ∀ kind, f.kind? = some kind → ∀ arg index, args = [arg] →
      Number.index? arg = some index →
      Item.reference? ⟨pos, .call name args⟩ = some ⟨kind, index⟩ := by
    rintro kind hk arg index rfl hindex
    simp [Item.reference?, hkind, hk, hindex]
  cases f with
  | argument marker =>
      refine indexArgument_throws nofun (harguments _ rfl) fun arg index hargs hindex => ?_
      exact placeholder_fails hc hitem (hreference _ rfl arg index hargs hindex) marker
  | column =>
      refine indexArgument_throws nofun (harguments _ rfl) fun arg index hargs hindex => ?_
      exact resolve_fails hchildren hc hitem nofun (hreference _ rfl arg index hargs hindex)
  | table =>
      refine indexArgument_throws nofun (harguments _ rfl) fun arg index hargs hindex => ?_
      exact resolve_fails hchildren hc hitem nofun (hreference _ rfl arg index hargs hindex)
  | segment =>
      refine indexArgument_throws nofun (harguments _ rfl) fun arg index hargs hindex => ?_
      exact resolve_fails hchildren hc hitem nofun (hreference _ rfl arg index hargs hindex)
  | custom f => exact absurd hf Function.not_custom_of_lookup
  | join =>
      match args with
      | [template, separator] =>
          exact hjoin template separator (Function.eq_join_of_lookup hf) rfl
      | [] => exact .fail (harguments _ rfl nofun)
      | [_] => exact .fail (harguments _ rfl nofun)
      | _ :: _ :: _ :: _ => exact .fail (harguments _ rfl nofun)

/-- **What fails in a layer is traced from it.** Induction on the room of the clause: the template
of a join is shorter than the call it stands in. -/
theorem Layer.evaluate_fails (hc : layer.Evaluates c)
    (hnames : ∀ name, c.Names name → registry.find? name = Function.builtins.lookup name)
    (hchildren : layer.node.ChildrenTrace registry) :
    Throws (evaluate registry (layer.node.scope registry) c) (layer.Fails registry) := by
  induction h : c.room using Nat.strongRecOn generalizing layer c with
  | _ room ih =>
      subst h
      rw [evaluate_eq]
      refine .map _ (.mapM fun item hitem => ?_)
      obtain ⟨pos, expr⟩ := item
      cases expr with
      | text s => exact .pure _
      | marker name => exact .fail (fails_of_item hc hitem (.marker pos name))
      | bind style index => exact placeholder_fails hc hitem rfl style
      | call name args =>
          have hfind := hnames name (.call hitem rfl)
          simp only [evaluateItem]
          cases hf : Function.builtins.lookup name with
          | none =>
              rw [hf] at hfind
              rw [hfind]
              exact .fail (fails_of_item hc hitem (.unknown pos args hfind))
          | some f =>
              rw [hf] at hfind
              rw [hfind]
              refine call_fails hchildren hc hitem hf hfind ?_
              rintro template separator rfl rfl
              refine join_fails hc hitem fun inner hparse i hinstance => ?_
              have hroom := room_lt_of_parse hitem rfl hparse
              refine ih _ (by rwa [Clause.room_instantiate]) hinstance ?_ hchildren rfl
              -- What an iteration names, the template of the join names.
              intro other hother
              exact hnames other (.join hitem rfl hparse hother.of_instantiate)

end Evaluation

/-! ## Trees -/

section Trees

variable {registry : Registry}

/-- The functions that the template of the node names are the built-in ones, or unknown. -/
def Node.CallsBuiltins (registry : Registry) (node : Node) : Prop :=
  ∀ c, parse node.raw = .ok c → ∀ name, c.Names name →
    registry.find? name = Function.builtins.lookup name

/-- What fails in a node is traced from it, if that holds of its children. -/
theorem Node.render_traces (node : Node) (hnames : node.CallsBuiltins registry)
    (hchildren : node.ChildrenTrace registry) :
    Throws (node.render registry) ((Layer.own node).Traces registry) := by
  rw [node.render_eq]
  refine .map node.finish fun s s' e he => ?_
  cases hparse : parse node.raw with
  | error cause =>
      rw [Scope.render_of_parse_error ((node.scope_raw registry).symm ▸ hparse),
        node.scope_raw] at he
      cases he
      exact .here (.parse hparse)
  | ok c =>
      have hparse' : parse (node.scope registry).raw = .ok c := by rwa [node.scope_raw]
      have hc : (Layer.own node).Evaluates c := .own hparse
      cases heval : evaluate registry (node.scope registry) c { session := s } with
      | ok body f =>
          have hused : ∀ r, r ∈ f.memo.used ↔ c.RefersTo (node.scope registry).count r := by
            intro r
            have := evaluate_notes _ c (hnames c hparse) heval r
            simpa using this
          rcases Scope.checkUse_cases hused with ⟨hcheck, -⟩ | ⟨r, hcheck, hfirst⟩
          · rw [Scope.render_of_used hparse' heval hcheck] at he
            cases he
          · rw [Scope.render_of_unused hparse' heval hcheck, node.scope_raw] at he
            cases he
            exact .here (.unused hparse hfirst)
      | error e' f =>
          have hfails := Layer.evaluate_fails hc (hnames c hparse) hchildren heval
          rw [Scope.render_of_parse_ok hparse', node.scope_raw] at he
          unfold within Scope.build Scope.conclude at he
          rw [heval] at he
          cases he
          exact hfails

theorem Column.render_traces {c : Column} (hnames : (Node.column c).CallsBuiltins registry) :
    Throws (c.render registry) ((Layer.own (.column c)).Traces registry) :=
  Node.render_traces (.column c) hnames nofun

/-- Every function that the templates of the tree name is a built-in one, or unknown. -/
def Segment.CallsBuiltins (registry : Registry) (s : Segment) : Prop :=
  ∀ raw ∈ s.templates, ∀ c, parse raw = .ok c → ∀ name, c.Names name →
    registry.find? name = Function.builtins.lookup name

theorem Segment.callsBuiltins_standard (s : Segment) : s.CallsBuiltins .standard :=
  fun _ _ _ _ _ _ => rfl

theorem Segment.render_traces {s : Segment} (hs : s.CallsBuiltins registry) :
    Throws (s.render registry) ((Layer.own (.segment s)).Traces registry) := by
  induction s using Segment.induction with
  | step s ih =>
      refine Node.render_traces (.segment s) (hs s.raw s.raw_mem_templates) ?_
      rintro ⟨kind, index⟩ child hchild
      cases kind with
      | arg => cases hchild
      | table => cases hchild
      | column =>
          obtain ⟨c, hc, rfl⟩ := Option.map_eq_some_iff.mp hchild
          have hmem := mem_of_declaration? hc
          exact Column.render_traces (hs c.raw (column_mem_templates hmem))
      | segment =>
          obtain ⟨s', hs', rfl⟩ := Option.map_eq_some_iff.mp hchild
          have hmem := mem_of_declaration? hs'
          exact ih s' hmem fun raw hraw => hs raw (templates_subset hmem hraw)

/-- **The path of an error is the way to where it arose.** In a tree that calls built-in functions
only, an error has as its path the templates of a chain of layers: it begins at the segment that
is built, each layer is a child that the one before declares and refers to, or a join in its
template, and the cause is one that the last layer can raise. -/
theorem Segment.error_path {s : Segment} (hs : s.CallsBuiltins registry)
    {session session' : Session} {e : Error}
    (h : s.render registry session = .error e session') :
    ∃ layers, (Layer.own (.segment s) :: layers).IsChain Layer.Next ∧
      e.path = (Layer.own (.segment s) :: layers).map Layer.template ∧
      ((Layer.own (.segment s) :: layers).getLast (List.cons_ne_nil _ _)).Raises registry e.cause :=
  (Segment.render_traces hs h).exists_layers

end Trees

/-- The last index is out of range: in a join within a join, in a column of a child. -/
def Segment.pathSample : Segment where
  raw := "#join('(#s)', ' AND ')"
  segments := [{ raw := "TRUE" },
    { raw := "#c1 > 0"
      columns := [⟨⟨"t", ""⟩, "#join('#$ #join(''#$ $7'', '','')', ';')", [.int 1]⟩] }]

theorem Segment.error_path_sample : ∃ session' layers,
    pathSample.render .standard {} = .error
      ⟨["#join('(#s)', ' AND ')", "(#s)", "#c1 > 0", "#join('#$ #join(''#$ $7'', '','')', ';')",
        "#$ #join('#$ $7', ',')", "#$ $7"], .indexOutOfRange .arg 7 1⟩ session' ∧
    (Layer.own (.segment pathSample) :: layers).IsChain Layer.Next ∧ layers.length = 5 := by
  obtain ⟨e, session', hrender, hcheck⟩ := exists_error_of_check
    (x := pathSample.render .standard) (s := {})
    (fun e _ => e == ⟨["#join('(#s)', ' AND ')", "(#s)", "#c1 > 0",
      "#join('#$ #join(''#$ $7'', '','')', ';')", "#$ #join('#$ $7', ',')", "#$ $7"],
      .indexOutOfRange .arg 7 1⟩) (by decide +kernel)
  obtain rfl := eq_of_beq hcheck
  obtain ⟨layers, hchain, hpath, -⟩ :=
    error_path pathSample.callsBuiltins_standard hrender
  refine ⟨session', layers, hrender, hchain, ?_⟩
  have hlength := congrArg List.length hpath
  simpa using hlength.symm

end SqlTemplate
