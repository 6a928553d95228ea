import SqlTemplate.Proofs.Longhand
import SqlTemplate.Proofs.Paths
import SqlTemplate.Proofs.Simulation

/-!
# Interchangeable notations

A template and its longhand are built alike. They differ in their texts, which show in an
inferred style and in an error, but in nothing that the build depends on: unless a custom
function asks for the template, or looks at what an error quotes of it, the two builds
mirror each other step by step (`Mirrors`). The frames of both have the same memo and the
same arguments, and their styles are settled alike, by templates that correspond
(`Rewritten`).
-/

namespace SqlTemplate

open Render
open Template (Clause Item Expr parse longhand)

/-! ## Builds that mirror each other -/

/-- The templates that may take each other's place in two builds of `raw` and of `raw'`. -/
inductive Rewritten (raw raw' : String) : String → String → Prop
  | same (t : String) : Rewritten raw raw' t t
  | own : Rewritten raw raw' raw raw'

section Mirrors

variable (raw raw' : String)

/-- The same cause, but for the templates and the position that it quotes. -/
inductive Cause.Alike : Cause → Cause → Prop
  | same (cause : Cause) : Alike cause cause
  | moved (pos pos' : Template.Position) (fault : SyntaxFault) :
    Alike (.syntaxError pos fault) (.syntaxError pos' fault)
  | styles {t t' u u' : String} (ht : Rewritten raw raw' t t') (hu : Rewritten raw raw' u u') :
    Alike (.mixedStyles (.template t) (.template u)) (.mixedStyles (.template t') (.template u'))

/-- Errors below two templates, on the same path from there. -/
structure Error.Alike (e e' : Error) : Prop where
  path : e.path = e'.path
  cause : e.cause.Alike raw raw' e'.cause

/-- The actions ask for the same and do the same with the answers. To errors that are alike they
answer alike; neither asks for the template. -/
inductive Action.Alike : Action → Action → Prop
  | done (out : Output) : Alike (.done out) (.done out)
  | fail {e e' : Error} (h : e.Alike raw raw' e') : Alike (.fail e) (.fail e')
  | resolve (kind : DeclKind) (index : Nat) {next next' : Except Error Output → Action}
    (hok : ∀ out, Alike (next (.ok out)) (next' (.ok out)))
    (herror : ∀ e e', e.Alike raw raw' e' → Alike (next (.error e)) (next' (.error e'))) :
    Alike (.resolve kind index next) (.resolve kind index next')
  | style {next next' : Option Style → Action} (h : ∀ style, Alike (next style) (next' style)) :
    Alike (.style next) (.style next')

inductive StyleChoice.Alike : StyleChoice → StyleChoice → Prop
  | «open» : Alike .open .open
  | configured (style : Style) : Alike (.configured style) (.configured style)
  | inferred (style : Style) {t t' : String} (h : Rewritten raw raw' t t') :
    Alike (.inferred style t) (.inferred style t')

structure Session.Alike (s s' : Session) : Prop where
  args : s.args = s'.args
  choice : s.choice.Alike raw raw' s'.choice

structure Render.Frame.Alike (f f' : Frame) : Prop where
  session : f.session.Alike raw raw' f'.session
  memo : f.memo = f'.memo

/-- The same result or errors that are alike, in related states. -/
inductive Mirrored {σ α : Type} (R : σ → σ → Prop) :
    EStateM.Result Error σ α → EStateM.Result Error σ α → Prop
  | ok (a : α) {s s' : σ} (hs : R s s') : Mirrored R (.ok a s) (.ok a s')
  | error {e e' : Error} (he : e.Alike raw raw' e') {s s' : σ} (hs : R s s') :
    Mirrored R (.error e s) (.error e' s')

/-- From related states two computations come to outcomes that mirror each other. -/
def Mirrors {σ α : Type} (R : σ → σ → Prop) (x y : EStateM Error σ α) : Prop :=
  ∀ ⦃s s'⦄, R s s' → Mirrored raw raw' R (x s) (y s')

end Mirrors

/-- The action neither asks for the template nor depends on what an error quotes of it. -/
def Action.Blind (a : Action) : Prop := ∀ raw raw', a.Alike raw raw' a

/-- The action does not ask for the template. -/
inductive Action.AsksNoTemplate : Action → Prop
  | done (out : Output) : AsksNoTemplate (.done out)
  | fail (e : Error) : AsksNoTemplate (.fail e)
  | resolve (kind : DeclKind) (index : Nat) {next : Except Error Output → Action}
    (h : ∀ outcome, AsksNoTemplate (next outcome)) : AsksNoTemplate (.resolve kind index next)
  | style {next : Option Style → Action} (h : ∀ style, AsksNoTemplate (next style)) :
    AsksNoTemplate (.style next)

theorem Action.AsksNoTemplate.need {kind : DeclKind} {index : Nat} {next : Output → Action}
    (h : ∀ out, (next out).AsksNoTemplate) : (Action.need kind index next).AsksNoTemplate := by
  refine .resolve kind index fun outcome => ?_
  cases outcome with
  | ok out => exact h out
  | error e => exact .fail e

variable {raw raw' : String}

theorem Error.Alike.refl (e : Error) : e.Alike raw raw' e := ⟨rfl, .same e.cause⟩

/-- A function that passes errors on learns nothing from them. -/
theorem Action.Propagates.blind {a : Action} (h : a.Propagates) (ha : a.AsksNoTemplate) :
    a.Blind := by
  intro raw raw'
  induction h with
  | done out => exact .done out
  | fail e => exact .fail (.refl e)
  | template => cases ha
  | style _ ih =>
      cases ha with
      | style ha => exact .style fun style => ih style (ha style)
  | resolve _ herror ih =>
      cases ha with
      | resolve _ _ ha =>
          refine .resolve _ _ (fun out => ih out (ha _)) fun e e' he => ?_
          rw [herror, herror]
          exact .fail he

theorem Error.Alike.within {e e' : Error} (h : e.Alike raw raw' e') (template : String) :
    (e.within template).Alike raw raw' (e'.within template) :=
  ⟨congrArg (List.cons template) h.path, h.cause⟩

theorem StyleChoice.Alike.refl (c : StyleChoice) : c.Alike raw raw' c := by
  cases c with
  | «open» => exact .open
  | inferred style t => exact .inferred style (.same t)
  | configured style => exact .configured style

theorem StyleChoice.Alike.style_eq {c c' : StyleChoice} (h : c.Alike raw raw' c') :
    c.style = c'.style := by
  cases h <;> rfl

theorem Mirrored.cases {σ α : Type} {R : σ → σ → Prop} {r r' : EStateM.Result Error σ α}
    (h : Mirrored raw raw' R r r') :
    (∃ a s s', r = .ok a s ∧ r' = .ok a s' ∧ R s s') ∨
      ∃ e e' s s', r = .error e s ∧ r' = .error e' s' ∧ e.Alike raw raw' e' ∧ R s s' := by
  cases h with
  | @ok a s s' hs => exact .inl ⟨a, s, s', rfl, rfl, hs⟩
  | @error e e' he s s' hs => exact .inr ⟨e, e', s, s', rfl, rfl, he, hs⟩

theorem within_of_error {σ α : Type} {x : EStateM Error σ α} {e : Error} {s s' : σ}
    (h : x s = .error e s') (template : String) :
    within template x s = .error (e.within template) s' := by
  unfold within
  rw [h]

namespace Mirrors

variable {σ α β γ δ : Type} {R : σ → σ → Prop} {x y : EStateM Error σ α}

theorem pure (a : α) : Mirrors raw raw' R (pure a) (pure a) := fun _ _ hs => .ok a hs

theorem throw {e e' : Error} (he : e.Alike raw raw' e') :
    Mirrors raw raw' R (throw e : EStateM Error σ α) (throw e') := fun _ _ hs => .error he hs

theorem fail (cause : Cause) : Mirrors raw raw' R (fail cause : EStateM Error σ α) (fail cause) :=
  throw ⟨rfl, .same cause⟩

theorem bind {k l : α → EStateM Error σ β} (hxy : Mirrors raw raw' R x y)
    (hkl : ∀ a, Mirrors raw raw' R (k a) (l a)) : Mirrors raw raw' R (x >>= k) (y >>= l) := by
  intro s s' hs
  rcases (hxy hs).cases with ⟨a, t, t', hx, hy, ht⟩ | ⟨e, e', t, t', hx, hy, he, ht⟩
  · rw [bind_of_ok hx, bind_of_ok hy]
    exact hkl a ht
  · rw [bind_of_error hx, bind_of_error hy]
    exact .error he ht

/-- Both go on with the same result, or with errors that are alike. -/
theorem observing {k l : Except Error α → EStateM Error σ β} (hxy : Mirrors raw raw' R x y)
    (hok : ∀ a, Mirrors raw raw' R (k (.ok a)) (l (.ok a)))
    (herror : ∀ e e', e.Alike raw raw' e' → Mirrors raw raw' R (k (.error e)) (l (.error e'))) :
    Mirrors raw raw' R (observing x >>= k) (observing y >>= l) := by
  intro s s' hs
  rcases (hxy hs).cases with ⟨a, t, t', hx, hy, ht⟩ | ⟨e, e', t, t', hx, hy, he, ht⟩
  · rw [bind_of_ok (observing_of_ok hx), bind_of_ok (observing_of_ok hy)]
    exact hok a ht
  · rw [bind_of_ok (observing_of_error hx), bind_of_ok (observing_of_error hy)]
    exact herror e e' he ht

theorem map (g : α → β) (hxy : Mirrors raw raw' R x y) :
    Mirrors raw raw' R (g <$> x) (g <$> y) := by
  intro s s' hs
  rcases (hxy hs).cases with ⟨a, t, t', hx, hy, ht⟩ | ⟨e, e', t, t', hx, hy, he, ht⟩
  · rw [map_of_ok hx, map_of_ok hy]
    exact .ok (g a) ht
  · rw [map_of_error hx, map_of_error hy]
    exact .error he ht

theorem within (template : String) (hxy : Mirrors raw raw' R x y) :
    Mirrors raw raw' R (within template x) (within template y) := by
  intro s s' hs
  rcases (hxy hs).cases with ⟨a, t, t', hx, hy, ht⟩ | ⟨e, e', t, t', hx, hy, he, ht⟩
  · rw [within_eq_ok.mpr hx, within_eq_ok.mpr hy]
    exact .ok a ht
  · rw [within_of_error hx, within_of_error hy]
    exact .error (he.within template) ht

theorem mapM {f : γ → EStateM Error σ α} {g : δ → EStateM Error σ α} {xs : List γ} {ys : List δ}
    (h : List.Forall₂ (fun c d => Mirrors raw raw' R (f c) (g d)) xs ys) :
    Mirrors raw raw' R (xs.mapM f) (ys.mapM g) := by
  induction h with
  | nil => exact pure []
  | cons hxy _ ih =>
      rw [List.mapM_cons, List.mapM_cons]
      exact bind hxy fun a => bind ih fun as => pure (a :: as)

theorem ofRender {x y : RenderM α} (h : Mirrors raw raw' (Session.Alike raw raw') x y) :
    Mirrors raw raw' (Frame.Alike raw raw') (ScopeM.ofRender x) (ScopeM.ofRender y) := by
  intro f f' hf
  unfold ScopeM.ofRender
  rcases (h hf.session).cases with ⟨a, s, s', hx, hy, hs⟩ | ⟨e, e', s, s', hx, hy, he, hs⟩
  · rw [hx, hy]
    exact .ok a ⟨hs, hf.memo⟩
  · rw [hx, hy]
    exact .error he ⟨hs, hf.memo⟩

/-- The memo changes in the same way in both builds. -/
theorem modifyMemo (g : Memo → Memo) :
    Mirrors raw raw' (Frame.Alike raw raw')
      (modify fun f => { f with memo := g f.memo }) (modify fun f => { f with memo := g f.memo }) :=
  fun _ _ hf => .ok _ ⟨hf.session, congrArg g hf.memo⟩

end Mirrors

/-! ## References -/

theorem StyleChoice.Alike.observe {c c' : StyleChoice} (h : c.Alike raw raw' c') {t t' : String}
    (ht : Rewritten raw raw' t t') (marker : Style) :
    (∃ st d d', c.observe marker t = .ok (st, d) ∧ c'.observe marker t' = .ok (st, d') ∧
      d.Alike raw raw' d') ∨
    ∃ cause cause', c.observe marker t = .error cause ∧ c'.observe marker t' = .error cause' ∧
      cause.Alike raw raw' cause' := by
  cases h with
  | «open» => exact .inl ⟨marker, _, _, rfl, rfl, .inferred marker ht⟩
  | configured style => exact .inl ⟨style, _, _, rfl, rfl, .configured style⟩
  | inferred style hu =>
      by_cases hmarker : style = marker
      · exact .inl ⟨style, _, _, if_pos hmarker, if_pos hmarker, .inferred style hu⟩
      · exact .inr ⟨_, _, if_neg hmarker, if_neg hmarker, .styles hu ht⟩

namespace Mirrors

theorem observe {t t' : String} (ht : Rewritten raw raw' t t') (marker : Style) :
    Mirrors raw raw' (Session.Alike raw raw') (RenderM.observe marker t)
      (RenderM.observe marker t') := by
  intro s s' hs
  rw [RenderM.observe_apply, RenderM.observe_apply]
  rcases hs.choice.observe ht marker with ⟨st, d, d', hd, hd', h⟩ | ⟨cause, cause', hd, hd', h⟩
  · rw [hd, hd']
    exact .ok st ⟨hs.args, h⟩
  · rw [hd, hd']
    have he : (Error.ofCause cause).Alike raw raw' (.ofCause cause') := ⟨rfl, h⟩
    exact .error he hs

theorem append (v : Value) :
    Mirrors raw raw' (Session.Alike raw raw') (RenderM.append v) (RenderM.append v) := by
  intro s s' hs
  rw [RenderM.append_apply, RenderM.append_apply, hs.args]
  exact .ok _ ⟨rfl, hs.choice⟩

theorem declared {α : Type} (kind : DeclKind) (xs : List α) (index : Nat) :
    Mirrors raw raw' (Frame.Alike raw raw') (ScopeM.declared kind xs index)
      (ScopeM.declared kind xs index) := by
  rw [ScopeM.declared_eq]
  cases declaration? xs index with
  | none => exact fail _
  | some a =>
      exact bind (modifyMemo fun m => { m with used := ⟨kind, index⟩ :: m.used }) fun _ => pure a

theorem slot (index : Nat) (v : Value) :
    Mirrors raw raw' (Frame.Alike raw raw') (ScopeM.slot index v) (ScopeM.slot index v) := by
  intro f f' hf
  rw [ScopeM.slot_apply, ScopeM.slot_apply, ← hf.memo, ← hf.session.args]
  cases f.memo.slots.lookup index with
  | some n => exact .ok n hf
  | none => exact .ok _ ⟨⟨rfl, hf.session.choice⟩, rfl⟩

theorem style : Mirrors raw raw' (Frame.Alike raw raw') ScopeM.style ScopeM.style := by
  intro f f' hf
  have hstyle : f.session.style = f'.session.style := hf.session.choice.style_eq
  show Mirrored raw raw' _ (.ok f.session.style f) (.ok f'.session.style f')
  rw [hstyle]
  exact .ok _ hf

/-- The same child is rendered in both builds, or in neither. -/
theorem child {kind : DeclKind} {children : List Child}
    (hchildren : ∀ c ∈ children, Mirrors raw raw' (Session.Alike raw raw') c.render c.render)
    (index : Nat) :
    Mirrors raw raw' (Frame.Alike raw raw') (Scope.child kind children index)
      (Scope.child kind children index) := by
  intro f f' hf
  have hstyle : f.session.style = f'.session.style := hf.session.choice.style_eq
  rw [Scope.child_apply, Scope.child_apply, ← hf.memo, ← hstyle]
  cases hdecl : declaration? children index with
  | none => exact .error ⟨rfl, .same _⟩ hf
  | some c =>
      have hc := hchildren c (mem_of_declaration? hdecl)
      have hrefer : (f.refer ⟨kind, index⟩).Alike raw raw' (f'.refer ⟨kind, index⟩) :=
        ⟨hf.session, by rw [Frame.refer, Frame.refer, hf.memo]⟩
      have hrender : Mirrors raw raw' (Frame.Alike raw raw')
          (ScopeM.renderChild ⟨kind, index⟩ c) (ScopeM.renderChild ⟨kind, index⟩ c) :=
        bind (ofRender hc) fun out =>
          bind (modifyMemo fun m => { m with texts := (⟨kind, index⟩, out) :: m.texts }) fun _ =>
            pure out
      dsimp only
      split
      · exact hrender hrefer
      · cases f.memo.texts.lookup ⟨kind, index⟩ with
        | some out => exact .ok out hrefer
        | none => exact hrender hrefer

end Mirrors

namespace Render.Scope

variable {scope : Scope} {t : String}

theorem mirrors_bind (ht : Rewritten raw raw' scope.raw t) (marker : Style) (index : Nat) :
    Mirrors raw raw' (Frame.Alike raw raw') (scope.bind marker index)
      ({ scope with raw := t }.bind marker index) := by
  refine .bind (.ofRender (.observe ht marker)) fun style => ?_
  refine .bind (.declared .arg scope.args index) fun v => ?_
  cases style with
  | indexed => exact .bind (.slot index v) fun n => .pure _
  | positional => exact .bind (.ofRender (.append v)) fun n => .pure _

/-- The children are built alike in sessions that are alike. -/
structure ChildrenMirror (raw raw' : String) (scope : Scope) : Prop where
  columns : ∀ c ∈ scope.columns, Mirrors raw raw' (Session.Alike raw raw') c.render c.render
  segments : ∀ c ∈ scope.segments, Mirrors raw raw' (Session.Alike raw raw') c.render c.render

theorem mirrors_resolve (ht : Rewritten raw raw' scope.raw t)
    (hscope : scope.ChildrenMirror raw raw') (index : Nat) (kind : DeclKind) :
    Mirrors raw raw' (Frame.Alike raw raw') (scope.resolve index kind)
      ({ scope with raw := t }.resolve index kind) := by
  cases kind with
  | arg => exact .bind .style fun style => mirrors_bind ht (style.getD .indexed) index
  | column => exact .child hscope.columns index
  | table => exact .bind (.declared .table scope.tables index) fun _ => .pure _
  | segment => exact .child hscope.segments index

theorem mirrors_follow (ht : Rewritten raw raw' scope.raw t)
    (hscope : scope.ChildrenMirror raw raw') {a a' : Action} (h : a.Alike raw raw' a') :
    Mirrors raw raw' (Frame.Alike raw raw') (scope.follow a)
      ({ scope with raw := t }.follow a') := by
  induction h with
  | done out => exact .pure out
  | fail he => exact .throw he
  | resolve kind index _ _ ihok iherror =>
      exact .observing (mirrors_resolve ht hscope index kind) ihok iherror
  | style _ ih => exact .bind .style ih

theorem mirrors_indexArgument (signature : Signature) (args : List String) :
    Mirrors raw raw' (Frame.Alike raw raw') (indexArgument signature args)
      (indexArgument signature args) := by
  unfold indexArgument
  split
  · split
    · exact .pure _
    · exact .fail _
  · exact .fail _

/-! ## Templates -/

variable {registry : Registry}

theorem mirrors_item (hr : registry.All Action.Blind) (ht : Rewritten raw raw' scope.raw t)
    (hscope : scope.ChildrenMirror raw raw') (pos pos' : Template.Position) {e : Expr}
    (hjoin : ∀ name template separator, e = .call name [template, separator] →
      Mirrors raw raw' (Frame.Alike raw raw') (join registry scope template separator)
        (join registry { scope with raw := t } template separator)) :
    Mirrors raw raw' (Frame.Alike raw raw') (evaluateItem registry scope ⟨pos, e⟩)
      (evaluateItem registry { scope with raw := t } ⟨pos', e⟩) := by
  have hindex : ∀ (signature : Signature) (args : List String) (kind : DeclKind),
      Mirrors raw raw' (Frame.Alike raw raw')
        (indexArgument signature args >>= fun index => scope.resolve index kind)
        (indexArgument signature args >>= fun index =>
          { scope with raw := t }.resolve index kind) :=
    fun signature args kind => .bind (mirrors_indexArgument signature args) fun index =>
      mirrors_resolve ht hscope index kind
  cases e with
  | text s => exact .pure _
  | bind style index => exact mirrors_bind ht style index
  | marker name => exact .throw ⟨rfl, .moved pos pos' _⟩
  | call name args =>
      simp only [evaluateItem]
      cases hf : registry.find? name with
      | none => exact .fail _
      | some f =>
          cases f with
          | argument marker =>
              exact .bind (mirrors_indexArgument .argument args) fun index =>
                mirrors_bind ht marker index
          | column => exact hindex .column args .column
          | table => exact hindex .table args .table
          | segment => exact hindex .segment args .segment
          | custom f => exact mirrors_follow ht hscope (hr.action hf args raw raw')
          | join =>
              match args with
              | [template, separator] => exact hjoin name template separator rfl
              | [] => exact .fail _
              | [_] => exact .fail _
              | _ :: _ :: _ :: _ => exact .fail _

theorem mirrors_join {template : String} (separator : String)
    (h : ∀ inner, parse template = .ok inner → ∀ i,
      Mirrors raw raw' (Frame.Alike raw raw') (evaluate registry scope (inner.instantiate i))
        (evaluate registry { scope with raw := t } (inner.instantiate i))) :
    Mirrors raw raw' (Frame.Alike raw raw') (join registry scope template separator)
      (join registry { scope with raw := t } template separator) := by
  unfold join
  cases hparse : parse template with
  | error cause => exact .throw ⟨rfl, .same _⟩
  | ok inner =>
      -- The declarations are the same, and so is their number.
      have hrepeats : { scope with raw := t }.repeats template inner.markers =
          scope.repeats template inner.markers := rfl
      dsimp only
      rw [hrepeats]
      cases scope.repeats template inner.markers with
      | error fault => exact .fail _
      | ok count =>
          refine .map _ (.mapM (List.forall₂_same.mpr fun i _ => ?_))
          exact .within template (h inner hparse _)

/-- **A clause is evaluated alike in two builds**, whatever functions it calls, unless one of them
asks for the template. -/
theorem mirrors_evaluate (hr : registry.All Action.Blind) (ht : Rewritten raw raw' scope.raw t)
    (hscope : scope.ChildrenMirror raw raw') (c : Clause) :
    Mirrors raw raw' (Frame.Alike raw raw') (evaluate registry scope c)
      (evaluate registry { scope with raw := t } c) := by
  -- The template of a join is shorter than the one it stands in.
  induction hroom : c.room using Nat.strongRecOn generalizing c with
  | _ room ih =>
      subst hroom
      rw [evaluate_eq, evaluate_eq]
      refine .map _ (.mapM (List.forall₂_same.mpr fun item hitem => ?_))
      refine mirrors_item hr ht hscope item.pos item.pos fun name template separator hexpr => ?_
      refine mirrors_join separator fun inner hparse i => ih _ ?_ _ rfl
      rw [Clause.room_instantiate]
      exact room_lt_of_parse hitem hexpr hparse

/-- The check of use does not depend on the text of the template. -/
theorem mirrored_conclude {r r' : EStateM.Result Error Frame Output}
    (h : Mirrored raw raw' (Frame.Alike raw raw') r r') :
    Mirrored raw raw' (Session.Alike raw raw') (scope.conclude r)
      ({ scope with raw := t }.conclude r') := by
  cases h with
  | error he hf => exact .error he hf.session
  | @ok out f f' hf =>
      have hconclude : { scope with raw := t }.conclude (.ok out f') =
          scope.conclude (.ok out f') := rfl
      rw [hconclude]
      unfold conclude
      dsimp only
      rw [← hf.memo]
      cases scope.checkUse f.memo.used with
      | error cause => exact .error ⟨rfl, .same _⟩ hf.session
      | ok _ => exact .ok out hf.session

theorem mirrors_build {c c' : Clause}
    (h : Mirrors raw raw' (Frame.Alike raw raw') (evaluate registry scope c)
      (evaluate registry { scope with raw := t } c')) :
    Mirrors raw raw' (Session.Alike raw raw') (scope.build registry c)
      ({ scope with raw := t }.build registry c') :=
  fun _ _ hs => mirrored_conclude (h ⟨hs, rfl⟩)

theorem mirrors_render (hr : registry.All Action.Blind) (hscope : scope.ChildrenMirror raw raw') :
    Mirrors raw raw' (Session.Alike raw raw') (scope.render registry) (scope.render registry) := by
  cases hparse : parse scope.raw with
  | error cause =>
      rw [render_of_parse_error hparse]
      exact .throw ⟨rfl, .same _⟩
  | ok c =>
      rw [render_of_parse_ok hparse]
      exact .within scope.raw (mirrors_build (mirrors_evaluate hr (.same _) hscope c))

end Render.Scope

/-! ## Segments and columns -/

theorem Column.mirrors_render {registry : Registry} (hr : registry.All Action.Blind) (c : Column) :
    Mirrors raw raw' (Session.Alike raw raw') (c.render registry) (c.render registry) :=
  .map _ (Scope.mirrors_render hr ⟨nofun, nofun⟩)

theorem Segment.childrenMirror {registry : Registry} (hr : registry.All Action.Blind) {s : Segment}
    (h : ∀ child ∈ s.segments,
      Mirrors raw raw' (Session.Alike raw raw') (child.render registry) (child.render registry)) :
    (s.scope registry).ChildrenMirror raw raw' where
  columns c hc := by
    obtain ⟨column, _, rfl⟩ := List.mem_map.mp hc
    exact column.mirrors_render hr
  segments c hc := by
    obtain ⟨child, hchild, rfl⟩ := List.mem_map.mp hc
    exact h child hchild

theorem Segment.mirrors_render {registry : Registry} (hr : registry.All Action.Blind)
    (s : Segment) :
    Mirrors raw raw' (Session.Alike raw raw') (s.render registry) (s.render registry) := by
  induction s using Segment.induction with
  | step s ih =>
      rw [render_eq]
      exact .map _ (Scope.mirrors_render hr (childrenMirror hr ih))

namespace Node

/-- The segment or column with another template. -/
def withRaw (raw : String) : Node → Node
  | .segment s => .segment { s with raw }
  | .column c => .column { c with raw }

variable {registry : Registry} {node : Node}

theorem scope_withRaw (t : String) :
    (node.withRaw t).scope registry = { node.scope registry with raw := t } := by
  cases node <;> rfl

theorem finish_withRaw (t : String) : (node.withRaw t).finish = node.finish := by
  cases node <;> rfl

theorem childrenMirror (hr : registry.All Action.Blind) (node : Node) :
    (node.scope registry).ChildrenMirror raw raw' := by
  cases node with
  | segment s => exact Segment.childrenMirror hr fun child _ => child.mirrors_render hr
  | column c => exact ⟨nofun, nofun⟩

end Node

/-! ## Longhand -/

namespace Render

variable {registry : Registry}

/-- A call of the function that a sign names is a placeholder. -/
theorem evaluateItem_toCall (hr : registry.HasBuiltins) (scope : Scope) (pos : Template.Position)
    {e : Expr} (h : ∀ style n, e = .bind style n → n < Number.indexLimit) :
    evaluateItem registry scope ⟨pos, e.toCall⟩ = evaluateItem registry scope ⟨pos, e⟩ := by
  cases e with
  | bind style n =>
      have hfind : registry.find? style.sign.toString = some (.argument style) := by
        rw [hr _ (by cases style <;> rfl)]
        cases style <;> rfl
      have hindex := Number.index?_repr (h style n rfl)
      simp only [Expr.toCall, evaluateItem, hfind, Scope.call, Scope.indexArgument, hindex,
        pure_bind]
  | _ => rfl

theorem Scope.mirrors_longhand (hr : registry.All Action.Blind) {scope : Scope} {t : String}
    (hscope : scope.ChildrenMirror scope.raw t) {c c' : Clause}
    (hexprs : c'.exprs = c.exprs.map Expr.toCall)
    (hlimit : ∀ style n, .bind style n ∈ c.exprs → n < Number.indexLimit) :
    Mirrors scope.raw t (Frame.Alike scope.raw t) (evaluate registry scope c)
      (evaluate registry { scope with raw := t } c') := by
  have hpairs : List.Forall₂ (fun (item item' : Item) => item.expr.toCall = item'.expr) c c' := by
    have hsame : List.Forall₂ (· = ·) (c.exprs.map Expr.toCall) c'.exprs := by
      rw [hexprs, List.forall₂_eq_eq_eq]
    rwa [Clause.exprs, Clause.exprs, List.map_map, List.forall₂_map_left_iff,
      List.forall₂_map_right_iff] at hsame
  have hitems := (List.forall₂_and_left c c').mpr ⟨fun item (hitem : item ∈ c) => hitem, hpairs⟩
  rw [evaluate_eq, evaluate_eq]
  refine .map _ (.mapM (hitems.imp ?_))
  rintro ⟨pos, e⟩ ⟨pos', e'⟩ ⟨hitem, hexpr⟩
  obtain rfl : e.toCall = e' := hexpr
  have hbind : ∀ style n, e = .bind style n → n < Number.indexLimit := by
    rintro style n rfl
    exact hlimit style n (List.mem_map_of_mem hitem)
  rw [evaluateItem_toCall hr.hasBuiltins _ pos' hbind]
  refine mirrors_item hr .own hscope pos pos' fun name template separator _ => ?_
  exact mirrors_join separator fun inner _ i => mirrors_evaluate hr .own hscope _

end Render

/-- **A template and its longhand are built alike.** The template is rewritten piece by piece, in
the pieces that its items are read from. The longhand can be parsed, and with any declarations
and in any session it gives the same output and the same arguments, or fails in the same place
for the same cause, unless a function asks for the template or depends on what an error quotes.
An index has 64 bits; the template, like every text in memory, is shorter. -/
theorem Node.render_longhand {registry : Registry} (hr : registry.All Action.Blind) {node : Node}
    {c : Clause} (hparse : parse node.raw = .ok c)
    (hlength : node.raw.length < Number.indexLimit) (s : Session) :
    c.Spans node.raw (c.pieces node.raw.toList) ∧
      (∃ c', parse (longhand node.raw) = .ok c') ∧
      match node.render registry s, (node.withRaw (longhand node.raw)).render registry s with
      | .ok out t, .ok out' t' => out = out' ∧ t.Alike node.raw (longhand node.raw) t'
      | .error e t, .error e' t' =>
        (∃ path, e.path = node.raw :: path ∧ e'.path = longhand node.raw :: path) ∧
          e.cause.Alike node.raw (longhand node.raw) e'.cause ∧
          t.Alike node.raw (longhand node.raw) t'
      | _, _ => False := by
  obtain ⟨c', hparse', hexprs⟩ := Template.parse_longhand hparse
  refine ⟨Template.spans_pieces hparse, ⟨c', hparse'⟩, ?_⟩
  have hlimit := (Template.parse_eq_ok_iff.mp hparse).index_lt
    (by rwa [Nat.zero_add, String.length_toList])
  have hraw : (node.scope registry).raw = node.raw := node.scope_raw registry
  have hbuild := Scope.mirrors_build (Scope.mirrors_longhand hr (t := longhand node.raw)
    (node.childrenMirror hr) hexprs hlimit)
  rw [hraw] at hbuild
  have hsession : s.Alike node.raw (longhand node.raw) s := ⟨rfl, .refl s.choice⟩
  rw [node.render_eq, (node.withRaw _).render_eq, node.finish_withRaw, node.scope_withRaw,
    Scope.render_of_parse_ok (hraw ▸ hparse), Scope.render_of_parse_ok hparse']
  rcases (hbuild hsession).cases with ⟨out, t, t', hx, hy, ht⟩ | ⟨e, e', t, t', hx, hy, he, ht⟩
  · rw [map_of_ok (within_eq_ok.mpr hx), map_of_ok (within_eq_ok.mpr hy)]
    exact ⟨rfl, ht⟩
  · rw [map_of_error (within_of_error hx _), map_of_error (within_of_error hy _), hraw]
    exact ⟨⟨e.path, rfl, congrArg (List.cons _) he.path.symm⟩, he.cause, ht⟩

/-- The first argument and the style of the session. -/
def styledSample : CustomFunction := fun _ =>
  .need .arg 1 fun out => .style fun style => .done (out ++ .ofString (Style.name style))

/-- The second column, or `NULL` if there is none. -/
def otherSample : CustomFunction := fun _ =>
  .resolve .column 2 fun
    | .ok out => .done out
    | .error _ => .done (.ofString "NULL")

def registrySample : Registry :=
  ⟨Registry.insert "other" (.custom otherSample)
    (Registry.insert "styled" (.custom styledSample) Function.builtins)⟩

theorem registrySample_blind : registrySample.All Action.Blind := by
  have hstyled : ∀ args, (styledSample args).Blind := fun _ =>
    Action.Propagates.blind (.need fun _ => .style fun _ => .done _)
      (.need fun _ => .style fun _ => .done _)
  have hother : ∀ args, (otherSample args).Blind := fun _ _ _ =>
    .resolve .column 2 .done fun _ _ _ => .done _
  have hregistry : Registry.All Action.Blind
      ⟨Registry.insert "styled" (.custom styledSample) Function.builtins⟩ :=
    .register .standard hstyled (if_pos (by decide))
  exact .register hregistry hother (if_pos (by decide))

def longhandSample : Node :=
  .segment { raw := "x = ? #styled1, #c1 #other() ?", args := [.int 1, .int 2],
             columns := [{ table := ⟨"t", ""⟩, raw := "#t1.id" }] }

def mixedSample : Node := .segment { raw := "#$1 ?", args := [.int 1] }

/-- Custom functions and a column beside placeholders, one function going on after an error; and two
styles that clash. -/
theorem Node.render_longhand_sample : ∃ out t t' e e' u u',
    longhand longhandSample.raw = "x = #?(1) #styled(1), #c(1) #other() #?(2)" ∧
    longhandSample.render registrySample {} = .ok out t ∧
    (longhandSample.withRaw (longhand longhandSample.raw)).render registrySample {} = .ok out t' ∧
    out.text = "x = ? ?positional, t.id NULL ?" ∧ t.args = t'.args ∧
    longhand mixedSample.raw = "#$(1) #?(1)" ∧
    mixedSample.render registrySample {} = .error e u ∧
    (mixedSample.withRaw (longhand mixedSample.raw)).render registrySample {} = .error e' u' ∧
    e.cause = .mixedStyles (.template mixedSample.raw) (.template mixedSample.raw) ∧
    e.cause.Alike mixedSample.raw (longhand mixedSample.raw) e'.cause := by
  obtain ⟨out, t, hx, htext⟩ := exists_ok_of_check
    (x := longhandSample.render registrySample) (s := {})
    (fun out _ => out.text == "x = ? ?positional, t.id NULL ?") (by decide +kernel)
  obtain ⟨e, u, hu, hcause⟩ := exists_error_of_check
    (x := mixedSample.render registrySample) (s := {})
    (fun e _ => e.cause == .mixedStyles (.template mixedSample.raw) (.template mixedSample.raw))
    (by decide +kernel)
  have hparses : ∀ {raw : String}, (parse raw).isOk = true → ∃ c, parse raw = .ok c := by
    intro raw h
    cases hc : parse raw with
    | error cause =>
        rw [hc] at h
        cases h
    | ok c => exact ⟨c, rfl⟩
  obtain ⟨c, hparse⟩ : ∃ c, parse longhandSample.raw = .ok c := hparses (by decide +kernel)
  obtain ⟨c', hparse'⟩ : ∃ c, parse mixedSample.raw = .ok c := hparses (by decide +kernel)
  have hok := (render_longhand registrySample_blind hparse (by decide) {}).2.2
  have herror := (render_longhand registrySample_blind hparse' (by decide) {}).2.2
  rw [hx] at hok
  rw [hu] at herror
  cases hx' : (longhandSample.withRaw (longhand longhandSample.raw)).render registrySample {} with
  | error e' t' =>
      rw [hx'] at hok
      exact hok.elim
  | ok out' t' =>
      rw [hx'] at hok
      cases hu' : (mixedSample.withRaw (longhand mixedSample.raw)).render registrySample {} with
      | ok out' u' =>
          rw [hu'] at herror
          exact herror.elim
      | error e' u' =>
          rw [hu'] at herror
          obtain ⟨rfl, hsession⟩ := hok
          exact ⟨out, t, t', e, e', u, u', by decide +kernel, hx, rfl, eq_of_beq htext,
            hsession.args, by decide +kernel, hu, rfl, eq_of_beq hcause, herror.2.1⟩

/-- The first column, or what went wrong with it. -/
def quotingSample : CustomFunction := fun _ =>
  .resolve .column 1 fun
    | .ok out => .done out
    | .error e => .done (.ofString e.message)

def quotingRegistrySample : Registry :=
  ⟨Registry.insert "f" (.custom quotingSample) Function.builtins⟩

/-- The column has a placeholder of the other style. -/
def quotedSample : Node :=
  .segment { raw := "$1 #f()", args := [.int 1],
             columns := [{ table := ⟨"t", ""⟩, raw := "x + ?", args := [.int 2] }] }

/-- A function that does not ask for the template can print what an error quotes of it. -/
theorem Node.render_quotedSample : ∃ out t out' t',
    quotingRegistrySample.All Action.AsksNoTemplate ∧
    (parse quotedSample.raw).isOk = true ∧ longhand quotedSample.raw = "#$(1) #f()" ∧
    quotedSample.render quotingRegistrySample {} = .ok out t ∧
    (quotedSample.withRaw (longhand quotedSample.raw)).render quotingRegistrySample {} =
      .ok out' t' ∧
    out.text = "$1 build 'x + ?': mixed bind-var styles between '$1 #f()' and 'x + ?'" ∧
    out'.text = "$1 build 'x + ?': mixed bind-var styles between '#$(1) #f()' and 'x + ?'" := by
  have hregister : Registry.standard.register "f" quotingSample = .ok quotingRegistrySample :=
    if_pos (by decide)
  have hr : quotingRegistrySample.All Action.AsksNoTemplate := by
    refine .register .standard (fun _ => .resolve .column 1 fun outcome => ?_) hregister
    cases outcome <;> exact .done _
  obtain ⟨out, t, hx, htext⟩ := exists_ok_of_check
    (x := quotedSample.render quotingRegistrySample) (s := {})
    (fun out _ => out.text ==
      "$1 build 'x + ?': mixed bind-var styles between '$1 #f()' and 'x + ?'")
    (by decide +kernel)
  obtain ⟨out', t', hx', htext'⟩ := exists_ok_of_check
    (x := (quotedSample.withRaw (longhand quotedSample.raw)).render quotingRegistrySample)
    (s := {})
    (fun out _ => out.text ==
      "$1 build 'x + ?': mixed bind-var styles between '#$(1) #f()' and 'x + ?'")
    (by decide +kernel)
  exact ⟨out, t, out', t', hr, by decide +kernel, by decide +kernel, hx, hx', eq_of_beq htext,
    eq_of_beq htext'⟩

end SqlTemplate
