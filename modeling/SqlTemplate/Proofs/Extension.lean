import SqlTemplate.Proofs.Tree

/-!
# What rendering does to a session

A session changes in two ways only: an argument is appended, or an open style is
settled. A relation that admits both, and is reflexive and transitive, holds
between the session before and the session after whatever is rendered, whether
it succeeds or fails (`Segment.render_moves`). The first use is that arguments
are only appended and a settled style stays (`Session.Extends`).
-/

namespace SqlTemplate

open Render

/-- Whatever the outcome, the state before is related to the state after. -/
def Moves {ε σ α : Type} (R : σ → σ → Prop) (x : EStateM ε σ α) : Prop :=
  ∀ s, match x s with
    | .ok _ s' => R s s'
    | .error _ s' => R s s'

namespace Moves

variable {ε σ α β : Type} {R : σ → σ → Prop}

theorem ok {x : EStateM ε σ α} (hx : Moves R x) {s s' : σ} {a : α} (h : x s = .ok a s') :
    R s s' := by
  have := hx s
  rwa [h] at this

theorem pure (hrefl : ∀ s, R s s) (a : α) : Moves R (pure a : EStateM ε σ α) :=
  fun s => hrefl s

theorem throw (hrefl : ∀ s, R s s) (e : ε) : Moves R (throw e : EStateM ε σ α) :=
  fun s => hrefl s

theorem bind (htrans : ∀ s₁ s₂ s₃, R s₁ s₂ → R s₂ s₃ → R s₁ s₃) {x : EStateM ε σ α}
    {f : α → EStateM ε σ β} (hx : Moves R x) (hf : ∀ s a s', x s = .ok a s' → Moves R (f a)) :
    Moves R (x >>= f) := by
  intro s
  have h₁ := hx s
  show match EStateM.bind x f s with | .ok _ s' => R s s' | .error _ s' => R s s'
  unfold EStateM.bind
  cases hs : x s with
  | error e s' =>
      rw [hs] at h₁
      exact h₁
  | ok a s' =>
      rw [hs] at h₁
      have h₂ := hf s a s' hs s'
      dsimp only at h₁ ⊢
      cases hs' : f a s' with
      | error e s'' =>
          rw [hs'] at h₂
          exact htrans _ _ _ h₁ h₂
      | ok b s'' =>
          rw [hs'] at h₂
          exact htrans _ _ _ h₁ h₂

theorem get (hrefl : ∀ s, R s s) : Moves R (MonadState.get : EStateM ε σ σ) :=
  fun s => hrefl s

theorem modify {g : σ → σ} (hg : ∀ s, R s (g s)) : Moves R (modify g : EStateM ε σ PUnit) :=
  fun s => hg s

theorem map {x : EStateM ε σ α} (g : α → β) (hx : Moves R x) : Moves R (g <$> x) := by
  intro s
  have h := hx s
  show match EStateM.map g x s with | .ok _ s' => R s s' | .error _ s' => R s s'
  unfold EStateM.map
  cases hs : x s <;> rw [hs] at h <;> exact h

theorem within {raw : String} {x : EStateM Error σ α} (hx : Moves R x) :
    Moves R (SqlTemplate.within raw x) := by
  intro s
  have h := hx s
  unfold SqlTemplate.within
  cases hs : x s <;> rw [hs] at h <;> exact h

theorem observing {x : EStateM ε σ α} (hx : Moves R x) : Moves R (observing x) := by
  intro s
  have h := hx s
  cases hs : x s with
  | ok a s' =>
      rw [hs] at h
      rw [observing_of_ok hs]
      exact h
  | error e s' =>
      rw [hs] at h
      rw [observing_of_error hs]
      exact h

theorem liftCause (hrefl : ∀ s, R s s) (x : Except Cause α) :
    Moves R (SqlTemplate.liftCause x : EStateM Error σ α) := by
  cases x with
  | ok a => exact pure hrefl a
  | error cause => exact throw hrefl _

end Moves

/-- The relation between frames that a relation between sessions gives. -/
def OnSession (R : Session → Session → Prop) (f f' : Frame) : Prop := R f.session f'.session

/-- The relation allows every change that rendering makes to a session. -/
structure Session.Admits (R : Session → Session → Prop) : Prop where
  refl : ∀ s, R s s
  trans : ∀ s₁ s₂ s₃, R s₁ s₂ → R s₂ s₃ → R s₁ s₃
  append : ∀ s v, R s { s with args := s.args ++ [v] }
  observe : ∀ (s : Session) marker raw st choice,
    s.choice.observe marker raw = .ok (st, choice) → R s { s with choice }

section Rendering

variable {R : Session → Session → Prop} (hR : Session.Admits R)

include hR

theorem RenderM.append_moves (v : Value) : Moves R (RenderM.append v) :=
  fun s => hR.append s v

theorem RenderM.observe_moves (marker : Style) (raw : String) :
    Moves R (RenderM.observe marker raw) := by
  intro s
  rw [RenderM.observe_apply]
  cases hobs : s.choice.observe marker raw with
  | ok p => exact hR.observe s marker raw p.1 p.2 hobs
  | error cause => exact hR.refl s

namespace Render

theorem onSession_refl (f : Frame) : OnSession R f f := hR.refl f.session

theorem onSession_trans (f₁ f₂ f₃ : Frame) (h₁ : OnSession R f₁ f₂) (h₂ : OnSession R f₂ f₃) :
    OnSession R f₁ f₃ :=
  hR.trans _ _ _ h₁ h₂

omit hR in
theorem ScopeM.ofRender_moves {α : Type} {x : RenderM α} (hx : Moves R x) :
    Moves (OnSession R) (ScopeM.ofRender x) := by
  intro f
  have h := hx f.session
  unfold ScopeM.ofRender
  cases hs : x f.session <;> rw [hs] at h <;> exact h

omit hR in
theorem ScopeM.runFresh_moves {α : Type} {x : ScopeM α} (hx : Moves (OnSession R) x) :
    Moves R (ScopeM.runFresh x) := by
  intro s
  have h := hx { session := s }
  unfold ScopeM.runFresh
  cases hs : x { session := s } <;> rw [hs] at h <;> exact h

theorem ScopeM.declared_moves {α : Type} (kind : DeclKind) (xs : List α) (index : Nat) :
    Moves (OnSession R) (ScopeM.declared kind xs index) := by
  rw [ScopeM.declared_eq]
  cases declaration? xs index with
  | none => exact .throw (onSession_refl hR) _
  | some a =>
      exact .bind (onSession_trans hR) (.modify fun f => hR.refl f.session) fun _ _ _ _ =>
        .pure (onSession_refl hR) a

theorem ScopeM.style_moves : Moves (OnSession R) ScopeM.style :=
  .bind (onSession_trans hR) (.get (onSession_refl hR)) fun _ _ _ _ => .pure (onSession_refl hR) _

theorem ScopeM.slot_moves (index : Nat) (v : Value) :
    Moves (OnSession R) (ScopeM.slot index v) := by
  have htrans := onSession_trans hR
  refine .bind htrans (.get (onSession_refl hR)) ?_
  intro _ f _ _
  dsimp only
  cases f.memo.slots.lookup index with
  | some n => exact .pure (onSession_refl hR) n
  | none =>
      refine .bind htrans (ofRender_moves (RenderM.append_moves hR v)) fun _ n _ _ => ?_
      exact .bind htrans (.modify fun f => hR.refl f.session) fun _ _ _ _ =>
        .pure (onSession_refl hR) n

theorem ScopeM.renderChild_moves (r : Reference) {c : Child} (hc : Moves R c.render) :
    Moves (OnSession R) (ScopeM.renderChild r c) := by
  have htrans := onSession_trans hR
  refine .bind htrans (ofRender_moves hc) fun _ out _ _ => ?_
  exact .bind htrans (.modify fun f => hR.refl f.session) fun _ _ _ _ =>
    .pure (onSession_refl hR) out

namespace Scope

theorem bind_moves (scope : Scope) (marker : Style) (index : Nat) :
    Moves (OnSession R) (scope.bind marker index) := by
  have htrans := onSession_trans hR
  refine .bind htrans (ScopeM.ofRender_moves (RenderM.observe_moves hR marker scope.raw)) ?_
  intro _ st _ _
  refine .bind htrans (ScopeM.declared_moves hR .arg scope.args index) ?_
  intro _ v _ _
  cases st with
  | indexed =>
      exact .bind htrans (ScopeM.slot_moves hR index v) fun _ _ _ _ =>
        .pure (onSession_refl hR) _
  | positional =>
      exact .bind htrans (ScopeM.ofRender_moves (RenderM.append_moves hR v)) fun _ _ _ _ =>
        .pure (onSession_refl hR) _

theorem child_moves (kind : DeclKind) {children : List Child}
    (hc : ∀ c ∈ children, Moves R c.render) (index : Nat) :
    Moves (OnSession R) (child kind children index) := by
  have htrans := onSession_trans hR
  refine .bind htrans (ScopeM.declared_moves hR kind children index) ?_
  intro f c f' hdecl
  have hrender : Moves R c.render :=
    hc c (mem_of_declaration? (ScopeM.declared_eq_ok.mp hdecl).1)
  refine .bind htrans (.get (onSession_refl hR)) ?_
  intro _ g _ _
  split
  · exact ScopeM.renderChild_moves hR _ hrender
  · cases g.memo.texts.lookup ⟨kind, index⟩ with
    | some out => exact .pure (onSession_refl hR) out
    | none => exact ScopeM.renderChild_moves hR _ hrender

/-- The columns and segments of the scope change a session only as `R` admits. -/
def ChildrenMove (R : Session → Session → Prop) (scope : Scope) : Prop :=
  (∀ c ∈ scope.columns, Moves R c.render) ∧ ∀ c ∈ scope.segments, Moves R c.render

theorem resolve_moves {scope : Scope} (hs : scope.ChildrenMove R) (index : Nat) (kind : DeclKind) :
    Moves (OnSession R) (scope.resolve index kind) := by
  have htrans := onSession_trans hR
  cases kind with
  | arg =>
      exact .bind htrans (ScopeM.style_moves hR) fun _ _ _ _ => bind_moves hR scope _ index
  | column => exact child_moves hR .column hs.1 index
  | table =>
      exact .bind htrans (ScopeM.declared_moves hR .table scope.tables index) fun _ _ _ _ =>
        .pure (onSession_refl hR) _
  | segment => exact child_moves hR .segment hs.2 index

theorem closed_moves {scope : Scope} (hs : scope.ChildrenMove R) :
    scope.Closed fun _ => Moves (OnSession R) where
  pure := .pure (onSession_refl hR)
  throw := .throw (onSession_refl hR)
  map g _ := .map g
  bind hx hf := .bind (onSession_trans hR) hx fun _ a _ _ => hf a
  within := .within
  style := ScopeM.style_moves hR
  placeholder := bind_moves hR scope
  resolve kind index := resolve_moves hR hs index kind

theorem follow_moves {scope : Scope} (hs : scope.ChildrenMove R) (a : Action) :
    Moves (OnSession R) (scope.follow a) :=
  (closed_moves hR hs).follow (fun kind index => .observing (resolve_moves hR hs index kind)) a

theorem render_moves {scope : Scope} (hs : scope.ChildrenMove R) (registry : Registry) :
    Moves R (scope.render registry) := by
  unfold Scope.render
  refine .within (.bind hR.trans (.liftCause hR.refl _) fun _ c _ _ => ?_)
  have heval : Moves (OnSession R) (evaluate registry scope c) :=
    (closed_moves hR hs).evaluate (fun _ f _ args => follow_moves hR hs (f args)) c
  refine .bind hR.trans (ScopeM.runFresh_moves heval) fun _ p _ _ => ?_
  exact .bind hR.trans (.liftCause hR.refl _) fun _ _ _ _ => .pure hR.refl _

end Scope

namespace Part

variable {scope : Scope}

theorem run_moves (hs : scope.ChildrenMove R) (p : Part) : Moves (OnSession R) (p.run scope) :=
  (Scope.closed_moves hR hs).run (Scope.follow_moves hR hs) p

theorem runAll_moves (hs : scope.ChildrenMove R) (parts : List Part) :
    Moves (OnSession R) (Part.runAll scope parts) :=
  (Scope.closed_moves hR hs).runAll fun p _ => p.run_moves hR hs

theorem runEach_moves (hs : scope.ChildrenMove R) (template : String)
    (iterations : List (List Part)) :
    Moves (OnSession R) (Part.runEach scope template iterations) :=
  (Scope.closed_moves hR hs).runEach template fun _ _ p _ => p.run_moves hR hs

end Part

end Render

omit hR in
theorem Column.childrenMove (c : Column) : c.scope.ChildrenMove R := by
  refine ⟨?_, ?_⟩
  · intro child hchild
    cases hchild
  · intro child hchild
    cases hchild

theorem Column.render_moves (registry : Registry) (c : Column) : Moves R (c.render registry) :=
  .map _ (Scope.render_moves hR c.childrenMove registry)

/-- **Whatever is rendered** changes the session only as an admissible relation allows. -/
theorem Segment.render_moves (registry : Registry) (s : Segment) :
    Moves R (s.render registry) := by
  induction s using Segment.induction with
  | step s ih =>
      rw [Segment.render_eq]
      refine .map _ (Scope.render_moves hR ⟨?_, ?_⟩ registry)
      · intro child hchild
        obtain ⟨c, _, rfl⟩ := List.mem_map.mp hchild
        exact Column.render_moves hR registry c
      · intro child hchild
        obtain ⟨c, hc, rfl⟩ := List.mem_map.mp hchild
        exact ih c hc

theorem Segment.childrenMove (registry : Registry) (s : Segment) :
    (s.scope registry).ChildrenMove R := by
  refine ⟨?_, ?_⟩
  · intro child hchild
    obtain ⟨c, _, rfl⟩ := List.mem_map.mp hchild
    exact Column.render_moves hR registry c
  · intro child hchild
    obtain ⟨c, _, rfl⟩ := List.mem_map.mp hchild
    exact Segment.render_moves hR registry c

end Rendering

/-! ## Sessions only grow -/

/-- The arguments are an initial part of those after, and a settled style is the same after. -/
structure Session.Extends (s s' : Session) : Prop where
  args : s.args <+: s'.args
  choice : s.style ≠ none → s'.choice = s.choice

theorem Session.admits_extends : Session.Admits Session.Extends where
  refl s := ⟨List.prefix_rfl, fun _ => rfl⟩
  trans s₁ s₂ s₃ h₁ h₂ := by
    refine ⟨h₁.args.trans h₂.args, ?_⟩
    intro hst
    have hchoice := h₁.choice hst
    have hst₂ : s₂.style ≠ none := by
      unfold Session.style at hst ⊢
      rwa [hchoice]
    rw [h₂.choice hst₂, hchoice]
  append s v := ⟨List.prefix_append _ _, fun _ => rfl⟩
  observe s marker raw st choice hobs := by
    refine ⟨List.prefix_rfl, ?_⟩
    intro hst
    obtain ⟨st₀, hst₀⟩ := Option.ne_none_iff_exists'.mp hst
    exact StyleChoice.observe_settled hobs hst₀

theorem Segment.render_extends {registry : Registry} {seg : Segment} {s s' : Session}
    {out : Output} (h : seg.render registry s = .ok out s') : s.Extends s' :=
  (seg.render_moves Session.admits_extends registry).ok h

/-- A style that was settled before is the style after. -/
theorem Session.Extends.style_eq {s s' : Session} (h : s.Extends s') {st : Style}
    (hst : s.style = some st) : s'.style = some st := by
  have hchoice := h.choice (by rw [hst]; simp)
  unfold Session.style at hst ⊢
  rwa [hchoice]

end SqlTemplate
