import SqlTemplate.Proofs.Conservation

/-!
# Inferred and configured styles

While the style of a session is open, a child is rendered once; in positional style
one with arguments is rendered at each reference. So a text that was remembered while
the style was open could make a build differ from one in which the style was settled
by the caller beforehand. It does not: a child with arguments has placeholders, and
after its first rendering the style is not open any more (`Segment.settles`). Two
builds, one in which the style is inferred and one in which it was configured, go in
lockstep through the whole tree, up to a placeholder of another style.
-/

namespace SqlTemplate

open Render
open Template (parse)

/-! ## Outcomes side by side -/

def Error.IsMixed (e : Error) : Prop := ∃ first second, e.cause = .mixedStyles first second

/-- The state at the end, whether or not there is a result. -/
def finish {σ α : Type} : EStateM.Result Error σ α → σ
  | .ok _ s => s
  | .error _ s => s

/-- Two outcomes are the same, in states that `R` relates; or the first one is that styles are
mixed. -/
inductive Agree {σ α : Type} (R : σ → σ → Prop) :
    EStateM.Result Error σ α → EStateM.Result Error σ α → Prop
  | ok (a : α) {s t : σ} (h : R s t) : Agree R (.ok a s) (.ok a t)
  | error (e : Error) {s t : σ} (h : R s t) : Agree R (.error e s) (.error e t)
  | mixed {e : Error} (he : e.IsMixed) {s : σ} {r : EStateM.Result Error σ α} :
    Agree R (.error e s) r

section Agree

variable {σ α β : Type} {R : σ → σ → Prop}

theorem Agree.cases {r r' : EStateM.Result Error σ α} (h : Agree R r r') :
    (∃ a s t, r = .ok a s ∧ r' = .ok a t ∧ R s t) ∨
      (∃ e s t, r = .error e s ∧ r' = .error e t ∧ R s t) ∨
      ∃ e s, r = .error e s ∧ e.IsMixed := by
  cases h with
  | @ok a s t h => exact .inl ⟨a, s, t, rfl, rfl, h⟩
  | @error e s t h => exact .inr (.inl ⟨e, s, t, rfl, rfl, h⟩)
  | @mixed e he s => exact .inr (.inr ⟨e, s, rfl, he⟩)

theorem Agree.map (g : α → β) {x y : EStateM Error σ α} {s t : σ} (h : Agree R (x s) (y t)) :
    Agree R ((g <$> x) s) ((g <$> y) t) := by
  rcases h.cases with ⟨a, s', t', hx, hy, hR⟩ | ⟨e, s', t', hx, hy, hR⟩ | ⟨e, s', hx, he⟩
  · rw [map_of_ok hx, map_of_ok hy]
    exact .ok _ hR
  · rw [map_of_error hx, map_of_error hy]
    exact .error e hR
  · rw [map_of_error hx]
    exact .mixed he

theorem Agree.within (raw : String) {x y : EStateM Error σ α} {s t : σ}
    (h : Agree R (x s) (y t)) : Agree R (within raw x s) (within raw y t) := by
  unfold SqlTemplate.within
  rcases h.cases with ⟨a, s', t', hx, hy, hR⟩ | ⟨e, s', t', hx, hy, hR⟩ | ⟨e, s', hx, he⟩
  · rw [hx, hy]
    exact .ok a hR
  · rw [hx, hy]
    exact .error _ hR
  · have hwithin : (e.within raw).IsMixed := he
    rw [hx]
    exact .mixed hwithin

theorem finish_map (g : α → β) (x : EStateM Error σ α) (s : σ) :
    finish ((g <$> x) s) = finish (x s) := by
  cases hx : x s with
  | ok a s' => rw [map_of_ok hx]; rfl
  | error e s' => rw [map_of_error hx]; rfl

theorem finish_within (raw : String) (x : EStateM Error σ α) (s : σ) :
    finish (within raw x s) = finish (x s) := by
  unfold within
  cases x s <;> rfl

theorem Moves.finish {E : σ → σ → Prop} {x : EStateM Error σ α} (h : Moves E x) (s : σ) :
    E s (finish (x s)) := by
  have := h s
  cases hx : x s <;> rw [hx] at this <;> exact this

/-- The end of the first part is before the end of the whole. -/
theorem finish_bind {E : σ → σ → Prop} (hrefl : ∀ s, E s s) (x : EStateM Error σ α)
    {k : α → EStateM Error σ β} (hk : ∀ a, Moves E (k a)) (s : σ) :
    E (finish (x s)) (finish ((x >>= k) s)) := by
  cases hx : x s with
  | ok a s' =>
      rw [bind_of_ok hx]
      exact (hk a).finish s'
  | error e s' =>
      rw [bind_of_error hx]
      exact hrefl s'

end Agree

theorem Session.Extends.style_eq_none {s s' : Session} (h : s.Extends s') (hs' : s'.style = none) :
    s.style = none := by
  cases hs : s.style with
  | none => rfl
  | some st =>
      rw [h.style_eq hs] at hs'
      cases hs'

/-- A session whose style is inferred, as `st` if it is not open any more, and one for which `st`
was configured. -/
structure Session.Infers (st : Style) (s t : Session) : Prop where
  args : s.args = t.args
  inferred : s.choice = .open ∨ ∃ origin, s.choice = .inferred st origin
  configured : t.choice = .configured st

theorem Session.Infers.style_cases {st : Style} {s t : Session} (h : s.Infers st t) :
    s.style = none ∨ s.style = some st := by
  unfold Session.style
  rcases h.inferred with hchoice | ⟨origin, hchoice⟩
  · exact .inl (by rw [hchoice]; rfl)
  · exact .inr (by rw [hchoice]; rfl)

theorem Session.Infers.style_configured {st : Style} {s t : Session} (h : s.Infers st t) :
    t.style = some st := by
  rw [Session.style, h.configured]
  rfl

theorem Session.Infers.append {st : Style} {s t : Session} (h : s.Infers st t) (v : Value) :
    Session.Infers st { s with args := s.args ++ [v] } { t with args := t.args ++ [v] } where
  args := by rw [h.args]
  inferred := h.inferred
  configured := h.configured

namespace Render

/-- The child that a reference leads to. -/
def Scope.child? (scope : Scope) : Reference → Option Child
  | ⟨.column, index⟩ => declaration? scope.columns index
  | ⟨.segment, index⟩ => declaration? scope.segments index
  | _ => none

/-- The frames of two builds of a template. While the style is open, there is no text of a child
with arguments, which would not be used again in positional style. -/
structure Frame.Infers (scope : Scope) (st : Style) (f g : Frame) : Prop where
  session : f.session.Infers st g.session
  memo : f.memo = g.memo
  unsettled : f.session.style = none → ∀ {r out}, f.memo.texts.lookup r = some out →
    ∀ {c}, scope.child? r = some c → c.hasArgs = false

/-- Two computations in a scope go in lockstep, as long as no style but `st` is settled. -/
structure Lockstep (scope : Scope) (st : Style) {α : Type} (x y : ScopeM α) : Prop where
  moves : Moves (OnSession Session.Extends) x
  agree : ∀ ⦃f g : Frame⦄, f.Infers scope st g → (finish (x f)).session.OpenTo st →
    Agree (Frame.Infers scope st) (x f) (y g)

namespace Lockstep

variable {scope : Scope} {st : Style} {α β : Type}

theorem pure (a : α) : Lockstep scope st (pure a) (pure a) where
  moves := .pure (onSession_refl Session.admits_extends) a
  agree _ _ h _ := .ok a h

theorem throw (e : Error) : Lockstep (α := α) scope st (throw e) (throw e) where
  moves := .throw (onSession_refl Session.admits_extends) e
  agree _ _ h _ := .error e h

theorem bind {x y : ScopeM α} {k l : α → ScopeM β} (hxy : Lockstep scope st x y)
    (hkl : ∀ a, Lockstep scope st (k a) (l a)) : Lockstep scope st (x >>= k) (y >>= l) where
  moves := .bind (onSession_trans Session.admits_extends) hxy.moves fun _ a _ _ => (hkl a).moves
  agree f g h ho := by
    -- What the first part settles is settled at the end.
    have hbefore : (finish (x f)).session.OpenTo st :=
      ho.before (finish_bind (onSession_refl Session.admits_extends) x (fun a => (hkl a).moves) f)
    rcases (hxy.agree h hbefore).cases with
      ⟨a, f', g', hx, hy, h'⟩ | ⟨e, f', g', hx, hy, h'⟩ | ⟨e, f', hx, he⟩
    · rw [bind_of_ok hx] at ho ⊢
      rw [bind_of_ok hy]
      exact (hkl a).agree h' ho
    · rw [bind_of_error hx, bind_of_error hy]
      exact .error e h'
    · rw [bind_of_error hx]
      exact .mixed he

theorem map (g : α → β) {x y : ScopeM α} (h : Lockstep scope st x y) :
    Lockstep scope st (g <$> x) (g <$> y) where
  moves := .map g h.moves
  agree _ _ hframes ho := .map g (h.agree hframes (by rwa [finish_map] at ho))

theorem within (raw : String) {x y : ScopeM α} (h : Lockstep scope st x y) :
    Lockstep scope st (within raw x) (within raw y) where
  moves := .within h.moves
  agree _ _ hframes ho := .within raw (h.agree hframes (by rwa [finish_within] at ho))

end Lockstep

/-! ## References -/

theorem ScopeM.slot_apply (index : Nat) (v : Value) (f : Frame) :
    slot index v f =
      match f.memo.slots.lookup index with
      | some n => .ok n f
      | none => .ok (f.session.args.length + 1)
          { session := { f.session with args := f.session.args ++ [v] },
            memo := { f.memo with
              slots := (index, f.session.args.length + 1) :: f.memo.slots } } := by
  unfold slot
  show EStateM.bind (fun f => .ok f f) _ f = _
  simp only [EStateM.bind]
  cases f.memo.slots.lookup index <;> rfl

/-- The second frame is the first one but for arguments and their slots. -/
structure Frame.Beside (f f' : Frame) : Prop where
  choice : f'.session.choice = f.session.choice
  used : f'.memo.used = f.memo.used
  texts : f'.memo.texts = f.memo.texts

theorem ScopeM.slot_beside (index : Nat) (v : Value) (f : Frame) :
    ∃ n f', slot index v f = .ok n f' ∧ f.Beside f' := by
  rw [slot_apply]
  cases f.memo.slots.lookup index with
  | some n => exact ⟨n, f, rfl, rfl, rfl, rfl⟩
  | none => exact ⟨_, _, rfl, rfl, rfl, rfl⟩

theorem ScopeM.append_beside (v : Value) (f : Frame) :
    ∃ n f', ofRender (RenderM.append v) f = .ok n f' ∧ f.Beside f' :=
  ⟨_, _, rfl, rfl, rfl, rfl⟩

theorem ScopeM.observe_of_ok {marker st : Style} {raw : String} {choice : StyleChoice}
    {f : Frame} (h : f.session.choice.observe marker raw = .ok (st, choice)) :
    ofRender (RenderM.observe marker raw) f =
      .ok st { f with session := { f.session with choice } } := by
  rw [ofRender, RenderM.observe_apply, h]

theorem ScopeM.observe_of_error {marker : Style} {raw : String} {cause : Cause} {f : Frame}
    (h : f.session.choice.observe marker raw = .error cause) :
    ofRender (RenderM.observe marker raw) f = .error (.ofCause cause) f := by
  rw [ofRender, RenderM.observe_apply, h]

/-- The frames go on when the memo gets no text. -/
theorem Frame.Infers.step {scope : Scope} {st : Style} {f g f' g' : Frame}
    (h : f.Infers scope st g) (hsession : f'.session.Infers st g'.session)
    (hmemo : f'.memo = g'.memo) (htexts : f'.memo.texts = f.memo.texts)
    (hext : f.session.Extends f'.session) : f'.Infers scope st g' where
  session := hsession
  memo := hmemo
  unsettled hst _ _ hl _ hc := h.unsettled (hext.style_eq_none hst) (htexts ▸ hl) hc

/-- What the memo knows is rendered anew in both builds, or in neither. -/
theorem Frame.Infers.anew_iff {scope : Scope} {st : Style} {f g : Frame}
    (h : f.Infers scope st g) {r : Reference} {c : Child} (hr : scope.child? r = some c)
    {out : Output} (hl : f.memo.texts.lookup r = some out) :
    (g.session.style = some .positional ∧ c.hasArgs) ↔
      (f.session.style = some .positional ∧ c.hasArgs) := by
  rcases h.session.style_cases with hst | hst
  · simp [h.unsettled hst hl hr]
  · rw [hst, h.session.style_configured]

theorem Frame.Infers.refer {scope : Scope} {st : Style} {f g : Frame} (h : f.Infers scope st g)
    (r : Reference) : (f.refer r).Infers scope st (g.refer r) :=
  h.step h.session (by simp [Frame.refer, h.memo]) rfl (Session.admits_extends.refl _)

namespace Lockstep

variable {scope : Scope} {st : Style}

theorem declared {α : Type} (kind : DeclKind) (xs : List α) (index : Nat) :
    Lockstep scope st (ScopeM.declared kind xs index) (ScopeM.declared kind xs index) := by
  rw [ScopeM.declared_eq]
  cases declaration? xs index with
  | none => exact throw _
  | some a =>
      refine bind ⟨?_, ?_⟩ fun _ => pure a
      · exact .modify fun f => Session.admits_extends.refl f.session
      · intro f g h _
        exact .ok _ (h.refer ⟨kind, index⟩)

theorem append (v : Value) :
    Lockstep scope st (ScopeM.ofRender (RenderM.append v)) (ScopeM.ofRender (RenderM.append v))
    where
  moves := ScopeM.ofRender_moves (RenderM.append_moves Session.admits_extends v)
  agree f g h _ := by
    have hlength : f.session.args.length = g.session.args.length := by rw [h.session.args]
    show Agree _ (.ok (f.session.args.length + 1) _) (.ok (g.session.args.length + 1) _)
    rw [hlength]
    exact .ok _ (h.step (h.session.append v) h.memo rfl (Session.admits_extends.append _ v))

theorem slot (index : Nat) (v : Value) :
    Lockstep scope st (ScopeM.slot index v) (ScopeM.slot index v) where
  moves := ScopeM.slot_moves Session.admits_extends index v
  agree f g h _ := by
    have hlength : f.session.args.length = g.session.args.length := by rw [h.session.args]
    rw [ScopeM.slot_apply, ScopeM.slot_apply, ← h.memo]
    cases f.memo.slots.lookup index with
    | some n => exact .ok n h
    | none =>
        dsimp only
        rw [hlength]
        exact .ok _ (h.step (h.session.append v) rfl rfl (Session.admits_extends.append _ v))

/-- A placeholder is rendered in the same style, whatever style it is marked with where the style
is configured. -/
theorem observe (marker marker' : Style) (raw : String) :
    Lockstep scope st (ScopeM.ofRender (RenderM.observe marker raw))
      (ScopeM.ofRender (RenderM.observe marker' raw)) where
  moves := ScopeM.ofRender_moves (RenderM.observe_moves Session.admits_extends marker raw)
  agree f g h ho := by
    have hconfigured : g.session.choice.observe marker' raw = .ok (st, .configured st) := by
      rw [h.session.configured]
      rfl
    rw [ScopeM.observe_of_ok hconfigured]
    rcases h.session.inferred with hchoice | ⟨origin, hchoice⟩
    · have hopen : f.session.choice.observe marker raw = .ok (marker, .inferred marker raw) := by
        rw [hchoice]
        rfl
      rw [ScopeM.observe_of_ok hopen] at ho ⊢
      obtain rfl : marker = st := ho marker rfl
      refine .ok _ (h.step ⟨h.session.args, .inr ⟨raw, rfl⟩, rfl⟩ h.memo rfl ?_)
      exact Session.admits_extends.observe _ _ _ _ _ hopen
    · by_cases hst : st = marker
      · have hsame : f.session.choice.observe marker raw = .ok (st, .inferred st origin) := by
          rw [hchoice, StyleChoice.observe, if_pos hst]
        rw [ScopeM.observe_of_ok hsame]
        refine .ok _ (h.step ⟨h.session.args, .inr ⟨origin, rfl⟩, rfl⟩ h.memo rfl ?_)
        exact Session.admits_extends.observe _ _ _ _ _ hsame
      · have hmixed : f.session.choice.observe marker raw =
            .error (.mixedStyles (.template origin) (.template raw)) := by
          rw [hchoice, StyleChoice.observe, if_neg hst]
        rw [ScopeM.observe_of_error hmixed]
        exact .mixed ⟨_, _, rfl⟩

theorem placeholder (marker marker' : Style) (index : Nat) :
    Lockstep scope st (scope.bind marker index) (scope.bind marker' index) := by
  refine bind (observe marker marker' scope.raw) fun style => ?_
  refine bind (declared .arg scope.args index) fun v => ?_
  cases style with
  | indexed => exact bind (slot index v) fun n => pure _
  | positional => exact bind (append v) fun n => pure _

theorem argument (index : Nat) :
    Lockstep scope st (scope.argument index) (scope.argument index) where
  moves := .bind (onSession_trans Session.admits_extends)
    (ScopeM.style_moves Session.admits_extends) fun _ style _ _ =>
      Scope.bind_moves Session.admits_extends scope (style.getD .indexed) index
  agree _ _ h ho := (placeholder _ _ index).agree h ho

end Lockstep

/-- Two builds of a child go in lockstep, and one with arguments settles the style. -/
structure Child.Infers (st : Style) (c : Child) : Prop where
  moves : Moves Session.Extends c.render
  settles : c.hasArgs = true → ∀ ⦃s s' : Session⦄ ⦃out : Output⦄, c.render s = .ok out s' →
    s'.style ≠ none
  agree : ∀ ⦃s t : Session⦄, s.Infers st t → (finish (c.render s)).OpenTo st →
    Agree (Session.Infers st) (c.render s) (c.render t)

theorem ScopeM.renderChild_apply (r : Reference) (c : Child) (f : Frame) :
    renderChild r c f =
      match c.render f.session with
      | .ok out s => .ok out ⟨s, { f.memo with texts := (r, out) :: f.memo.texts }⟩
      | .error e s => .error e { f with session := s } := by
  unfold renderChild ofRender
  show EStateM.bind _ _ f = _
  simp only [EStateM.bind]
  cases c.render f.session <;> rfl

theorem Scope.child_apply (kind : DeclKind) (children : List Child) (index : Nat) (f : Frame) :
    child kind children index f =
      match declaration? children index with
      | none => .error (.ofCause (.indexOutOfRange kind index children.length)) f
      | some c =>
        if f.session.style = some .positional ∧ c.hasArgs then
          ScopeM.renderChild ⟨kind, index⟩ c (f.refer ⟨kind, index⟩)
        else
          match f.memo.texts.lookup ⟨kind, index⟩ with
          | some out => .ok out (f.refer ⟨kind, index⟩)
          | none => ScopeM.renderChild ⟨kind, index⟩ c (f.refer ⟨kind, index⟩) := by
  unfold child
  rw [ScopeM.declared_eq]
  cases declaration? children index with
  | none => rfl
  | some c =>
      show (if f.session.style = some .positional ∧ c.hasArgs then
          ScopeM.renderChild ⟨kind, index⟩ c
        else match f.memo.texts.lookup ⟨kind, index⟩ with
          | some out => pure out
          | none => ScopeM.renderChild ⟨kind, index⟩ c) (f.refer ⟨kind, index⟩) = _
      dsimp only
      by_cases hagain : f.session.style = some .positional ∧ c.hasArgs
      · rw [if_pos hagain, if_pos hagain]
      · rw [if_neg hagain, if_neg hagain]
        cases f.memo.texts.lookup ⟨kind, index⟩ <;> rfl

namespace Lockstep

variable {scope : Scope} {st : Style}

theorem renderChild {r : Reference} {c : Child} (hc : c.Infers st)
    (hr : scope.child? r = some c) :
    Lockstep scope st (ScopeM.renderChild r c) (ScopeM.renderChild r c) where
  moves := ScopeM.renderChild_moves Session.admits_extends r hc.moves
  agree f g h ho := by
    have hbefore : (finish (c.render f.session)).OpenTo st := by
      rw [ScopeM.renderChild_apply] at ho
      cases hx : c.render f.session <;> rw [hx] at ho <;> exact ho
    have hext := hc.moves.finish f.session
    rw [ScopeM.renderChild_apply, ScopeM.renderChild_apply]
    rcases (hc.agree h.session hbefore).cases with
      ⟨out, s, t, hx, hy, hs⟩ | ⟨e, s, t, hx, hy, hs⟩ | ⟨e, s, hx, he⟩
    · rw [hx] at hext
      rw [hx, hy]
      refine .ok out ⟨hs, by rw [h.memo], fun hst r' out' hl c' hc' => ?_⟩
      rw [List.lookup_cons] at hl
      split at hl
      · rename_i hr'
        rw [eq_of_beq hr', hr] at hc'
        cases hc'
        -- With arguments the child would have settled the style.
        cases hargs : c.hasArgs with
        | false => rfl
        | true => exact absurd hst (hc.settles hargs hx)
      · exact h.unsettled (hext.style_eq_none hst) hl hc'
    · rw [hx] at hext
      rw [hx, hy]
      exact .error e (h.step hs h.memo rfl hext)
    · rw [hx]
      exact .mixed he

/-- A child is rendered in both builds, or in neither. -/
theorem child {kind : DeclKind} {children : List Child}
    (hchildren : ∀ c ∈ children, c.Infers st)
    (hchild : ∀ index, scope.child? ⟨kind, index⟩ = declaration? children index) (index : Nat) :
    Lockstep scope st (Scope.child kind children index) (Scope.child kind children index) where
  moves := Scope.child_moves Session.admits_extends kind (fun c hc => (hchildren c hc).moves) index
  agree f g h ho := by
    rw [Scope.child_apply] at ho ⊢
    rw [Scope.child_apply]
    cases hdecl : declaration? children index with
    | none => exact .error _ h
    | some c =>
        have hc : c.Infers st := hchildren c (mem_of_declaration? hdecl)
        have hr : scope.child? ⟨kind, index⟩ = some c := (hchild index).trans hdecl
        have hrender := (renderChild hc hr).agree (h.refer ⟨kind, index⟩)
        rw [hdecl] at ho
        dsimp only at ho ⊢
        rw [← h.memo]
        cases hl : f.memo.texts.lookup ⟨kind, index⟩ with
        | none =>
            rw [hl, ite_self] at ho
            rw [ite_self, ite_self]
            exact hrender ho
        | some out =>
            rw [hl] at ho
            have hanew := h.anew_iff hr hl
            by_cases hf : f.session.style = some .positional ∧ c.hasArgs
            · rw [if_pos hf] at ho ⊢
              rw [if_pos (hanew.mpr hf)]
              exact hrender ho
            · rw [if_neg hf, if_neg (mt hanew.mp hf)]
              exact .ok out (h.refer ⟨kind, index⟩)

end Lockstep

/-- Two builds of every child go in lockstep. -/
def Scope.ChildrenInfer (st : Style) (scope : Scope) : Prop :=
  (∀ c ∈ scope.columns, c.Infers st) ∧ ∀ c ∈ scope.segments, c.Infers st

theorem Scope.ChildrenInfer.move {scope : Scope} {st : Style} (h : scope.ChildrenInfer st) :
    scope.ChildrenMove Session.Extends :=
  ⟨fun c hc => (h.1 c hc).moves, fun c hc => (h.2 c hc).moves⟩

namespace Lockstep

variable {scope : Scope} {st : Style}

theorem resolve (hscope : scope.ChildrenInfer st) (index : Nat) (kind : DeclKind) :
    Lockstep scope st (scope.resolve index kind) (scope.resolve index kind) := by
  cases kind with
  | arg => exact argument index
  | column => exact child hscope.1 (fun _ => rfl) index
  | table => exact bind (declared .table scope.tables index) fun t => pure _
  | segment => exact child hscope.2 (fun _ => rfl) index

/-! ## Templates -/

mutual

theorem run (hscope : scope.ChildrenInfer st) : ∀ p : Part, p.isPlain →
    Lockstep scope st (p.run scope) (p.run scope)
  | .text _, _ => pure _
  | .bind marker index, _ => placeholder marker marker index
  | .refer kind index, _ => resolve hscope index kind
  | .fail e, _ => throw e
  | .follow _, hplain => nomatch hplain
  | .join template _ iterations, hplain => map _ (runEach hscope template iterations hplain)

theorem runAll (hscope : scope.ChildrenInfer st) : ∀ parts : List Part, Part.isPlainAll parts →
    Lockstep scope st (Part.runAll scope parts) (Part.runAll scope parts)
  | [], _ => pure _
  | p :: rest, hplain =>
    have ⟨hp, hrest⟩ := Bool.and_eq_true_iff.mp hplain
    bind (run hscope p hp) fun _ => bind (runAll hscope rest hrest) fun _ => pure _

theorem runEach (hscope : scope.ChildrenInfer st) (template : String) :
    ∀ iterations : List (List Part), Part.isPlainEach iterations →
    Lockstep scope st (Part.runEach scope template iterations)
      (Part.runEach scope template iterations)
  | [], _ => pure _
  | parts :: rest, hplain =>
    have ⟨hp, hrest⟩ := Bool.and_eq_true_iff.mp hplain
    bind (within template (runAll hscope parts hp)) fun _ =>
      bind (runEach hscope template rest hrest) fun _ => pure _

end

theorem evaluate (hscope : scope.ChildrenInfer st) (c : Template.Clause) :
    Lockstep scope st (Render.evaluate .standard scope c) (Render.evaluate .standard scope c) := by
  rw [evaluate_eq_runAll]
  exact runAll hscope _ (isPlainAll_unroll scope c)

end Lockstep

/-- The outcome of a template, given that of its clause. -/
def Scope.conclude (scope : Scope) :
    EStateM.Result Error Frame Output → EStateM.Result Error Session Output
  | .error e f => .error e f.session
  | .ok out f =>
    match scope.checkUse f.memo.used with
    | .error cause => .error (.ofCause cause) f.session
    | .ok () => .ok out f.session

theorem Scope.render_of_parse_error {scope : Scope} {cause : Cause}
    (h : parse scope.raw = .error cause) (registry : Registry) :
    scope.render registry = throw ((Error.ofCause cause).within scope.raw) := by
  unfold Scope.render
  rw [h]
  rfl

/-- The build of a clause from an empty memo. -/
def Scope.build (registry : Registry) (scope : Scope) (c : Template.Clause) : RenderM Output :=
  fun s => scope.conclude (Render.evaluate registry scope c { session := s })

theorem Scope.render_of_parse_ok {scope : Scope} {c : Template.Clause}
    (h : parse scope.raw = .ok c) (registry : Registry) :
    scope.render registry = within scope.raw (scope.build registry c) := by
  unfold Scope.render
  rw [h]
  congr 1
  funext s
  show EStateM.bind (ScopeM.runFresh (Render.evaluate registry scope c)) _ s =
    scope.conclude (Render.evaluate registry scope c { session := s })
  unfold EStateM.bind
  cases hx : Render.evaluate registry scope c { session := s } with
  | error e f =>
      have hfresh : ScopeM.runFresh (Render.evaluate registry scope c) s = .error e f.session := by
        unfold ScopeM.runFresh
        rw [hx]
      rw [hfresh]
      rfl
  | ok out f =>
      rw [ScopeM.runFresh_eq_ok.mpr hx]
      unfold conclude
      dsimp only
      cases scope.checkUse f.memo.used <;> rfl

theorem Scope.finish_conclude (scope : Scope) (r : EStateM.Result Error Frame Output) :
    finish (scope.conclude r) = (finish r).session := by
  cases r with
  | error e f => rfl
  | ok out f =>
      unfold conclude
      dsimp only
      cases scope.checkUse f.memo.used <;> rfl

theorem Scope.agree_conclude {scope : Scope} {st : Style} {r r' : EStateM.Result Error Frame Output}
    (h : Agree (Frame.Infers scope st) r r') :
    Agree (Session.Infers st) (scope.conclude r) (scope.conclude r') := by
  cases h with
  | error e h => exact .error e h.session
  | mixed he => exact .mixed he
  | ok out h =>
      unfold conclude
      dsimp only
      rw [h.memo]
      split
      · exact .error _ h.session
      · exact .ok out h.session

/-- A template is built in lockstep, from an empty memo. -/
theorem Scope.render_infers {scope : Scope} {st : Style} (hscope : scope.ChildrenInfer st)
    {s t : Session} (h : s.Infers st t) (ho : (finish (scope.render .standard s)).OpenTo st) :
    Agree (Session.Infers st) (scope.render .standard s) (scope.render .standard t) := by
  cases hparse : parse scope.raw with
  | error cause =>
      rw [render_of_parse_error hparse]
      exact .error _ h
  | ok c =>
      have hframes : Frame.Infers scope st { session := s } { session := t } :=
        ⟨h, rfl, fun _ _ _ hl => nomatch hl⟩
      rw [render_of_parse_ok hparse] at ho ⊢
      rw [finish_within, build, finish_conclude] at ho
      exact .within _ (agree_conclude ((Lockstep.evaluate hscope c).agree hframes ho))

/-- A reference to anything but an argument is recorded. -/
theorem Scope.used_of_resolve {scope : Scope} {kind : DeclKind} {index : Nat} {out : Output}
    {f f' : Frame} (hkind : kind ≠ .arg) (h : scope.resolve index kind f = .ok out f') :
    f'.memo.used = ⟨kind, index⟩ :: f.memo.used := by
  cases kind with
  | arg => exact absurd rfl hkind
  | table =>
      obtain ⟨_, _, _, rfl⟩ := table_ok h
      rfl
  | column =>
      obtain ⟨_, _, ⟨_, _, rfl⟩ | ⟨_, _, _, rfl⟩⟩ := child_ok h <;> rfl
  | segment =>
      obtain ⟨_, _, ⟨_, _, rfl⟩ | ⟨_, _, _, rfl⟩⟩ := child_ok h <;> rfl

/-- A placeholder settles the style. -/
theorem Scope.style_of_bind {scope : Scope} {marker : Style} {index : Nat} {out : Output}
    {f f' : Frame} (h : scope.bind marker index f = .ok out f') : f'.session.style ≠ none := by
  obtain ⟨st, choice, v, hobs, _, n, _, hcase⟩ := bind_ok h
  have hstyle := StyleChoice.style_of_observe hobs
  have hsettled : f'.session.style = some st := by
    cases st with
    | indexed => rcases ScopeM.slot_ok hcase with ⟨_, rfl⟩ | ⟨_, _, rfl⟩ <;> exact hstyle
    | positional =>
        obtain ⟨_, rfl⟩ := hcase
        exact hstyle
  rw [hsettled]
  nofun

/-- A template with arguments has placeholders, so it settles the style. -/
theorem Scope.render_settles {scope : Scope} (hchildren : scope.ChildrenMove Session.Extends)
    (hargs : scope.args ≠ []) {s s' : Session} {out : Output}
    (h : scope.render .standard s = .ok out s') : s'.style ≠ none := by
  have hkeeps : scope.Closed fun _ => Keeps fun f =>
      ∀ index, ⟨.arg, index⟩ ∈ f.memo.used → f.session.style ≠ none := by
    refine Scope.closed_keeps ?_ ?_
    · intro marker index f f' out hrun _ _ _
      exact style_of_bind hrun
    · intro kind index hkind f f' out hrun hbefore i hi hnone
      have hext := (resolve_moves Session.admits_extends hchildren index kind).ok hrun
      rw [used_of_resolve hkind hrun, List.mem_cons] at hi
      rcases hi with heq | hi
      · cases heq
        exact hkind rfl
      · exact hbefore i hi (hext.style_eq_none hnone)
  obtain ⟨c, memo, _, heval, huse⟩ := render_ok h
  have hfirst : (⟨.arg, 1⟩ : Reference) ∈ scope.required := by
    have hmem : (⟨.arg, 1⟩ : Reference) ∈ references .arg scope.args.length :=
      mem_references_iff.mpr ⟨rfl, Nat.one_pos, List.length_pos_iff.mpr hargs⟩
    simp [required, hmem]
  have hstandard := hkeeps.evaluate
    (fun _ _ hf _ => absurd hf Function.not_custom_of_lookup) c
  exact hstandard heval (by simp) 1 (checkUse_ok huse hfirst)

end Render

open Render

theorem Column.child_infers (st : Style) (c : Column) : (c.child .standard).Infers st where
  moves := c.render_moves Session.admits_extends .standard
  settles hargs s s' out hrun := by
    obtain ⟨body, hbody, _⟩ := map_eq_ok.mp hrun
    exact Scope.render_settles c.childrenMove (by simpa [child, scope] using hargs) hbody
  agree s t h ho := by
    have hscope : c.scope.ChildrenInfer st :=
      ⟨fun _ hc => absurd hc List.not_mem_nil, fun _ hc => absurd hc List.not_mem_nil⟩
    exact .map _ (Scope.render_infers hscope h (by rwa [child, render, finish_map] at ho))

namespace Segment

theorem child_infers (st : Style) (s : Segment) : (s.child .standard).Infers st := by
  induction s using Segment.induction with
  | step s ih =>
      have hscope : (s.scope .standard).ChildrenInfer st := by
        refine ⟨fun c hc => ?_, fun c hc => ?_⟩
        · obtain ⟨col, _, rfl⟩ := List.mem_map.mp hc
          exact col.child_infers st
        · obtain ⟨child, hchild, rfl⟩ := List.mem_map.mp hc
          exact ih child hchild
      refine ⟨s.render_moves Session.admits_extends .standard, ?_, ?_⟩
      · intro hargs s₀ s' out hrun
        rw [child, render_eq] at hrun
        obtain ⟨body, hbody, _⟩ := map_eq_ok.mp hrun
        exact Scope.render_settles hscope.move (by simpa [child, scope] using hargs) hbody
      · intro s₀ t h ho
        rw [child, render_eq] at ho ⊢
        exact .map _ (Scope.render_infers hscope h (by rwa [finish_map] at ho))

/-- What a build comes to: its text or its error, and the arguments of the session. -/
def outcome : EStateM.Result Error Session Output → Except Error Output × List Value
  | .ok out s => (.ok out, s.args)
  | .error e s => (.error e, s.args)

theorem outcome_eq_of_agree {st : Style} {r r' : EStateM.Result Error Session Output}
    (h : Agree (Session.Infers st) r r') :
    (∃ e s, r = .error e s ∧ e.IsMixed) ∨ outcome r = outcome r' := by
  cases h with
  | ok out h => exact .inr (by rw [outcome, outcome, h.args])
  | error e h => exact .inr (by rw [outcome, outcome, h.args])
  | @mixed e he s => exact .inl ⟨e, s, rfl, he⟩

/-- **Inference agrees with configuration.** A build in which the style is inferred fails because
styles are mixed, or it comes to the same as the build in a session for which its style was
configured, indexed if it is still open: the same text and arguments, or the same error behind
the same arguments. -/
theorem render_inferred {registry : Registry} (hr : registry.HasBuiltins) {seg : Segment}
    (hb : seg.UsesBuiltins) (args : List Value) :
    let inferred := seg.render registry { args := args }
    let style := (finish inferred).style.getD .indexed
    (∃ e s, inferred = .error e s ∧ e.IsMixed) ∨
      outcome inferred =
        outcome (seg.render registry { args := args, choice := .configured style }) := by
  intro inferred style
  have hinfers : Session.Infers style { args := args }
      { args := args, choice := .configured style } := ⟨rfl, .inl rfl, rfl⟩
  have hopen : (finish inferred).OpenTo style := by
    intro st hst
    show st = (finish inferred).style.getD .indexed
    rw [hst, Option.getD_some]
  have hstandard : seg.render registry = (seg.child .standard).render := render_eq_standard hr hb
  subst inferred
  rw [hstandard] at hopen ⊢
  exact outcome_eq_of_agree ((child_infers style seg).agree hinfers hopen)

/-- The first reference to a child settles the style, and the second one renders it anew. -/
def inferenceSample : Segment where
  raw := "#s2, #s1 AND #c1 < #?(1) AND #s1, #s2"
  args := [.int 1]
  columns := [⟨⟨"t", ""⟩, "#t1.x + ?", [.int 5]⟩]
  segments := [{ raw := "y = ?", args := [.int 7] }, { raw := "z" }]

theorem render_inferred_sample : ∃ out s s',
    inferenceSample.render .standard {} = .ok out s ∧ s.style = some .positional ∧
    out.text = "z, y = ? AND t.x + ? < ? AND y = ?, z" ∧ s.args.length = 4 ∧
    inferenceSample.render .standard (.ofStyle (some .positional)) = .ok out s' ∧
    s'.args = s.args := by
  obtain ⟨out, s, h, hcheck⟩ := exists_ok_of_check (x := inferenceSample.render .standard)
    (s := {})
    (fun out s => decide (s.style = some .positional ∧
      out.text = "z, y = ? AND t.x + ? < ? AND y = ?, z" ∧ s.args.length = 4))
    (by decide +kernel)
  obtain ⟨hstyle, htext, hlength⟩ := of_decide_eq_true hcheck
  have hbuiltins : inferenceSample.UsesBuiltins := usesBuiltins_of_check 1 (by decide +kernel)
  have hsettled : (finish (inferenceSample.render .standard {})).style.getD .indexed =
      .positional := by
    rw [h]
    exact congrArg (·.getD .indexed) hstyle
  rcases render_inferred Registry.hasBuiltins_standard hbuiltins [] with ⟨e, s', he, _⟩ | hsame
  · cases h.symm.trans he
  · rw [hsettled, h] at hsame
    cases hconfigured : inferenceSample.render .standard (.ofStyle (some .positional)) with
    | error e s' =>
        have hsame : outcome (.ok out s) = outcome (.error e s') :=
          hsame.trans (congrArg _ hconfigured)
        cases hsame
    | ok out' s' =>
        have hsame : outcome (.ok out s) = outcome (.ok out' s') :=
          hsame.trans (congrArg _ hconfigured)
        obtain ⟨⟨⟩, hargs⟩ := Prod.mk.inj hsame
        exact ⟨out, s, s', h, hstyle, htext, hlength, rfl, hargs.symm⟩

end Segment

end SqlTemplate
