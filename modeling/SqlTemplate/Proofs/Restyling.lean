import SqlTemplate.Proofs.Inference
import SqlTemplate.Proofs.Statement

/-!
# The same build in another style

Two styles take different paths through a template: in one the text of a child is
remembered, in the other a child with arguments is rendered at each reference. A
configured style must change the placeholders and nothing else. Two builds of the
same template, each in a session of a configured style, are coupled step by step. The
texts that they remember need not have been made at the same references, so what
couples them is a promise. A remembered text is what the child would give now in the
other session, but for the placeholders (`Child.Answers`).
-/

namespace SqlTemplate

open Render
open Template (parse)

/-! ## Output in two styles -/

/-- The same character, or a placeholder in each of the two styles. -/
inductive Symbol.Restyled (st st' : Style) : Symbol → Symbol → Prop
  | char (c : Char) : Restyled st st' (.char c) (.char c)
  | placeholder (slot slot' : Nat) :
    Restyled st st' (.placeholder st slot) (.placeholder st' slot')

/-- Two outputs that differ in their placeholders only; these are in the styles `st` and `st'`. -/
abbrev Output.Restyled (st st' : Style) (o o' : Output) : Prop :=
  List.Forall₂ (Symbol.Restyled st st') o o'

/-- The symbol with a placeholder in the given style. -/
def Symbol.inStyle (style : Style) : Symbol → Symbol
  | .char c => .char c
  | .placeholder _ slot => .placeholder style slot

/-- The output with every placeholder in the given style. -/
def Output.inStyle (style : Style) (o : Output) : Output := o.map (Symbol.inStyle style)

namespace Output.Restyled

variable {st st' : Style} {o o' p p' : Output}

theorem ofString (s : String) : (ofString s).Restyled st st' (ofString s) := by
  rw [Output.ofString, Output.Restyled, List.forall₂_map_left_iff, List.forall₂_map_right_iff,
    List.forall₂_same]
  exact fun c _ => .char c

theorem append (h : o.Restyled st st' o') (hp : p.Restyled st st' p') :
    (o ++ p).Restyled st st' (o' ++ p') :=
  List.rel_append h hp

theorem symm (h : o.Restyled st st' o') : o'.Restyled st' st o := by
  refine (List.Forall₂.imp ?_ h).flip
  rintro _ _ (⟨c⟩ | ⟨slot, slot'⟩)
  · exact .char c
  · exact .placeholder slot' slot

theorem isBlank_symbol : ∀ a b, Symbol.Restyled st st' a b → a.isBlank = b.isBlank
  | _, _, .char _ => rfl
  | _, _, .placeholder _ _ => rfl

theorem isBlank (h : o.Restyled st st' o') : o.isBlank = o'.isBlank :=
  forall₂_all isBlank_symbol h

theorem isEmpty (h : o.Restyled st st' o') : o.isEmpty = o'.isEmpty := by
  cases h <;> rfl

theorem trim (h : o.Restyled st st' o') : o.trim.Restyled st st' o'.trim :=
  forall₂_trim isBlank_symbol h

theorem join {os os' : List Output} (h : List.Forall₂ (Output.Restyled st st') os os')
    (separator : String) :
    (Output.join separator os).Restyled st st' (Output.join separator os') :=
  forall₂_intercalate (ofString separator) h

theorem joinParts {os os' : List Output} (h : List.Forall₂ (Output.Restyled st st') os os')
    (separator : String) :
    (Render.joinParts separator os).Restyled st st' (Render.joinParts separator os') :=
  join (List.rel_filter (fun _ _ ho => by simp [Output.Restyled.isBlank ho]) h) separator

/-- What is left of outputs without the empty ones. -/
theorem filter {os os' : List Output} (h : List.Forall₂ (Output.Restyled st st') os os') :
    List.Forall₂ (Output.Restyled st st') (os.filter fun o => !o.isEmpty)
      (os'.filter fun o => !o.isEmpty) :=
  List.rel_filter (fun _ _ ho => by simp [Output.Restyled.isEmpty ho]) h

theorem wrap (h : o.Restyled st st' o') (lead trail : String) :
    (Segment.wrap lead trail o).Restyled st st' (Segment.wrap lead trail o') := by
  have hblank : Output.Restyled st st' [.char ' '] [.char ' '] := .cons (.char ' ') .nil
  have htrim := h.trim
  unfold Segment.wrap
  cases hbody : o.trim with
  | nil =>
      rw [hbody, Output.Restyled, List.forall₂_nil_left_iff] at htrim
      rw [htrim]
      exact .nil
  | cons symbol rest =>
      rw [hbody] at htrim
      obtain ⟨symbol', rest', _, _, hbody'⟩ := List.forall₂_cons_left_iff.mp htrim
      rw [hbody'] at htrim ⊢
      dsimp only
      refine append (append ?_ htrim) ?_
      · split
        · exact .nil
        · exact append (ofString lead) hblank
      · split
        · exact .nil
        · exact append hblank (ofString trail)

theorem prepend (h : o.Restyled st st' o') (s : String) :
    (Query.QueryOf.prepend s o).Restyled st st' (Query.QueryOf.prepend s o') := by
  unfold Query.QueryOf.prepend
  rw [isEmpty h]
  split
  · exact .nil
  · exact append (ofString s) h

/-- The second output is the first one with its placeholders in another style, which shows only
if this is a style that numbers them. -/
theorem text_eq (h : o.Restyled st .positional o') : o'.text = (o.inStyle .positional).text := by
  suffices hchars : o'.chars = (o.inStyle .positional).chars from congrArg String.ofList hchars
  induction h with
  | nil => rfl
  | cons hsymbol _ ih =>
      rw [Output.inStyle, List.map_cons, Output.chars, Output.chars, List.flatMap_cons,
        List.flatMap_cons]
      refine congrArg₂ _ ?_ ih
      cases hsymbol <;> rfl

theorem forall_placeholders (h : o.Restyled st st' o') : ∀ p ∈ o.placeholders, p.1 = st := by
  induction h with
  | nil => simp
  | cons hsymbol _ ih =>
      cases hsymbol with
      | char c => exact ih
      | placeholder slot _ => exact List.forall_mem_cons.mpr ⟨rfl, ih⟩

end Output.Restyled

/-! ## Coupled computations -/

/-- Related results in related states, or the same error in related states. -/
inductive Coupled {σ α : Type} (R : σ → σ → Prop) (V : α → α → Prop) :
    EStateM.Result Error σ α → EStateM.Result Error σ α → Prop
  | ok {a b : α} (h : V a b) {s t : σ} (hst : R s t) : Coupled R V (.ok a s) (.ok b t)
  | error (e : Error) {s t : σ} (hst : R s t) : Coupled R V (.error e s) (.error e t)

theorem Coupled.cases {σ α : Type} {R : σ → σ → Prop} {V : α → α → Prop}
    {r r' : EStateM.Result Error σ α} (h : Coupled R V r r') :
    (∃ a b s t, r = .ok a s ∧ r' = .ok b t ∧ V a b ∧ R s t) ∨
      ∃ e s t, r = .error e s ∧ r' = .error e t ∧ R s t := by
  cases h with
  | @ok a b h s t hst => exact .inl ⟨a, b, s, t, rfl, rfl, h, hst⟩
  | @error e s t hst => exact .inr ⟨e, s, t, rfl, rfl, hst⟩

/-- From related states two computations come to coupled outcomes. -/
def Couples {σ α : Type} (R : σ → σ → Prop) (V : α → α → Prop) (x y : EStateM Error σ α) : Prop :=
  ∀ ⦃s t⦄, R s t → Coupled R V (x s) (y t)

namespace Couples

variable {σ α β : Type} {R : σ → σ → Prop} {V : α → α → Prop} {W : β → β → Prop}
  {x y : EStateM Error σ α}

theorem pure {a b : α} (h : V a b) : Couples R V (pure a) (pure b) := fun _ _ hst => .ok h hst

theorem throw (e : Error) : Couples R V (throw e) (throw e) := fun _ _ hst => .error e hst

theorem bind {k l : α → EStateM Error σ β} (hxy : Couples R V x y)
    (hkl : ∀ a b, V a b → Couples R W (k a) (l b)) : Couples R W (x >>= k) (y >>= l) := by
  intro s t hst
  rcases (hxy hst).cases with ⟨a, b, s', t', hx, hy, hab, hst'⟩ | ⟨e, s', t', hx, hy, hst'⟩
  · rw [bind_of_ok hx, bind_of_ok hy]
    exact hkl a b hab hst'
  · rw [bind_of_error hx, bind_of_error hy]
    exact .error e hst'

theorem map {g h : α → β} (hgh : ∀ a b, V a b → W (g a) (h b)) (hxy : Couples R V x y) :
    Couples R W (g <$> x) (h <$> y) := by
  intro s t hst
  rcases (hxy hst).cases with ⟨a, b, s', t', hx, hy, hab, hst'⟩ | ⟨e, s', t', hx, hy, hst'⟩
  · rw [map_of_ok hx, map_of_ok hy]
    exact .ok (hgh a b hab) hst'
  · rw [map_of_error hx, map_of_error hy]
    exact .error e hst'

theorem within (raw : String) (hxy : Couples R V x y) :
    Couples R V (within raw x) (within raw y) := by
  intro s t hst
  unfold SqlTemplate.within
  rcases (hxy hst).cases with ⟨a, b, s', t', hx, hy, hab, hst'⟩ | ⟨e, s', t', hx, hy, hst'⟩
  · rw [hx, hy]
    exact .ok hab hst'
  · rw [hx, hy]
    exact .error _ hst'

/-- A check that both computations have to pass. -/
theorem check {c : Prop} [Decidable c] {cause : Cause} {f g : PUnit → EStateM Error σ α}
    (h : Couples R V (f ()) (g ())) :
    Couples R V (if c then fail cause >>= f else f ()) (if c then fail cause >>= g else g ()) := by
  split
  · exact bind (V := fun _ _ => False) (fun _ _ hst => .error _ hst) fun _ _ hfalse => hfalse.elim
  · exact h

theorem liftCause (x : Except Cause α) {f g : α → EStateM Error σ β}
    (h : ∀ a, Couples R W (f a) (g a)) :
    Couples R W (liftCause x >>= f) (liftCause x >>= g) := by
  cases x with
  | ok a => exact h a
  | error cause => exact fun _ _ hst => .error _ hst

theorem mapM {γ : Type} {f : γ → EStateM Error σ α} {xs : List γ}
    (h : ∀ c ∈ xs, Couples R V (f c) (f c)) :
    Couples R (List.Forall₂ V) (xs.mapM f) (xs.mapM f) := by
  induction xs with
  | nil => exact .pure .nil
  | cons c rest ih =>
      rw [List.mapM_cons]
      refine .bind (h c (by simp)) fun a b hab => ?_
      exact .bind (ih fun d hd => h d (by simp [hd])) fun as bs habs => .pure (.cons hab habs)

end Couples

/-! ## Sessions, children and frames -/

/-- Two sessions in configured styles. Their arguments may differ, also in number. -/
structure Session.Configured (st st' : Style) (s t : Session) : Prop where
  left : s.choice = .configured st
  right : t.choice = .configured st'

/-- A computation gives the same output in all configured styles, but for the placeholders. -/
def Uniform (x : RenderM Output) : Prop :=
  ∀ st st', Couples (Session.Configured st st') (Output.Restyled st st') x x

theorem Uniform.choice_of_ok {x : RenderM Output} (hx : Uniform x) {st : Style} {s s' : Session}
    (hs : s.choice = .configured st) {out : Output} (h : x s = .ok out s') :
    s'.choice = .configured st := by
  rcases (hx st st ⟨hs, hs⟩).cases with ⟨_, _, _, _, hx, _, _, hst⟩ | ⟨_, _, _, hx, _⟩
  · cases h.symm.trans hx
    exact hst.left
  · cases h.symm.trans hx

namespace Render

/-- What a text that was remembered in style `st` promises: in any session of style `st'` the child
gives it, but for the placeholders. -/
def Child.Answers (c : Child) (st st' : Style) (out : Output) : Prop :=
  ∀ ⦃t : Session⦄, t.choice = .configured st' →
    ∃ out' t', c.render t = .ok out' t' ∧ out.Restyled st st' out'

/-- A text keeps its promise once it was rendered. -/
theorem Child.answers_of_ok {c : Child} (hc : Uniform c.render) {st st' : Style} {s s' : Session}
    (hs : s.choice = .configured st) {out : Output} (h : c.render s = .ok out s') :
    c.Answers st st' out := by
  intro t ht
  rcases (hc st st' ⟨hs, ht⟩).cases with ⟨a, b, _, t', hx, hy, hab, _⟩ | ⟨e, _, _, hx, _⟩
  · cases h.symm.trans hx
    exact ⟨b, t', hy, hab⟩
  · cases h.symm.trans hx

/-- The frames of two builds of a template in configured styles. -/
structure Frame.Restyles (scope : Scope) (st st' : Style) (f g : Frame) : Prop where
  session : f.session.Configured st st' g.session
  used : f.memo.used = g.memo.used
  left : ∀ r out c, f.memo.texts.lookup r = some out → scope.child? r = some c →
    c.Answers st st' out
  right : ∀ r out c, g.memo.texts.lookup r = some out → scope.child? r = some c →
    c.Answers st' st out
  both : ∀ r out out', f.memo.texts.lookup r = some out → g.memo.texts.lookup r = some out' →
    out.Restyled st st' out'

namespace Frame.Restyles

variable {scope : Scope} {st st' : Style} {f g f' g' : Frame}

theorem beside (h : f.Restyles scope st st' g) (hf : f.Beside f') (hg : g.Beside g') :
    f'.Restyles scope st st' g' where
  session := ⟨hf.choice.trans h.session.left, hg.choice.trans h.session.right⟩
  used := by rw [hf.used, hg.used, h.used]
  left r out c hl := h.left r out c (hf.texts ▸ hl)
  right r out c hl := h.right r out c (hg.texts ▸ hl)
  both r out out' hl hl' := h.both r out out' (hf.texts ▸ hl) (hg.texts ▸ hl')

theorem refer (h : f.Restyles scope st st' g) (r : Reference) :
    (f.refer r).Restyles scope st st' (g.refer r) where
  session := h.session
  used := by rw [Frame.refer_used, Frame.refer_used, h.used]
  left := h.left
  right := h.right
  both := h.both

theorem symm (h : f.Restyles scope st st' g) : g.Restyles scope st' st f where
  session := ⟨h.session.right, h.session.left⟩
  used := h.used.symm
  left := h.right
  right := h.left
  both r out out' hl hl' := (h.both r out' out hl' hl).symm

end Frame.Restyles

/-- The text of a child that was rendered is remembered. What the other build remembers of the
child is the same text, for the promise was made in its style. -/
theorem Frame.Restyles.remember {scope : Scope} {st st' : Style} {f g : Frame}
    (h : f.Restyles scope st st' g) {r : Reference} {c : Child} (hr : scope.child? r = some c)
    (hc : Uniform c.render) {out : Output} {s : Session} (hx : c.render f.session = .ok out s) :
    Frame.Restyles scope st st' ⟨s, { f.memo with texts := (r, out) :: f.memo.texts }⟩ g where
  session := ⟨hc.choice_of_ok h.session.left hx, h.session.right⟩
  used := h.used
  left r' out' c' hl hr' := by
    rw [List.lookup_cons] at hl
    split at hl
    · rename_i hsame
      obtain rfl := eq_of_beq hsame
      cases hl
      cases hr.symm.trans hr'
      exact Child.answers_of_ok hc h.session.left hx
    · exact h.left r' out' c' hl hr'
  right := h.right
  both r' out₁ out₂ hl hl' := by
    rw [List.lookup_cons] at hl
    split at hl
    · rename_i hsame
      obtain rfl := eq_of_beq hsame
      cases hl
      obtain ⟨out', s', hx', hout⟩ := h.right r' out₂ c hl' hr h.session.left
      cases hx.symm.trans hx'
      exact hout.symm
    · exact h.both r' out₁ out₂ hl hl'

theorem Frame.Restyles.renderChild_ok {scope : Scope} {st st' : Style} {f g : Frame}
    (h : f.Restyles scope st st' g) {r : Reference} {c : Child} (hr : scope.child? r = some c)
    (hc : Uniform c.render) {out : Output} {s : Session} (hx : c.render f.session = .ok out s) :
    ∃ f', ScopeM.renderChild r c f = .ok out f' ∧ f'.Restyles scope st st' g := by
  rw [ScopeM.renderChild_apply, hx]
  exact ⟨_, rfl, h.remember hr hc hx⟩

/-! ## References -/

/-- The results do not matter, and nothing else happens that does. -/
theorem couples_of_beside {scope : Scope} {st st' : Style} {α : Type} {x y : ScopeM α}
    (hx : ∀ f, ∃ a f', x f = .ok a f' ∧ f.Beside f')
    (hy : ∀ g, ∃ b g', y g = .ok b g' ∧ g.Beside g') :
    Couples (Frame.Restyles scope st st') (fun _ _ => True) x y := by
  intro f g h
  obtain ⟨a, f', hf, hbeside⟩ := hx f
  obtain ⟨b, g', hg, hbeside'⟩ := hy g
  rw [hf, hg]
  exact .ok trivial (h.beside hbeside hbeside')

namespace Scope

variable {scope : Scope} {st st' : Style}

theorem couples_declared {α : Type} (kind : DeclKind) (xs : List α) (index : Nat) :
    Couples (Frame.Restyles scope st st') (· = ·) (ScopeM.declared kind xs index)
      (ScopeM.declared kind xs index) := by
  rw [ScopeM.declared_eq]
  cases declaration? xs index with
  | none => exact .throw _
  | some a =>
      have hrefer : Couples (Frame.Restyles scope st st') (fun _ _ => True)
          (modify fun f => f.refer ⟨kind, index⟩) (modify fun f => f.refer ⟨kind, index⟩) :=
        fun _ _ h => .ok trivial (h.refer ⟨kind, index⟩)
      exact .bind hrefer fun _ _ _ => .pure rfl

/-- A placeholder is rendered in the style of its session, whatever style it is marked with. -/
theorem couples_observe (marker marker' : Style) (raw : String) :
    Couples (Frame.Restyles scope st st') (fun a b => st = a ∧ st' = b)
      (ScopeM.ofRender (RenderM.observe marker raw))
      (ScopeM.ofRender (RenderM.observe marker' raw)) := by
  intro f g h
  have hf : f.session.choice.observe marker raw = .ok (st, .configured st) := by
    rw [h.session.left]
    rfl
  have hg : g.session.choice.observe marker' raw = .ok (st', .configured st') := by
    rw [h.session.right]
    rfl
  rw [ScopeM.observe_of_ok hf, ScopeM.observe_of_ok hg]
  exact .ok ⟨rfl, rfl⟩
    (h.beside ⟨h.session.left.symm, rfl, rfl⟩ ⟨h.session.right.symm, rfl, rfl⟩)

theorem couples_bind (marker marker' : Style) (index : Nat) :
    Couples (Frame.Restyles scope st st') (Output.Restyled st st') (scope.bind marker index)
      (scope.bind marker' index) := by
  refine .bind (couples_observe marker marker' scope.raw) ?_
  rintro _ _ ⟨rfl, rfl⟩
  refine .bind (couples_declared .arg scope.args index) ?_
  rintro v _ rfl
  have hpair : ∀ {x y : ScopeM Nat}, (∀ f, ∃ n f', x f = .ok n f' ∧ f.Beside f') →
      (∀ g, ∃ n g', y g = .ok n g' ∧ g.Beside g') →
      Couples (Frame.Restyles scope st st') (Output.Restyled st st')
        (x >>= fun n => pure [.placeholder st n]) (y >>= fun n => pure [.placeholder st' n]) :=
    fun hx hy => .bind (couples_of_beside hx hy) fun n n' _ =>
      .pure (.cons (.placeholder n n') .nil)
  cases st <;> cases st'
  · exact hpair (ScopeM.slot_beside index v) (ScopeM.slot_beside index v)
  · exact hpair (ScopeM.slot_beside index v) (ScopeM.append_beside v)
  · exact hpair (ScopeM.append_beside v) (ScopeM.slot_beside index v)
  · exact hpair (ScopeM.append_beside v) (ScopeM.append_beside v)

/-- A reference renders the child, or gives the text that is remembered of it. -/
theorem child_cases {kind : DeclKind} {children : List Child} {index : Nat} {c : Child}
    (hdecl : declaration? children index = some c) (f : Frame) :
    child kind children index f = ScopeM.renderChild ⟨kind, index⟩ c (f.refer ⟨kind, index⟩) ∨
      ∃ out, f.memo.texts.lookup ⟨kind, index⟩ = some out ∧
        child kind children index f = .ok out (f.refer ⟨kind, index⟩) := by
  rw [child_apply, hdecl]
  dsimp only
  split
  · exact .inl rfl
  · cases f.memo.texts.lookup ⟨kind, index⟩ with
    | none => exact .inl rfl
    | some out => exact .inr ⟨out, rfl, rfl⟩

theorem couples_renderChild {r : Reference} {c : Child} (hr : scope.child? r = some c)
    (hc : Uniform c.render) :
    Couples (Frame.Restyles scope st st') (Output.Restyled st st') (ScopeM.renderChild r c)
      (ScopeM.renderChild r c) := by
  intro f g h
  rcases (hc st st' h.session).cases with
    ⟨out, out', s, t, hx, hy, hout, hst⟩ | ⟨e, s, t, hx, hy, hst⟩
  · rw [ScopeM.renderChild_apply, ScopeM.renderChild_apply, hx, hy]
    exact .ok hout ((h.remember hr hc hx).symm.remember hr hc hy).symm
  · rw [ScopeM.renderChild_apply, ScopeM.renderChild_apply, hx, hy]
    exact .error e ⟨hst, h.used, h.left, h.right, h.both⟩

/-- A child is rendered in both builds, in one of them, or in neither. -/
theorem couples_child {kind : DeclKind} {children : List Child}
    (hchildren : ∀ c ∈ children, Uniform c.render)
    (hchild : ∀ index, scope.child? ⟨kind, index⟩ = declaration? children index) (index : Nat) :
    Couples (Frame.Restyles scope st st') (Output.Restyled st st') (child kind children index)
      (child kind children index) := by
  intro f g hframes
  cases hdecl : declaration? children index with
  | none =>
      rw [child_apply, child_apply, hdecl]
      exact .error _ hframes
  | some c =>
      have hc : Uniform c.render := hchildren c (mem_of_declaration? hdecl)
      have hr : scope.child? ⟨kind, index⟩ = some c := (hchild index).trans hdecl
      have h := hframes.refer ⟨kind, index⟩
      rcases child_cases hdecl f with hf | ⟨out, hl, hf⟩ <;>
        rcases child_cases hdecl g with hg | ⟨out', hl', hg⟩ <;> rw [hf, hg]
      · exact couples_renderChild hr hc h
      · -- The other build has the text already, and so the rendering cannot fail.
        obtain ⟨out, s, hx, hout⟩ := h.right _ out' c hl' hr h.session.left
        obtain ⟨f', hx', h'⟩ := h.renderChild_ok hr hc hx
        rw [hx']
        exact .ok hout.symm h'
      · obtain ⟨out', t, hy, hout⟩ := h.left _ out c hl hr h.session.right
        obtain ⟨g', hy', h'⟩ := h.symm.renderChild_ok hr hc hy
        rw [hy']
        exact .ok hout h'.symm
      · exact .ok (h.both _ out out' hl hl') h

/-- Every child gives the same output in all configured styles. -/
def ChildrenUniform (scope : Scope) : Prop :=
  (∀ c ∈ scope.columns, Uniform c.render) ∧ ∀ c ∈ scope.segments, Uniform c.render

theorem couples_resolve (hscope : scope.ChildrenUniform) (index : Nat) (kind : DeclKind) :
    Couples (Frame.Restyles scope st st') (Output.Restyled st st') (scope.resolve index kind)
      (scope.resolve index kind) := by
  cases kind with
  | arg =>
      -- The marker is that of the session, which differs.
      have hstyle : Couples (Frame.Restyles scope st st') (fun _ _ => True) ScopeM.style
          ScopeM.style := fun _ _ h => .ok trivial h
      exact .bind hstyle fun a b _ => couples_bind _ _ index
  | column => exact couples_child hscope.1 (fun _ => rfl) index
  | table =>
      refine .bind (couples_declared .table scope.tables index) ?_
      rintro t _ rfl
      exact .pure (.ofString t.appliedName)
  | segment => exact couples_child hscope.2 (fun _ => rfl) index

/-! ## Templates -/

mutual

theorem couples_run (hscope : scope.ChildrenUniform) : ∀ p : Part, p.isPlain →
    Couples (Frame.Restyles scope st st') (Output.Restyled st st') (p.run scope) (p.run scope)
  | .text s, _ => .pure (.ofString s)
  | .bind marker index, _ => couples_bind marker marker index
  | .refer kind index, _ => couples_resolve hscope index kind
  | .fail e, _ => .throw e
  | .follow _, hplain => nomatch hplain
  | .join template separator iterations, hplain =>
    .map (fun _ _ h => .joinParts h separator) (couples_runEach hscope template iterations hplain)

theorem couples_runAll (hscope : scope.ChildrenUniform) : ∀ parts : List Part,
    Part.isPlainAll parts →
    Couples (Frame.Restyles scope st st') (Output.Restyled st st') (Part.runAll scope parts)
      (Part.runAll scope parts)
  | [], _ => .pure .nil
  | p :: rest, hplain =>
    have ⟨hp, hrest⟩ := Bool.and_eq_true_iff.mp hplain
    .bind (couples_run hscope p hp) fun _ _ hout =>
      .bind (couples_runAll hscope rest hrest) fun _ _ hothers => .pure (.append hout hothers)

theorem couples_runEach (hscope : scope.ChildrenUniform) (template : String) :
    ∀ iterations : List (List Part), Part.isPlainEach iterations →
    Couples (Frame.Restyles scope st st') (List.Forall₂ (Output.Restyled st st'))
      (Part.runEach scope template iterations) (Part.runEach scope template iterations)
  | [], _ => .pure .nil
  | parts :: rest, hplain =>
    have ⟨hp, hrest⟩ := Bool.and_eq_true_iff.mp hplain
    .bind (.within template (couples_runAll hscope parts hp)) fun _ _ hout =>
      .bind (couples_runEach hscope template rest hrest) fun _ _ hothers =>
        .pure (.cons hout hothers)

end

/-- What was referred to is the same in both builds, and so is the outcome of the check. -/
theorem coupled_conclude {r r' : EStateM.Result Error Frame Output}
    (h : Coupled (Frame.Restyles scope st st') (Output.Restyled st st') r r') :
    Coupled (Session.Configured st st') (Output.Restyled st st') (scope.conclude r)
      (scope.conclude r') := by
  cases h with
  | error e h => exact .error e h.session
  | ok hout h =>
      unfold conclude
      dsimp only
      rw [h.used]
      split
      · exact .error _ h.session
      · exact .ok hout h.session

theorem render_uniform (hscope : scope.ChildrenUniform) : Uniform (scope.render .standard) := by
  intro st st'
  cases hparse : parse scope.raw with
  | error cause =>
      rw [render_of_parse_error hparse]
      exact .throw _
  | ok c =>
      rw [render_of_parse_ok hparse]
      refine .within scope.raw fun s t h => coupled_conclude ?_
      have hframes : Frame.Restyles scope st st' { session := s } { session := t } :=
        ⟨h, rfl, nofun, nofun, nofun⟩
      rw [evaluate_eq_runAll]
      exact couples_runAll hscope _ (isPlainAll_unroll scope c) hframes

end Scope

end Render

open Render

theorem Column.render_uniform (c : Column) : Uniform (c.render .standard) := by
  have hscope : c.scope.ChildrenUniform :=
    ⟨fun _ hc => absurd hc List.not_mem_nil, fun _ hc => absurd hc List.not_mem_nil⟩
  exact fun st st' => .map (fun _ _ h => .trim h) (Scope.render_uniform hscope st st')

namespace Segment

theorem render_standard_uniform (s : Segment) : Uniform (s.render .standard) := by
  induction s using Segment.induction with
  | step s ih =>
      have hscope : (s.scope .standard).ChildrenUniform := by
        refine ⟨fun c hc => ?_, fun c hc => ?_⟩
        · obtain ⟨col, _, rfl⟩ := List.mem_map.mp hc
          exact col.render_uniform
        · obtain ⟨child, hchild, rfl⟩ := List.mem_map.mp hc
          exact ih child hchild
      rw [render_eq]
      exact fun st st' => .map (fun _ _ h => .wrap h s.lead s.trail)
        (Scope.render_uniform hscope st st')

theorem render_uniform {registry : Registry} (hr : registry.HasBuiltins) {seg : Segment}
    (hb : seg.UsesBuiltins) : Uniform (seg.render registry) := by
  rw [render_eq_standard hr hb]
  exact seg.render_standard_uniform

end Segment

/-! ## Queries -/

namespace Query

namespace QueryOf

variable {B : Type} {render : B → RenderM Output} {st st' : Style}

theorem renderCtes_couples (froms : List FromEntry) {ctes : List (Cte B)}
    (h : ∀ cte ∈ ctes, Uniform (render cte.body)) :
    Couples (Session.Configured st st') (List.Forall₂ (Output.Restyled st st'))
      (renderCtes froms (ctes.map (Cte.map render)))
      (renderCtes froms (ctes.map (Cte.map render))) := by
  induction ctes with
  | nil => exact .pure .nil
  | cons cte rest ih =>
      have hrest := ih fun c hc => h c (by simp [hc])
      rw [List.map_cons, renderCtes]
      split
      · refine .bind (.within _ (h cte (by simp) st st')) fun body body' hbody => ?_
        refine .bind hrest fun others others' hothers => ?_
        rw [hbody.isEmpty]
        split
        · exact .pure hothers
        · exact .pure (.cons (.append (.append (.ofString _) hbody) (.ofString _)) hothers)
      · exact hrest

theorem compose_uniform {registry : Registry} (hr : registry.HasBuiltins) {q : QueryOf B}
    {selects : Segment} (hclauses : ∀ s ∈ q.shown q.froms selects, s.UsesBuiltins)
    (hctes : ∀ cte ∈ q.ctes, Uniform (render cte.body))
    (hunions : ∀ b ∈ q.unions, Uniform (render b)) :
    Uniform (q.compose registry (q.ctes.map (Cte.map render)) (q.unions.map render) selects) := by
  have hclause : ∀ s ∈ [selects, q.touches, q.conditions, q.groupBys, q.orders],
      Uniform (s.render registry) :=
    fun s hs => s.render_uniform hr (hclauses s (List.mem_append_left _ hs))
  have hfrom : ∀ e ∈ q.froms, Uniform (e.segment.render registry) :=
    fun e he => e.segment.render_uniform hr
      (hclauses _ (List.mem_append_right _ (List.mem_map_of_mem he)))
  intro st st'
  unfold compose
  refine .check (.check (.liftCause _ fun needed => ?_))
  refine .bind (renderCtes_couples _ hctes) fun ctes ctes' hnamed => ?_
  refine .bind (hclause _ (by simp) st st') fun columns columns' hcolumns => ?_
  rw [hcolumns.isEmpty]
  refine .check ?_
  refine .bind (hclause _ (by simp) st st') fun touches touches' htouches => ?_
  refine .bind (.mapM fun e he => hfrom e (mem_rendered_iff.mp he).1 st st')
    fun tables tables' htables => ?_
  refine .bind (hclause _ (by simp) st st') fun conditions conditions' hconditions => ?_
  refine .bind (hclause _ (by simp) st st') fun groupBys groupBys' hgroupBys => ?_
  refine .bind (hclause _ (by simp) st st') fun orders orders' horders => ?_
  rw [List.mapM_map]
  refine .bind (.mapM fun b hb => hunions b hb st st') fun others others' hothers => ?_
  -- The texts are put together in the same way on both sides.
  have hbound : ∀ (n : Nat) (s : String), Output.Restyled st st'
      (if n = 0 then [] else Output.ofString s) (if n = 0 then [] else Output.ofString s) := by
    intro n s
    split
    · exact .nil
    · exact .ofString s
  have hhead := ((Output.Restyled.ofString
    (if q.distinct then "SELECT DISTINCT " else "SELECT ")).append hcolumns).append
      (htouches.prepend ", ")
  have hfroms := (Output.Restyled.ofString "FROM ").append (.join htables " ")
  have hquery := Output.Restyled.join (Output.Restyled.filter
    (.cons (.prepend (.join hnamed ", ") "WITH ") (.cons hhead (.cons hfroms (.cons hconditions
      (.cons hgroupBys (.cons horders (.cons (hbound q.limit ("LIMIT " ++ Nat.repr q.limit))
        (.cons (hbound q.offset ("OFFSET " ++ Nat.repr q.offset)) .nil))))))))) " "
  have hfilter := Output.Restyled.filter hothers
  generalize others.filter _ = others, others'.filter _ = others' at hfilter ⊢
  cases hfilter with
  | nil => exact .pure hquery
  | cons hunion hrest =>
      exact .pure (.append (.append (.append hquery (.ofString " UNION ("))
        (.join (.cons hunion hrest) ") UNION (")) (.ofString ")"))

end QueryOf

/-- What is nested in a query is the same in all configured styles, at any depth. -/
theorem Builder.render_uniform {registry : Registry} (hr : registry.HasBuiltins) {b : Builder}
    (h : b.UsesBuiltins) : Uniform (b.render registry) := by
  induction h with
  | segment h => exact Segment.render_uniform hr h
  | query clauses _ _ ctes unions =>
      rw [Builder.render, cteBodies_eq_map, bodies_eq_map]
      exact QueryOf.compose_uniform hr clauses ctes unions

/-- **The configured style changes the placeholders and nothing else.** A segment or a query, with
what is nested in it, is built in an indexed session if and only if it is built in a positional
one. If it is not, the errors are the same; if it is, the text in positional style is the text
in indexed style with a question mark for each of its placeholders. -/
theorem Builder.render_restyled {registry : Registry} (hr : registry.HasBuiltins) {b : Builder}
    (h : b.UsesBuiltins) :
    match b.render registry (.ofStyle (some .indexed)),
        b.render registry (.ofStyle (some .positional)) with
    | .ok out _, .ok out' _ =>
      (∀ p ∈ out.placeholders, p.1 = .indexed) ∧ out'.text = (out.inStyle .positional).text
    | .error e _, .error e' _ => e = e'
    | _, _ => False := by
  have hsessions : Session.Configured .indexed .positional (.ofStyle (some .indexed))
      (.ofStyle (some .positional)) := ⟨rfl, rfl⟩
  rcases (Builder.render_uniform hr h .indexed .positional hsessions).cases with
    ⟨out, out', s, t, hx, hy, hout, _⟩ | ⟨e, s, t, hx, hy, _⟩
  · rw [hx, hy]
    exact ⟨hout.forall_placeholders, hout.text_eq⟩
  · rw [hx, hy]

/-- A condition refers twice to a segment with an argument. -/
def restyledSample : Query :=
  (QueryOf.ofSettings {}).applyAll
    [.anchor ⟨"t", ""⟩, .select [Table.column ⟨"t", ""⟩ "id"],
      .condition { raw := "#s1 < $1 AND '$9' < #s1", args := [.int 2], segments :=
        [{ raw := "?+#t1", args := [.int 1], tables := [⟨"t", ""⟩] }] },
      .union (.segment { raw := "SELECT #join('#$', ', ')", args := [.int 3, .int 4] })]

theorem needed_restyledSample : restyledSample.needed restyledSample.selects = .ok ["t"] := by
  cbv

theorem render_restyled_sample : ∃ out s out' s',
    (Builder.query restyledSample).render .standard (.ofStyle (some .indexed)) = .ok out s ∧
    (Builder.query restyledSample).render .standard (.ofStyle (some .positional)) = .ok out' s' ∧
    out.text = "SELECT t.id FROM t WHERE $1+t < $2 AND '$9' < $1+t UNION (SELECT $3, $4)" ∧
    out'.text = "SELECT t.id FROM t WHERE ?+t < ? AND '$9' < ?+t UNION (SELECT ?, ?)" ∧
    out'.text = (out.inStyle .positional).text := by
  have hrender : (Builder.query restyledSample).render .standard = restyledSample.compose .standard
      [] [Segment.render .standard { raw := "SELECT #join('#$', ', ')", args := [.int 3, .int 4] }]
      restyledSample.selects := rfl
  obtain ⟨out, s, hx, htext⟩ := exists_ok_of_check
    (x := (Builder.query restyledSample).render .standard) (s := .ofStyle (some .indexed))
    (fun out _ => out.text ==
      "SELECT t.id FROM t WHERE $1+t < $2 AND '$9' < $1+t UNION (SELECT $3, $4)") (by
        rw [hrender]
        unfold QueryOf.compose
        rw [needed_restyledSample]
        decide +kernel)
  obtain ⟨out', s', hy, htext'⟩ := exists_ok_of_check
    (x := (Builder.query restyledSample).render .standard) (s := .ofStyle (some .positional))
    (fun out _ => out.text ==
      "SELECT t.id FROM t WHERE ?+t < ? AND '$9' < ?+t UNION (SELECT ?, ?)") (by
        rw [hrender]
        unfold QueryOf.compose
        rw [needed_restyledSample]
        decide +kernel)
  have hbuiltins : (Builder.query restyledSample).UsesBuiltins :=
    .query (Segment.usesBuiltins_of_checkAll 2 (by decide +kernel)) nofun
      (List.forall_mem_cons.mpr
        ⟨.segment (Segment.usesBuiltins_of_check 2 (by decide +kernel)), nofun⟩)
  have hsame := Builder.render_restyled Registry.hasBuiltins_standard hbuiltins
  rw [hx, hy] at hsame
  exact ⟨out, s, out', s', hx, hy, eq_of_beq htext, eq_of_beq htext', hsame.2⟩

end Query

end SqlTemplate
