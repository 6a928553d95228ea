import SqlTemplate.Render.Segment

/-!
# Outcomes

Computations that succeed, opened step by step. Each lemma says what the steps
of a computation must have done for the whole to succeed, so that the proofs
about rendering never unfold a `do` block. The second half does this for the
operations of a scope: which reference they record, and whether the text or the
slot comes from the memo or is new.
-/

namespace SqlTemplate

section Monad

variable {ε σ α β : Type}

theorem pure_eq_ok {a b : α} {s s' : σ} :
    (pure a : EStateM ε σ α) s = .ok b s' ↔ a = b ∧ s = s' := by
  show EStateM.Result.ok a s = .ok b s' ↔ _
  simp

theorem throw_ne_ok {e : ε} {b : α} {s s' : σ} :
    (throw e : EStateM ε σ α) s ≠ .ok b s' := by
  intro h
  cases (show EStateM.Result.error e s = .ok b s' from h)

theorem bind_eq_ok {x : EStateM ε σ α} {f : α → EStateM ε σ β} {b : β} {s s'' : σ} :
    (x >>= f) s = .ok b s'' ↔ ∃ a s', x s = .ok a s' ∧ f a s' = .ok b s'' := by
  show EStateM.bind x f s = _ ↔ _
  unfold EStateM.bind
  cases h : x s with
  | ok a s' =>
      constructor
      · intro hf
        exact ⟨a, s', rfl, hf⟩
      · rintro ⟨_, _, ⟨⟩, hf⟩
        exact hf
  | error e s' => simp

theorem map_eq_ok {g : α → β} {x : EStateM ε σ α} {b : β} {s s' : σ} :
    (g <$> x) s = .ok b s' ↔ ∃ a, x s = .ok a s' ∧ g a = b := by
  show EStateM.map g x s = _ ↔ _
  unfold EStateM.map
  cases h : x s with
  | ok a s' =>
      simp only [EStateM.Result.ok.injEq]
      constructor
      · rintro ⟨rfl, rfl⟩
        exact ⟨a, ⟨rfl, rfl⟩, rfl⟩
      · rintro ⟨a', ⟨rfl, rfl⟩, rfl⟩
        exact ⟨rfl, rfl⟩
  | error e s' => simp

theorem bind_of_ok {x : EStateM ε σ α} {a : α} {s s' : σ} (h : x s = .ok a s')
    (k : α → EStateM ε σ β) : (x >>= k) s = k a s' := by
  show EStateM.bind x k s = _
  rw [EStateM.bind, h]

theorem bind_of_error {x : EStateM ε σ α} {e : ε} {s s' : σ} (h : x s = .error e s')
    (k : α → EStateM ε σ β) : (x >>= k) s = .error e s' := by
  show EStateM.bind x k s = _
  rw [EStateM.bind, h]

theorem map_of_ok {x : EStateM ε σ α} {a : α} {s s' : σ} (h : x s = .ok a s') (g : α → β) :
    (g <$> x) s = .ok (g a) s' := by
  show EStateM.map g x s = _
  rw [EStateM.map, h]

theorem map_of_error {x : EStateM ε σ α} {e : ε} {s s' : σ} (h : x s = .error e s')
    (g : α → β) : (g <$> x) s = .error e s' := by
  show EStateM.map g x s = _
  rw [EStateM.map, h]

theorem observing_of_ok {x : EStateM ε σ α} {a : α} {s s' : σ} (h : x s = .ok a s') :
    observing x s = .ok (.ok a) s' := by
  show EStateM.tryCatch (x >>= _) _ s = _
  delta EStateM.tryCatch
  rw [bind_of_ok h]
  rfl

theorem observing_of_error {x : EStateM ε σ α} {e : ε} {s s' : σ} (h : x s = .error e s') :
    observing x s = .ok (.error e) s' := by
  show EStateM.tryCatch (x >>= _) _ s = _
  delta EStateM.tryCatch
  rw [bind_of_error h]
  rfl

theorem within_eq_ok {raw : String} {x : EStateM Error σ α} {a : α} {s s' : σ} :
    within raw x s = .ok a s' ↔ x s = .ok a s' := by
  unfold within
  cases x s with
  | ok a s' => simp
  | error e s' => simp

theorem fail_ne_ok {cause : Cause} {a : α} {s s' : σ} :
    (fail cause : EStateM Error σ α) s ≠ .ok a s' :=
  throw_ne_ok

theorem liftCause_eq_ok {x : Except Cause α} {a : α} {s s' : σ} :
    (liftCause x : EStateM Error σ α) s = .ok a s' ↔ x = .ok a ∧ s = s' := by
  cases x with
  | ok b =>
      show EStateM.Result.ok b s = .ok a s' ↔ _
      simp
  | error cause =>
      constructor
      · intro h
        exact absurd h fail_ne_ok
      · intro h
        cases h.1

/-- The outcome of a run that was evaluated. -/
theorem exists_ok_of_check {x : EStateM Error σ α} {s : σ} (check : α → σ → Bool)
    (h : (match x s with | .ok a s' => check a s' | .error _ _ => false) = true) :
    ∃ a s', x s = .ok a s' ∧ check a s' = true := by
  cases hx : x s with
  | ok a s' =>
      rw [hx] at h
      exact ⟨a, s', rfl, h⟩
  | error e s' =>
      rw [hx] at h
      cases h

/-- The outcome of a run that was evaluated and failed. -/
theorem exists_error_of_check {x : EStateM Error σ α} {s : σ} (check : Error → σ → Bool)
    (h : (match x s with | .ok _ _ => false | .error e s' => check e s') = true) :
    ∃ e s', x s = .error e s' ∧ check e s' = true := by
  cases hx : x s with
  | ok a s' =>
      rw [hx] at h
      cases h
  | error e s' =>
      rw [hx] at h
      exact ⟨e, s', rfl, h⟩

end Monad

/-! ## Sessions -/

namespace RenderM

theorem append_apply (v : Value) (s : Session) :
    append v s = .ok (s.args.length + 1) { s with args := s.args ++ [v] } := rfl

theorem observe_apply (marker : Style) (raw : String) (s : Session) :
    observe marker raw s =
      match s.choice.observe marker raw with
      | .ok (st, choice) => .ok st { s with choice }
      | .error cause => .error (.ofCause cause) s := by
  unfold observe
  show EStateM.bind (fun s => .ok s s) _ s = _
  simp only [EStateM.bind]
  show EStateM.bind (liftCause _) _ s = _
  cases s.choice.observe marker raw with
  | ok p => rfl
  | error cause => rfl

theorem observe_eq_ok {marker : Style} {raw : String} {st : Style} {s s' : Session} :
    observe marker raw s = .ok st s' ↔
      ∃ choice, s.choice.observe marker raw = .ok (st, choice) ∧ s' = { s with choice } := by
  rw [observe_apply]
  cases s.choice.observe marker raw with
  | ok p => simp [Prod.ext_iff, and_assoc, eq_comm]
  | error cause => simp

end RenderM

/-- The style that a placeholder is rendered in is that of the session from then on. -/
theorem StyleChoice.style_of_observe {marker st : Style} {raw : String} {c c' : StyleChoice}
    (h : c.observe marker raw = .ok (st, c')) : c'.style = some st := by
  cases c with
  | «open» =>
      cases h
      rfl
  | configured style =>
      cases h
      rfl
  | inferred style origin =>
      simp only [observe] at h
      split at h
      · cases h
        rfl
      · cases h

/-- Only an open style is ever settled. -/
theorem StyleChoice.observe_settled {marker st st₀ : Style} {raw : String} {c c' : StyleChoice}
    (h : c.observe marker raw = .ok (st, c')) (hst : c.style = some st₀) : c' = c := by
  cases c with
  | «open» => cases hst
  | configured style =>
      cases h
      rfl
  | inferred style origin =>
      simp only [observe] at h
      split at h
      · cases h
        rfl
      · cases h

/-! ## Scopes -/

namespace Render

/-- The declaration of an index that counts from one. -/
def declaration? {α : Type} (declarations : List α) (index : Nat) : Option α :=
  if index = 0 then none else declarations[index - 1]?

theorem declaration?_map {α β : Type} (g : α → β) (xs : List α) (index : Nat) :
    declaration? (xs.map g) index = (declaration? xs index).map g := by
  unfold declaration?
  split
  · rfl
  · exact List.getElem?_map

theorem mem_of_declaration? {α : Type} {xs : List α} {index : Nat} {a : α}
    (h : declaration? xs index = some a) : a ∈ xs := by
  unfold declaration? at h
  split at h
  · cases h
  · exact List.mem_of_getElem? h

/-- The frame in which one more reference has been made. -/
def Frame.refer (f : Frame) (r : Reference) : Frame :=
  { f with memo := { f.memo with used := r :: f.memo.used } }

@[simp] theorem Frame.refer_session (f : Frame) (r : Reference) :
    (f.refer r).session = f.session := rfl

@[simp] theorem Frame.refer_used (f : Frame) (r : Reference) :
    (f.refer r).memo.used = r :: f.memo.used := rfl

@[simp] theorem Frame.refer_slots (f : Frame) (r : Reference) :
    (f.refer r).memo.slots = f.memo.slots := rfl

@[simp] theorem Frame.refer_texts (f : Frame) (r : Reference) :
    (f.refer r).memo.texts = f.memo.texts := rfl

namespace ScopeM

theorem ofRender_eq_ok {α : Type} {x : RenderM α} {a : α} {f f' : Frame} :
    ofRender x f = .ok a f' ↔ ∃ s', x f.session = .ok a s' ∧ f' = { f with session := s' } := by
  unfold ofRender
  cases x f.session with
  | ok b s' =>
      simp only [EStateM.Result.ok.injEq]
      constructor
      · rintro ⟨rfl, rfl⟩
        exact ⟨s', ⟨rfl, rfl⟩, rfl⟩
      · rintro ⟨_, ⟨rfl, rfl⟩, rfl⟩
        exact ⟨rfl, rfl⟩
  | error e s' => simp

theorem runFresh_eq_ok {α : Type} {x : ScopeM α} {a : α} {memo : Memo} {s s' : Session} :
    runFresh x s = .ok (a, memo) s' ↔ x { session := s } = .ok a ⟨s', memo⟩ := by
  unfold runFresh
  cases x { session := s } with
  | ok b f =>
      simp only [EStateM.Result.ok.injEq, Prod.mk.injEq]
      constructor
      · rintro ⟨⟨rfl, rfl⟩, rfl⟩
        exact ⟨rfl, rfl⟩
      · rintro ⟨rfl, rfl⟩
        exact ⟨⟨rfl, rfl⟩, rfl⟩
  | error e f => simp

theorem declared_eq {α : Type} (kind : DeclKind) (xs : List α) (index : Nat) :
    (declared kind xs index : ScopeM α) =
      match declaration? xs index with
      | none => fail (.indexOutOfRange kind index xs.length)
      | some a => do
        modify fun f => f.refer ⟨kind, index⟩
        return a := rfl

theorem declared_eq_ok {α : Type} {kind : DeclKind} {xs : List α} {index : Nat} {a : α}
    {f f' : Frame} :
    declared kind xs index f = .ok a f' ↔
      declaration? xs index = some a ∧ f' = f.refer ⟨kind, index⟩ := by
  rw [declared_eq]
  cases declaration? xs index with
  | none =>
      constructor
      · intro h
        exact absurd h fail_ne_ok
      · intro h
        cases h.1
  | some b =>
      show EStateM.Result.ok b (f.refer ⟨kind, index⟩) = _ ↔ _
      simp [eq_comm]

/-- An argument has the slot that the memo knows, or else a new one. -/
theorem slot_ok {index : Nat} {v : Value} {n : Nat} {f f' : Frame}
    (h : slot index v f = .ok n f') :
    (f.memo.slots.lookup index = some n ∧ f' = f) ∨
      (f.memo.slots.lookup index = none ∧ n = f.session.args.length + 1 ∧
        f' = { session := { f.session with args := f.session.args ++ [v] },
               memo := { f.memo with slots := (index, n) :: f.memo.slots } }) := by
  unfold slot at h
  obtain ⟨_, _, hget, h⟩ := bind_eq_ok.mp h
  cases hget
  cases hl : f.memo.slots.lookup index with
  | some m =>
      rw [hl] at h
      obtain ⟨rfl, rfl⟩ := pure_eq_ok.mp h
      exact .inl ⟨rfl, rfl⟩
  | none =>
      rw [hl] at h
      obtain ⟨m, f₁, hm, h⟩ := bind_eq_ok.mp h
      obtain ⟨s', hs, rfl⟩ := ofRender_eq_ok.mp hm
      rw [RenderM.append_apply] at hs
      cases hs
      cases h
      exact .inr ⟨rfl, rfl, rfl⟩

end ScopeM

namespace Scope

open ScopeM

/-- A placeholder is settled in a style before its argument is looked up; then it has the
slot of its argument, or in positional style a slot of its own. -/
theorem bind_ok {scope : Scope} {marker : Style} {index : Nat} {out : Output} {f f' : Frame}
    (h : scope.bind marker index f = .ok out f') :
    ∃ st choice v, f.session.choice.observe marker scope.raw = .ok (st, choice) ∧
      declaration? scope.args index = some v ∧
      ∃ n, out = [.placeholder st n] ∧
        match st with
        | .indexed =>
          slot index v ({ f with session := { f.session with choice } }.refer ⟨.arg, index⟩) =
            .ok n f'
        | .positional =>
          n = f.session.args.length + 1 ∧
            f' = { f with session := ⟨f.session.args ++ [v], choice⟩ }.refer ⟨.arg, index⟩ := by
  unfold bind at h
  obtain ⟨st, f₁, hrender, h⟩ := bind_eq_ok.mp h
  obtain ⟨s₁, hstep, rfl⟩ := ofRender_eq_ok.mp hrender
  obtain ⟨choice, hobs, rfl⟩ := RenderM.observe_eq_ok.mp hstep
  obtain ⟨v, f₂, hdecl, h⟩ := bind_eq_ok.mp h
  obtain ⟨hv, rfl⟩ := declared_eq_ok.mp hdecl
  refine ⟨st, choice, v, hobs, hv, ?_⟩
  cases st with
  | indexed =>
      obtain ⟨n, f₃, hn, h⟩ := bind_eq_ok.mp h
      obtain ⟨rfl, rfl⟩ := pure_eq_ok.mp h
      exact ⟨n, rfl, hn⟩
  | positional =>
      obtain ⟨n, f₃, hn, h⟩ := bind_eq_ok.mp h
      obtain ⟨rfl, rfl⟩ := pure_eq_ok.mp h
      obtain ⟨s', hs, rfl⟩ := ofRender_eq_ok.mp hn
      rw [RenderM.append_apply] at hs
      cases hs
      exact ⟨_, rfl, rfl, rfl⟩

theorem renderChild_ok {r : Reference} {c : Child} {out : Output} {f f' : Frame}
    (h : renderChild r c f = .ok out f') :
    ∃ s', c.render f.session = .ok out s' ∧
      f' = ⟨s', { f.memo with texts := (r, out) :: f.memo.texts }⟩ := by
  unfold renderChild at h
  obtain ⟨o, f₁, ho, h⟩ := bind_eq_ok.mp h
  obtain ⟨s', hs, rfl⟩ := ofRender_eq_ok.mp ho
  cases h
  exact ⟨s', hs, rfl⟩

/-- A child is rendered, or its text is the one that the memo knows. It is rendered in spite
of the memo only in positional style, when it has arguments of its own. -/
theorem child_ok {kind : DeclKind} {children : List Child} {index : Nat} {out : Output}
    {f f' : Frame} (h : child kind children index f = .ok out f') :
    ∃ c, declaration? children index = some c ∧
      ((f.memo.texts.lookup ⟨kind, index⟩ = some out ∧
          ¬ (f.session.style = some .positional ∧ c.hasArgs) ∧ f' = f.refer ⟨kind, index⟩) ∨
        (((f.session.style = some .positional ∧ c.hasArgs) ∨
            f.memo.texts.lookup ⟨kind, index⟩ = none) ∧
          ∃ s', c.render f.session = .ok out s' ∧
            f' = ⟨s', { (f.refer ⟨kind, index⟩).memo with
              texts := (⟨kind, index⟩, out) :: f.memo.texts }⟩)) := by
  unfold child at h
  obtain ⟨c, f₁, hdecl, h⟩ := bind_eq_ok.mp h
  obtain ⟨hc, rfl⟩ := declared_eq_ok.mp hdecl
  refine ⟨c, hc, ?_⟩
  obtain ⟨_, _, hget, h⟩ := bind_eq_ok.mp h
  cases hget
  split at h
  · rename_i hagain
    exact .inr ⟨.inl hagain, renderChild_ok h⟩
  · rename_i hagain
    cases hl : f.memo.texts.lookup ⟨kind, index⟩ with
    | some o =>
        simp only [Frame.refer_texts, hl] at h
        obtain ⟨rfl, rfl⟩ := pure_eq_ok.mp h
        exact .inl ⟨rfl, hagain, rfl⟩
    | none =>
        simp only [Frame.refer_texts, hl] at h
        exact .inr ⟨.inr rfl, renderChild_ok h⟩

theorem table_ok {scope : Scope} {index : Nat} {out : Output} {f f' : Frame}
    (h : scope.table index f = .ok out f') :
    ∃ t, declaration? scope.tables index = some t ∧ out = .ofString t.appliedName ∧
      f' = f.refer ⟨.table, index⟩ := by
  unfold table at h
  obtain ⟨t, f₁, hdecl, h⟩ := bind_eq_ok.mp h
  obtain ⟨ht, rfl⟩ := declared_eq_ok.mp hdecl
  obtain ⟨rfl, rfl⟩ := pure_eq_ok.mp h
  exact ⟨t, ht, rfl, rfl⟩

/-- A template is built when its clause is evaluated from an empty memo and every declaration
has been referred to. -/
theorem render_ok {registry : Registry} {scope : Scope} {out : Output} {s s' : Session}
    (h : scope.render registry s = .ok out s') :
    ∃ c memo, Template.parse scope.raw = .ok c ∧
      evaluate registry scope c { session := s } = .ok out ⟨s', memo⟩ ∧
      scope.checkUse memo.used = .ok () := by
  unfold render at h
  obtain ⟨c, s₁, hparse, h⟩ := bind_eq_ok.mp (within_eq_ok.mp h)
  obtain ⟨hc, rfl⟩ := liftCause_eq_ok.mp hparse
  obtain ⟨⟨o, memo⟩, s₂, he, h⟩ := bind_eq_ok.mp h
  obtain ⟨_, s₃, hcheck, h⟩ := bind_eq_ok.mp h
  obtain ⟨hu, rfl⟩ := liftCause_eq_ok.mp hcheck
  obtain ⟨rfl, rfl⟩ := pure_eq_ok.mp h
  exact ⟨c, memo, hc, runFresh_eq_ok.mp he, hu⟩

end Scope

end Render

end SqlTemplate
