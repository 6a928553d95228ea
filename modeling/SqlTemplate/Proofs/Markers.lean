import SqlTemplate.Proofs.Inference

/-!
# The markers that a build evaluates

Which markers a build comes across depends on the session: a child is rendered once or
at each reference, and a marker of the wrong style ends the build. The trace of a build
lists them in their order. A build treats the style of its session exactly as its trace
says (`Evaluates`): the markers are observed one after the other, and one that is
rejected is the last in the trace and the reason why the build fails. Any other failure
for mixed styles is that of a template which cannot be parsed, as it has markers of
both styles itself.
-/

namespace SqlTemplate

open Render
open Template (Clause parse)

/-! ## Templates of both styles -/

namespace Template

/-- The template has markers of both styles. -/
def Mixes (raw : String) : Prop :=
  ∀ style, ∃ t ∈ (Lexer.ofString raw).tokens, t.kind = .marker style

section Reading

variable {finish : Position} {first second : StyleUse}

theorem argument_ne_mixedStyles {t : Token} :
    argument t ≠ .error (.mixedStyles first second) := by
  intro h
  unfold argument at h
  split at h <;> (try split at h) <;> cases h

theorem takeArguments_ne_mixedStyles {ts : List Token} :
    takeArguments finish ts ≠ .error (.mixedStyles first second) := by
  intro h
  fun_induction takeArguments finish ts with
  | case2 t e harg =>
      cases h
      exact argument_ne_mixedStyles harg
  | case4 t separator rest e harg =>
      cases h
      exact argument_ne_mixedStyles harg
  | case6 t separator rest arg harg hcomma e hrec ih =>
      cases h
      exact ih hrec
  | _ => cases h

theorem takeIndex_ne_mixedStyles {pos : Position} {ts : List Token} :
    takeIndex pos ts ≠ .error (.mixedStyles first second) := by
  intro h
  unfold takeIndex at h
  split at h
  · cases h
  · split at h
    · split at h <;> cases h
    · cases h

theorem takeArgumentList_ne_mixedStyles {ts : List Token} :
    takeArgumentList finish ts ≠ .error (.mixedStyles first second) := by
  intro h
  unfold takeArgumentList at h
  split at h
  · exact takeArguments_ne_mixedStyles h
  · split at h
    · cases h
    · exact takeArguments_ne_mixedStyles h

theorem takeFunction_ne_mixedStyles {ts : List Token} :
    takeFunction finish ts ≠ .error (.mixedStyles first second) := by
  intro h
  unfold takeFunction at h
  split at h
  · cases h
  · split at h
    · split at h
      · cases h
      · split at h
        · split at h
          · rename_i hargs
            cases h
            exact takeArgumentList_ne_mixedStyles hargs
          · cases h
        · cases h
        · cases h
    · cases h

/-- The first marker is one of the tokens `ts`. -/
def Marks.Among (ts : List Token) (m : Marks) : Prop :=
  ∀ style pos, m.first = some (style, pos) → ∃ t ∈ ts, t.kind = .marker style

/-- Markers are noted as long as they have one style; two that do not are tokens of the template. -/
theorem Marks.Among.note {ts : List Token} {m : Marks} (h : m.Among ts) {t : Token} (ht : t ∈ ts)
    {style : Style} (hkind : t.kind = .marker style) :
    (∃ m', m.note style t.pos = .ok m' ∧ m'.Among ts) ∨
      ∃ cause, m.note style t.pos = .error cause ∧ ∀ st, ∃ u ∈ ts, u.kind = .marker st := by
  obtain ⟨first, positional⟩ := m
  cases first with
  | none =>
      refine .inl ⟨_, rfl, ?_⟩
      rintro _ _ ⟨⟩
      exact ⟨t, ht, hkind⟩
  | some first =>
      obtain ⟨st, pos⟩ := first
      obtain ⟨u, hu, hst⟩ := h st pos rfl
      by_cases hsame : st = style
      · refine .inl ⟨_, by rw [Marks.note]; exact if_pos hsame, ?_⟩
        rintro _ _ ⟨⟩
        exact ⟨u, hu, hst⟩
      · refine .inr ⟨_, by rw [Marks.note]; exact if_neg hsame, fun st' => ?_⟩
        -- There are two styles only.
        by_cases hst' : st' = st
        · exact ⟨u, hu, hst' ▸ hst⟩
        · refine ⟨t, ht, ?_⟩
          rw [hkind]
          cases st <;> cases st' <;> cases style <;> simp_all

/-- Reading an item keeps the marks among the tokens, or it fails, and then for mixed styles only if
there are markers of both. -/
theorem takeItem_among {ts : List Token} {m : Marks} (h : m.Among ts) {t : Token} (ht : t ∈ ts)
    (rest : List Token) :
    (∃ item m' rest', takeItem finish m t rest = .ok (item, m', rest') ∧ m'.Among ts) ∨
      ∃ cause, takeItem finish m t rest = .error cause ∧
        (∀ first second, cause = .mixedStyles first second →
          ∀ style, ∃ u ∈ ts, u.kind = .marker style) := by
  unfold takeItem
  cases hkind : t.kind with
  | text closed =>
      cases closed with
      | true => exact .inl ⟨_, m, rest, rfl, h⟩
      | false => exact .inr ⟨_, rfl, nofun⟩
  | marker style =>
      dsimp only
      obtain ⟨m', hnote, hm'⟩ | ⟨cause, hnote, hboth⟩ := h.note ht hkind
      · rw [hnote]
        cases style with
        | positional => exact .inl ⟨_, m', rest, rfl, hm'⟩
        | indexed =>
            dsimp only
            cases hindex : takeIndex t.pos rest with
            | ok p => exact .inl ⟨_, m', p.2, rfl, hm'⟩
            | error cause =>
                refine .inr ⟨cause, rfl, ?_⟩
                rintro first second rfl
                exact absurd hindex takeIndex_ne_mixedStyles
      · rw [hnote]
        exact .inr ⟨cause, rfl, fun _ _ _ => hboth⟩
  | hash =>
      dsimp only
      cases hfunction : takeFunction finish rest with
      | ok p => exact .inl ⟨_, m, p.2, rfl, h⟩
      | error cause =>
          refine .inr ⟨cause, rfl, ?_⟩
          rintro first second rfl
          exact absurd hfunction takeFunction_ne_mixedStyles
  | _ => exact .inr ⟨_, rfl, nofun⟩

theorem takeItems_mixedStyles {all ts : List Token} {m : Marks} (h : m.Among all)
    (hts : ∀ t ∈ ts, t ∈ all)
    (herror : takeItems finish m ts = .error (.mixedStyles first second)) :
    ∀ style, ∃ u ∈ all, u.kind = .marker style := by
  fun_induction takeItems finish m ts with
  | case1 => cases herror
  | case2 m t rest e hitem =>
      cases herror
      obtain ⟨_, _, _, hok, _⟩ | ⟨cause, hcause, hboth⟩ :=
        takeItem_among h (hts t (by simp)) rest
      · cases hitem.symm.trans hok
      · cases hitem.symm.trans hcause
        exact hboth _ _ rfl
  | case3 m t rest item m' rest' hitem e hitems ih =>
      cases herror
      obtain ⟨_, _, _, hok, hm'⟩ | ⟨cause, hcause, _⟩ :=
        takeItem_among h (hts t (by simp)) rest
      · cases hitem.symm.trans hok
        have hsuffix := (takeItem_suffix hitem).1
        exact ih hm' (fun u hu => hts u (by simp [hsuffix.subset hu])) hitems
      · cases hitem.symm.trans hcause
  | case4 => cases herror

end Reading

/-- **A template whose styles are mixed has markers of both styles.** -/
theorem mixes_of_parse {raw : String} {first second : StyleUse}
    (h : parse raw = .error (.mixedStyles first second)) : Mixes raw :=
  takeItems_mixedStyles (m := {}) nofun (fun _ ht => ht) h

end Template

/-- Styles are mixed in one template, which cannot be parsed for this reason; the templates
around it are those that were being built. -/
def Error.OfOneTemplate (e : Error) : Prop :=
  ∃ raw, e.path.getLast? = some raw ∧ parse raw = .error e.cause ∧ Template.Mixes raw

theorem Error.OfOneTemplate.within {e : Error} (h : e.OfOneTemplate) (raw : String) :
    (e.within raw).OfOneTemplate := by
  obtain ⟨template, hpath, hparse, hmixes⟩ := h
  refine ⟨template, ?_, hparse, hmixes⟩
  rw [within_path, List.getLast?_cons, hpath]
  rfl

theorem Error.ofOneTemplate_of_parse {raw : String} {cause : Cause}
    (h : parse raw = .error cause) (hmixed : ((Error.ofCause cause).within raw).IsMixed) :
    ((Error.ofCause cause).within raw).OfOneTemplate := by
  obtain ⟨first, second, rfl⟩ : ∃ first second, cause = .mixedStyles first second := hmixed
  exact ⟨raw, rfl, h, Template.mixes_of_parse h⟩

/-! ## Markers and the style of a session -/

/-- A marker that is evaluated: its style, and the template in which it stands. -/
structure Marker where
  style : Style
  raw : String
deriving DecidableEq, Repr

namespace StyleChoice

/-- The choice after some markers, of which each must be admitted. -/
def observeAll (choice : StyleChoice) : List Marker → Except Cause StyleChoice
  | [] => .ok choice
  | m :: rest =>
    match choice.observe m.style m.raw with
    | .error cause => .error cause
    | .ok (_, choice) => choice.observeAll rest

/-- The choice after some markers. The first one settles an open choice, and no other changes
anything. -/
def settle : StyleChoice → List Marker → StyleChoice
  | .open, m :: _ => .inferred m.style m.raw
  | choice, _ => choice

variable {choice choice' : StyleChoice} {pre post ms : List Marker} {m : Marker}

theorem observeAll_append_eq_ok :
    choice.observeAll (pre ++ post) = .ok choice' ↔
      ∃ between, choice.observeAll pre = .ok between ∧ between.observeAll post = .ok choice' := by
  induction pre generalizing choice with
  | nil => simp [observeAll]
  | cons m rest ih =>
      rw [List.cons_append, observeAll, observeAll]
      cases choice.observe m.style m.raw with
      | error cause => simp
      | ok p => exact ih

/-- Markers that are admitted do what markers do in general. -/
theorem eq_settle_of_observeAll (h : choice.observeAll ms = .ok choice') :
    choice' = choice.settle ms := by
  induction ms generalizing choice with
  | nil =>
      obtain rfl : choice = choice' := Except.ok.inj h
      cases choice <;> rfl
  | cons m rest ih =>
      rw [observeAll] at h
      cases choice with
      | «open» => exact (ih h).trans rfl
      | configured st => exact (ih h).trans rfl
      | inferred st origin =>
          by_cases hst : st = m.style
          · rw [observe, if_pos hst] at h
            exact (ih h).trans rfl
          · rw [observe, if_neg hst] at h
            cases h

theorem settle_append (choice : StyleChoice) (pre post : List Marker) :
    choice.settle (pre ++ post) = (choice.settle pre).settle post := by
  cases choice <;> cases pre <;> rfl

/-- A marker of another style than the inferred one is not admitted. -/
theorem observeAll_ne_ok {st : Style} {origin : String}
    (hpre : choice.settle pre = .inferred st origin) (hm : m.style ≠ st) :
    choice.observeAll (pre ++ m :: post) ≠ .ok choice' := by
  intro h
  obtain ⟨between, hbefore, hafter⟩ := observeAll_append_eq_ok.mp h
  rw [eq_settle_of_observeAll hbefore, hpre, observeAll, observe, if_neg (Ne.symm hm)] at hafter
  cases hafter

end StyleChoice

/-! ## Traces -/

/-- The markers that a computation evaluates, from a state. -/
abbrev Trace (σ : Type) := σ → List Marker

namespace Trace

variable {σ α : Type}

/-- The trace of a computation that evaluates no markers. -/
def none : Trace σ := fun _ => []

/-- The trace of two computations, of which the second one follows if the first one succeeds. -/
def bind (x : EStateM Error σ α) (t : Trace σ) (k : α → Trace σ) : Trace σ := fun s =>
  t s ++ match x s with
    | .ok a s' => k a s'
    | .error _ _ => []

end Trace

/-- The error of a computation that fails. -/
def error? {σ α : Type} : EStateM.Result Error σ α → Option Error
  | .ok _ _ => none
  | .error e _ => some e

/-- From `s` to `s'` the markers were observed one after the other. Each was admitted, and then the
error, if there is one, has another reason; or the last one was rejected, and that is the error. -/
inductive Observes (s s' : Session) (ms : List Marker) (e? : Option Error) : Prop
  | admitted (h : s.choice.observeAll ms = .ok s'.choice)
    (he : ∀ e, e? = some e → e.IsMixed → e.OfOneTemplate)
  | rejected {pre : List Marker} {m : Marker} {e : Error} (hms : ms = pre ++ [m])
    (h : s.choice.observeAll pre = .ok s'.choice)
    (hm : s'.choice.observe m.style m.raw = .error e.cause) (he : e? = some e)

/-- What a build does to its session: arguments are appended, but none without a marker, and the
style is observed. -/
structure Follows (s s' : Session) (ms : List Marker) (e? : Option Error) : Prop where
  args : s.args <+: s'.args
  quiet : ms = [] → s'.args = s.args
  observes : Observes s s' ms e?

namespace Follows

variable {s s' s'' : Session} {ms ms' : List Marker} {e? : Option Error}

theorem refl (he : ∀ e, e? = some e → e.IsMixed → e.OfOneTemplate) : Follows s s [] e? :=
  ⟨List.prefix_rfl, fun _ => rfl, .admitted rfl he⟩

theorem trans (h : Follows s s' ms none) (h' : Follows s' s'' ms' e?) :
    Follows s s'' (ms ++ ms') e? where
  args := h.args.trans h'.args
  quiet hms := by
    obtain ⟨hms, hms'⟩ := List.append_eq_nil_iff.mp hms
    rw [h'.quiet hms', h.quiet hms]
  observes := by
    cases h.observes with
    | rejected _ _ _ he => cases he
    | admitted hpre _ =>
        cases h'.observes with
        | admitted hpost he =>
            exact .admitted (StyleChoice.observeAll_append_eq_ok.mpr ⟨_, hpre, hpost⟩) he
        | @rejected pre m e hms hpost hm he =>
            have hall : s.choice.observeAll (ms ++ pre) = .ok s''.choice :=
              StyleChoice.observeAll_append_eq_ok.mpr ⟨_, hpre, hpost⟩
            exact .rejected (by rw [hms, List.append_assoc]) hall hm he

/-- The error may leave a template. -/
theorem within {e : Error} (h : Follows s s' ms (some e)) (raw : String) :
    Follows s s' ms (some (e.within raw)) where
  args := h.args
  quiet := h.quiet
  observes := by
    cases h.observes with
    | admitted hms he =>
        refine .admitted hms ?_
        rintro _ ⟨⟩ hmixed
        exact (he e rfl hmixed).within raw
    | rejected hms hpre hm he =>
        cases he
        exact .rejected (e := e.within raw) hms hpre hm rfl

end Follows

/-- A computation does to its session what its trace says. -/
def Evaluates {σ α : Type} (view : σ → Session) (x : EStateM Error σ α) (t : Trace σ) : Prop :=
  ∀ s, Follows (view s) (view (finish (x s))) (t s) (error? (x s))

namespace Evaluates

variable {σ α β : Type} {view : σ → Session} {x : EStateM Error σ α} {t : Trace σ}

theorem pure (a : α) : Evaluates view (pure a) .none := fun _ => .refl nofun

theorem throw {e : Error} (he : e.IsMixed → e.OfOneTemplate) :
    Evaluates (α := α) view (throw e) .none := by
  intro s
  refine .refl ?_
  rintro _ ⟨⟩
  exact he

theorem fail {cause : Cause} (h : ∀ first second, cause ≠ .mixedStyles first second) :
    Evaluates (α := α) view (fail cause) .none := by
  refine throw ?_
  rintro ⟨first, second, hcause⟩
  exact absurd hcause (h first second)

theorem bind {k : α → EStateM Error σ β} {l : α → Trace σ} (hx : Evaluates view x t)
    (hk : ∀ a, Evaluates view (k a) (l a)) : Evaluates view (x >>= k) (.bind x t l) := by
  intro s
  have h := hx s
  unfold Trace.bind
  cases hs : x s with
  | ok a s' =>
      rw [hs] at h
      rw [bind_of_ok hs]
      exact h.trans (hk a s')
  | error e s' =>
      rw [hs] at h
      rw [bind_of_error hs, List.append_nil]
      exact h

theorem map (g : α → β) (h : Evaluates view x t) : Evaluates view (g <$> x) t := by
  intro s
  have h := h s
  cases hs : x s with
  | ok a s' =>
      rw [hs] at h
      rw [map_of_ok hs]
      exact h
  | error e s' =>
      rw [hs] at h
      rw [map_of_error hs]
      exact h

theorem within (raw : String) (h : Evaluates view x t) :
    Evaluates view (SqlTemplate.within raw x) t := by
  intro s
  have h := h s
  unfold SqlTemplate.within
  cases hs : x s with
  | ok a s' =>
      rw [hs] at h
      exact h
  | error e s' =>
      rw [hs] at h
      exact h.within raw

end Evaluates

namespace Render

/-! ## The trace of a template -/

/-- The trace of a reference to a child, which is rendered if nothing is remembered of it, and
otherwise only if it has arguments and placeholders are positional. -/
def Scope.childTrace (scope : Scope) (child : Reference → Trace Session) (r : Reference) :
    Trace Frame := fun f =>
  match scope.child? r with
  | none => []
  | some c =>
    if (f.session.style = some .positional ∧ c.hasArgs) ∨ (f.memo.texts.lookup r).isNone then
      child r f.session
    else []

/-- The trace of a reference. -/
def Scope.resolveTrace (scope : Scope) (child : Reference → Trace Session) (index : Nat) :
    DeclKind → Trace Frame
  | .arg => fun f => [⟨f.session.style.getD .indexed, scope.raw⟩]
  | .column => scope.childTrace child ⟨.column, index⟩
  | .table => Trace.none
  | .segment => scope.childTrace child ⟨.segment, index⟩

/-- The trace of a custom function. -/
def Scope.followTrace (scope : Scope) (child : Reference → Trace Session) : Action → Trace Frame
  | .done _ => Trace.none
  | .fail _ => Trace.none
  | .resolve kind index next =>
    Trace.bind (observing (scope.resolve index kind)) (scope.resolveTrace child index kind)
      fun outcome => scope.followTrace child (next outcome)
  | .style next => fun f => scope.followTrace child (next f.session.style) f
  | .template next => scope.followTrace child (next scope.raw)

mutual

def Part.trace (scope : Scope) (child : Reference → Trace Session) : Part → Trace Frame
  | .text _ => Trace.none
  | .bind marker _ => fun _ => [⟨marker, scope.raw⟩]
  | .refer kind index => scope.resolveTrace child index kind
  | .fail _ => Trace.none
  | .follow a => scope.followTrace child a
  | .join template _ iterations => Part.traceEach scope child template iterations

def Part.traceAll (scope : Scope) (child : Reference → Trace Session) : List Part → Trace Frame
  | [] => Trace.none
  | p :: rest => Trace.bind (p.run scope) (p.trace scope child) fun _ =>
    Part.traceAll scope child rest

def Part.traceEach (scope : Scope) (child : Reference → Trace Session) (template : String) :
    List (List Part) → Trace Frame
  | [] => Trace.none
  | parts :: rest =>
    Trace.bind (within template (Part.runAll scope parts)) (Part.traceAll scope child parts)
      fun _ => Part.traceEach scope child template rest

end

/-- The trace of the template of a scope, given those of the children. -/
def Scope.trace (registry : Registry) (scope : Scope) (child : Reference → Trace Session) :
    Trace Session := fun s =>
  match parse scope.raw with
  | .error _ => []
  | .ok c => Part.traceAll scope child (unroll registry scope c) { session := s }

section Template

variable {scope : Scope} {child : Reference → Trace Session}

/-- Once its marker is admitted, a placeholder leaves the choice as it is. -/
theorem Scope.bind_of_observe {scope : Scope} {marker st : Style} {choice : StyleChoice}
    {f : Frame} (h : f.session.choice.observe marker scope.raw = .ok (st, choice)) (index : Nat) :
    (finish (scope.bind marker index f)).session.choice = choice ∧
      ∀ e, error? (scope.bind marker index f) = some e → ¬ e.IsMixed := by
  rw [Scope.bind, bind_of_ok (ScopeM.observe_of_ok h)]
  cases hdecl : declaration? scope.args index with
  | none =>
      rw [ScopeM.declared_eq, hdecl]
      refine ⟨rfl, ?_⟩
      rintro _ ⟨⟩ ⟨first, second, hcause⟩
      cases hcause
  | some v =>
      rw [bind_of_ok (ScopeM.declared_eq_ok.mpr ⟨hdecl, rfl⟩)]
      cases st with
      | indexed =>
          obtain ⟨n, f', hslot, hbeside⟩ := ScopeM.slot_beside index v _
          dsimp only
          rw [bind_of_ok hslot]
          exact ⟨hbeside.choice, nofun⟩
      | positional =>
          obtain ⟨n, f', happend, hbeside⟩ := ScopeM.append_beside v _
          dsimp only
          rw [bind_of_ok happend]
          exact ⟨hbeside.choice, nofun⟩

/-- A marker is observed before its argument is looked for. -/
theorem Scope.bind_evaluates (scope : Scope) (marker : Style) (index : Nat) :
    Evaluates Frame.session (scope.bind marker index) fun _ => [⟨marker, scope.raw⟩] := by
  intro f
  refine ⟨?_, nofun, ?_⟩
  · exact ((scope.bind_moves Session.admits_extends marker index).finish f).args
  · cases hobs : f.session.choice.observe marker scope.raw with
    | error cause =>
        have hrun : scope.bind marker index f = .error (.ofCause cause) f :=
          bind_of_error (ScopeM.observe_of_error hobs) _
        rw [hrun]
        have hnone : f.session.choice.observeAll [] = .ok f.session.choice := rfl
        exact .rejected (e := .ofCause cause) rfl hnone hobs rfl
    | ok p =>
        obtain ⟨hchoice, herror⟩ := Scope.bind_of_observe hobs index
        refine .admitted ?_ fun e he hmixed => absurd hmixed (herror e he)
        rw [StyleChoice.observeAll, hobs, hchoice]
        rfl

/-- The trace of each child is what its build evaluates. -/
def Scope.ChildrenEvaluate (scope : Scope) (child : Reference → Trace Session) : Prop :=
  ∀ r c, scope.child? r = some c → Evaluates id c.render (child r)

theorem Scope.child_evaluates (h : scope.ChildrenEvaluate child) {kind : DeclKind}
    {children : List Child}
    (hchild : ∀ index, scope.child? ⟨kind, index⟩ = declaration? children index) (index : Nat) :
    Evaluates Frame.session (Scope.child kind children index)
      (scope.childTrace child ⟨kind, index⟩) := by
  intro f
  rw [Scope.child_apply, Scope.childTrace, hchild]
  cases hdecl : declaration? children index with
  | none =>
      refine .refl ?_
      rintro _ ⟨⟩ ⟨first, second, hcause⟩
      cases hcause
  | some c =>
      have hc := h ⟨kind, index⟩ c ((hchild index).trans hdecl) f.session
      have hrender : Follows f.session
          (finish (ScopeM.renderChild ⟨kind, index⟩ c (f.refer ⟨kind, index⟩))).session
          (child ⟨kind, index⟩ f.session)
          (error? (ScopeM.renderChild ⟨kind, index⟩ c (f.refer ⟨kind, index⟩))) := by
        rw [ScopeM.renderChild_apply, Frame.refer_session]
        cases hx : c.render f.session <;> rw [hx] at hc <;> exact hc
      dsimp only
      by_cases hagain : f.session.style = some .positional ∧ c.hasArgs
      · rw [if_pos hagain, if_pos (.inl hagain)]
        exact hrender
      · rw [if_neg hagain]
        cases hl : f.memo.texts.lookup ⟨kind, index⟩ with
        | none =>
            rw [if_pos (.inr rfl)]
            exact hrender
        | some out =>
            rw [if_neg (by simp [hagain])]
            exact .refl nofun

theorem Scope.resolve_evaluates (h : scope.ChildrenEvaluate child) (index : Nat)
    {kind : DeclKind} (hkind : kind ≠ .arg) :
    Evaluates Frame.session (scope.resolve index kind) (scope.resolveTrace child index kind) := by
  cases kind with
  | arg => exact absurd rfl hkind
  | column => exact child_evaluates h (fun _ => rfl) index
  | segment => exact child_evaluates h (fun _ => rfl) index
  | table =>
      intro f
      show Follows f.session (finish ((ScopeM.declared .table scope.tables index >>= _) f)).session
        [] (error? ((ScopeM.declared .table scope.tables index >>= _) f))
      rw [ScopeM.declared_eq]
      cases declaration? scope.tables index with
      | none =>
          refine .refl ?_
          rintro _ ⟨⟩ ⟨first, second, hcause⟩
          cases hcause
      | some t => exact .refl nofun

theorem Part.evaluates_traceAll {parts : List Part}
    (h : ∀ p ∈ parts, Evaluates Frame.session (p.run scope) (p.trace scope child)) :
    Evaluates Frame.session (Part.runAll scope parts) (Part.traceAll scope child parts) := by
  induction parts with
  | nil => exact .pure _
  | cons p rest ih =>
      rw [Part.runAll, Part.traceAll]
      refine .bind (h p (by simp)) fun out => ?_
      exact .map _ (ih fun q hq => h q (by simp [hq]))

theorem Part.evaluates_traceEach (template : String) {iterations : List (List Part)}
    (h : ∀ parts ∈ iterations, ∀ p ∈ parts,
      Evaluates Frame.session (p.run scope) (p.trace scope child)) :
    Evaluates Frame.session (Part.runEach scope template iterations)
      (Part.traceEach scope child template iterations) := by
  induction iterations with
  | nil => exact .pure _
  | cons parts rest ih =>
      rw [Part.runEach, Part.traceEach]
      refine .bind (.within template (evaluates_traceAll (h parts (by simp)))) fun out => ?_
      exact .map _ (ih fun qs hqs => h qs (by simp [hqs]))

/-- The parts of a clause evaluate the markers of their traces. -/
theorem Scope.evaluates_unroll (h : scope.ChildrenEvaluate child) (c : Clause) :
    Evaluates Frame.session (Part.runAll scope (unroll .standard scope c))
      (Part.traceAll scope child (unroll .standard scope c)) := by
  refine Part.evaluates_traceAll (unroll_induction ?_ ?_ ?_ ?_ ?_ ?_ ?_ c)
  · exact fun s => .pure _
  · exact scope.bind_evaluates
  · exact fun kind index hkind => resolve_evaluates h index hkind
  · exact fun cause hcause => .fail hcause
  · exact fun _ _ hf => absurd hf Function.not_custom_of_lookup
  · exact fun template cause hparse => .throw (Error.ofOneTemplate_of_parse hparse)
  · exact fun template separator iterations hparts =>
      .map _ (Part.evaluates_traceEach template hparts)

theorem Scope.checkUse_ne_mixedStyles {used : List Reference} {first second : StyleUse} :
    scope.checkUse used ≠ .error (.mixedStyles first second) := by
  unfold checkUse
  split <;> nofun

/-- The check of the declarations evaluates nothing. -/
theorem Scope.build_evaluates {registry : Registry} {c : Clause} {t : Trace Frame}
    (h : Evaluates Frame.session (Render.evaluate registry scope c) t) :
    Evaluates id (scope.build registry c) fun s => t { session := s } := by
  intro s
  have hrun := h { session := s }
  rw [build, finish_conclude]
  cases hx : Render.evaluate registry scope c { session := s } with
  | error e f =>
      rw [hx] at hrun
      exact hrun
  | ok out f =>
      rw [hx] at hrun
      unfold conclude
      dsimp only
      cases hcheck : scope.checkUse f.memo.used with
      | ok _ => exact hrun
      | error cause =>
          rw [← List.append_nil (t _)]
          refine hrun.trans (.refl ?_)
          rintro _ ⟨⟩ ⟨first, second, hcause⟩
          obtain rfl : cause = .mixedStyles first second := hcause
          exact absurd hcheck checkUse_ne_mixedStyles

/-- **A template evaluates the markers of its trace.** -/
theorem Scope.render_evaluates {registry : Registry} (hr : registry.HasBuiltins)
    (hbuiltins : ∀ c, parse scope.raw = .ok c → ∀ name, c.Names name → Function.isBuiltin name)
    (h : scope.ChildrenEvaluate child) :
    Evaluates id (scope.render registry) (scope.trace registry child) := by
  unfold Scope.trace
  cases hparse : parse scope.raw with
  | error cause =>
      rw [render_of_parse_error hparse]
      exact .throw (Error.ofOneTemplate_of_parse hparse)
  | ok c =>
      have hrun := evaluates_unroll h c
      rw [← unroll_eq_standard hr scope c (hbuiltins c hparse), ← evaluate_eq_runAll] at hrun
      rw [render_of_parse_ok hparse]
      exact .within scope.raw (build_evaluates hrun)

end Template

end Render

open Render

/-! ## The trace of a tree -/

/-- The traces of the children of a template. -/
def childTraces (columns segments : List (Trace Session)) : Reference → Trace Session
  | ⟨.column, index⟩ => (declaration? columns index).getD Trace.none
  | ⟨.segment, index⟩ => (declaration? segments index).getD Trace.none
  | _ => Trace.none

def Column.trace (registry : Registry) (c : Column) : Trace Session :=
  c.scope.trace registry (childTraces [] [])

namespace Segment

mutual

/-- The markers that the build of a segment evaluates, in its template and below. -/
def trace (registry : Registry) : Segment → Trace Session
  | ⟨raw, args, columns, tables, segments, lead, trail⟩ =>
    (scope registry ⟨raw, args, columns, tables, segments, lead, trail⟩).trace registry
      (childTraces (columns.map (Column.trace registry)) (traces registry segments))

def traces (registry : Registry) : List Segment → List (Trace Session)
  | [] => []
  | s :: rest => s.trace registry :: traces registry rest

end

theorem traces_eq_map (registry : Registry) (segments : List Segment) :
    traces registry segments = segments.map (trace registry) := by
  induction segments with
  | nil => rfl
  | cons s rest ih => rw [traces, ih, List.map_cons]

theorem trace_eq (registry : Registry) (s : Segment) :
    s.trace registry = (s.scope registry).trace registry
      (childTraces (s.columns.map (Column.trace registry)) (s.segments.map (trace registry))) := by
  cases s
  rw [trace, traces_eq_map]

end Segment

/-- A column has no children. -/
theorem Column.childrenEvaluate (c : Column) (child : Reference → Trace Session) :
    c.scope.ChildrenEvaluate child := by
  rintro ⟨kind, index⟩ c' hc
  have hmem : c' ∈ ([] : List Child) := by
    cases kind with
    | arg => cases hc
    | column => exact mem_of_declaration? hc
    | table => cases hc
    | segment => exact mem_of_declaration? hc
  cases hmem

theorem Column.render_evaluates {registry : Registry} (hr : registry.HasBuiltins) {c : Column}
    (h : ∀ clause, parse c.raw = .ok clause → ∀ name, clause.Names name →
      Function.isBuiltin name) : Evaluates id (c.render registry) (c.trace registry) :=
  .map _ (Scope.render_evaluates hr h (c.childrenEvaluate _))

namespace Segment

/-- Each child evaluates the markers of the trace at its place. -/
theorem childrenEvaluate {registry : Registry} {s : Segment}
    (hcolumns : ∀ c ∈ s.columns, Evaluates id (c.render registry) (c.trace registry))
    (hsegments : ∀ child ∈ s.segments,
      Evaluates id (child.render registry) (child.trace registry)) :
    (s.scope registry).ChildrenEvaluate
      (childTraces (s.columns.map (Column.trace registry)) (s.segments.map (trace registry))) := by
  rintro ⟨kind, index⟩ c hc
  cases kind with
  | arg => cases hc
  | table => cases hc
  | column =>
      obtain ⟨col, hcol, rfl⟩ := Option.map_eq_some_iff.mp
        ((declaration?_map (Column.child registry) s.columns index).symm.trans hc)
      rw [childTraces, declaration?_map, hcol]
      exact hcolumns col (mem_of_declaration? hcol)
  | segment =>
      obtain ⟨seg, hseg, rfl⟩ := Option.map_eq_some_iff.mp
        ((declaration?_map (child registry) s.segments index).symm.trans hc)
      rw [childTraces, declaration?_map, hseg]
      exact hsegments seg (mem_of_declaration? hseg)

/-- **A segment evaluates the markers of its trace.** -/
theorem render_evaluates {registry : Registry} (hr : registry.HasBuiltins) {s : Segment}
    (h : s.UsesBuiltins) : Evaluates id (s.render registry) (s.trace registry) := by
  induction s using Segment.induction with
  | step s ih =>
      rw [render_eq, trace_eq]
      refine .map _ (Scope.render_evaluates hr (h s.raw (raw_mem_templates s))
        (childrenEvaluate (fun c hc => ?_) fun child hchild => ?_))
      · exact Column.render_evaluates hr (h c.raw (column_mem_templates hc))
      · exact ih child hchild fun raw hraw => h raw (templates_subset hchild hraw)

end Segment

end SqlTemplate
