import SqlTemplate.Proofs.Markers
import SqlTemplate.Proofs.Statement

/-!
# Sessions over many builds

A session is used by one build after the other, whether they succeed or fail. Its arguments
are never taken back, and its style is settled once: by the first marker that any of the
builds evaluates, unless the caller settled it before. The builds are segments and queries,
so the trace of a query comes first: that of its clauses, as far as they are rendered.
-/

namespace SqlTemplate

open Render

/-! ## The trace of a query -/

/-- The trace of a computation that is made for each item of a list. -/
def Trace.mapM {σ α γ : Type} (f : γ → EStateM Error σ α) (t : γ → Trace σ) : List γ → Trace σ
  | [] => Trace.none
  | c :: rest => Trace.bind (f c) (t c) fun _ => Trace.mapM f t rest

namespace Evaluates

variable {σ α β γ : Type} {view : σ → Session} {t : Trace σ}

theorem mapM {f : γ → EStateM Error σ α} {t : γ → Trace σ} {xs : List γ}
    (h : ∀ c ∈ xs, Evaluates view (f c) (t c)) :
    Evaluates view (xs.mapM f) (Trace.mapM f t xs) := by
  induction xs with
  | nil => exact .pure _
  | cons c rest ih =>
      rw [List.mapM_cons, Trace.mapM]
      refine .bind (h c (by simp)) fun a => ?_
      exact .map _ (ih fun d hd => h d (by simp [hd]))

/-- A check that the computation has to pass. -/
theorem check {c : Prop} [Decidable c] {cause : Cause}
    (hcause : ∀ first second, cause ≠ .mixedStyles first second)
    {f : PUnit → EStateM Error σ α} (h : Evaluates view (f ()) t) :
    Evaluates view (if c then SqlTemplate.fail cause >>= f else f ())
      (if c then Trace.none else t) := by
  split
  · exact fail (α := α) hcause
  · exact h

/-- What follows evaluates nothing. -/
theorem last {x : EStateM Error σ α} (hx : Evaluates view x t) {k : α → EStateM Error σ β}
    (hk : ∀ a, Evaluates view (k a) Trace.none) : Evaluates view (x >>= k) t := by
  have htrace : Trace.bind x t (fun _ => Trace.none) = t := by
    funext s
    unfold Trace.bind
    cases x s <;> exact List.append_nil _
  rw [← htrace]
  exact .bind hx hk

end Evaluates

namespace Query

/-- What is nested in a query: how it is rendered, and which markers this evaluates. -/
structure Traced where
  render : RenderM Output
  trace : Trace Session

namespace QueryOf

variable {B : Type}

/-- The trace of the declared queries, of which those are rendered that are tables of the FROM
clause. -/
def ctesTrace (froms : List FromEntry) : List (Cte Traced) → Trace Session
  | [] => Trace.none
  | cte :: rest =>
    if froms.any fun e => e.table.name == cte.name then
      Trace.bind (within ("WITH " ++ cte.name) cte.body.render) cte.body.trace fun _ =>
        ctesTrace froms rest
    else ctesTrace froms rest

/-- The trace of a query that selects `selects`, clause by clause in the order of the
rendering. -/
def trace (registry : Registry) (q : QueryOf B) (ctes : List (Cte Traced)) (unions : List Traced)
    (selects : Segment) : Trace Session :=
  if q.faults ≠ [] then Trace.none
  else if q.anchor.isNone then Trace.none
  else
    match q.needed selects with
    | .error _ => Trace.none
    | .ok needed =>
      let clause (s : Segment) (next : Output → Trace Session) : Trace Session :=
        Trace.bind (s.render registry) (s.trace registry) next
      let froms := q.rendered needed
      Trace.bind (renderCtes froms (ctes.map (Cte.map Traced.render))) (ctesTrace froms ctes)
        fun _ => clause selects fun columns =>
      if columns.isEmpty then Trace.none
      else
        clause q.touches fun _ =>
        Trace.bind (froms.mapM fun e => e.segment.render registry)
          (Trace.mapM (fun e => e.segment.render registry) (fun e => e.segment.trace registry)
            froms) fun _ =>
        clause q.conditions fun _ => clause q.groupBys fun _ => clause q.orders fun _ =>
        Trace.mapM Traced.render Traced.trace unions

end QueryOf

mutual

/-- The markers that the build of a segment or a query evaluates. -/
def Builder.trace (registry : Registry) : Builder → Trace Session
  | .segment s => s.trace registry
  | .query ⟨settings, own, ctes, anchor, joins, selects, touches, conditions, orders, groupBys,
      distinct, limit, offset, unions, faults⟩ =>
    let q : Query := ⟨settings, own, ctes, anchor, joins, selects, touches, conditions, orders,
      groupBys, distinct, limit, offset, unions, faults⟩
    q.trace registry (Builder.cteTraces registry ctes) (Builder.traces registry unions) selects

def Builder.cteTraces (registry : Registry) : List (Cte Builder) → List (Cte Traced)
  | [] => []
  | ⟨name, body⟩ :: rest =>
    ⟨name, body.render registry, body.trace registry⟩ :: Builder.cteTraces registry rest

def Builder.traces (registry : Registry) : List Builder → List Traced
  | [] => []
  | b :: rest => ⟨b.render registry, b.trace registry⟩ :: Builder.traces registry rest

end

namespace Builder

/-- The builder as it is nested in another. -/
def traced (registry : Registry) (b : Builder) : Traced := ⟨b.render registry, b.trace registry⟩

theorem cteTraces_eq_map (registry : Registry) (ctes : List (Cte Builder)) :
    cteTraces registry ctes = ctes.map (Cte.map (traced registry)) := by
  induction ctes with
  | nil => rfl
  | cons cte rest ih => rw [cteTraces, ih, List.map_cons, Cte.map, traced]

theorem traces_eq_map (registry : Registry) (unions : List Builder) :
    traces registry unions = unions.map (traced registry) := by
  induction unions with
  | nil => rfl
  | cons b rest ih => rw [traces, ih, List.map_cons, traced]

end Builder

namespace QueryOf

variable {B : Type}

theorem renderCtes_evaluates (froms : List FromEntry) {ctes : List (Cte Traced)}
    (h : ∀ cte ∈ ctes, Evaluates id cte.body.render cte.body.trace) :
    Evaluates id (renderCtes froms (ctes.map (Cte.map Traced.render))) (ctesTrace froms ctes) := by
  induction ctes with
  | nil => exact .pure _
  | cons cte rest ih =>
      have hrest := ih fun c hc => h c (by simp [hc])
      rw [List.map_cons, renderCtes, ctesTrace]
      by_cases huse : froms.any fun e => e.table.name == cte.name
      · simp only [Cte.map, huse, if_true]
        refine .bind (.within _ (h cte (by simp))) fun body => .last hrest fun others => ?_
        split <;> exact .pure _
      · simp only [Cte.map, huse]
        exact hrest

/-- **The clauses of a query are traced in the order in which they are rendered.** -/
theorem compose_evaluates {registry : Registry} (hr : registry.HasBuiltins) {q : QueryOf B}
    {selects : Segment} (hclauses : ∀ s ∈ q.shown q.froms selects, s.UsesBuiltins)
    {ctes : List (Cte Traced)} {unions : List Traced}
    (hctes : ∀ cte ∈ ctes, Evaluates id cte.body.render cte.body.trace)
    (hunions : ∀ b ∈ unions, Evaluates id b.render b.trace) :
    Evaluates id
      (q.compose registry (ctes.map (Cte.map Traced.render)) (unions.map Traced.render) selects)
      (q.trace registry ctes unions selects) := by
  have hclause : ∀ s ∈ [selects, q.touches, q.conditions, q.groupBys, q.orders],
      Evaluates id (s.render registry) (s.trace registry) :=
    fun s hs => s.render_evaluates hr (hclauses s (List.mem_append_left _ hs))
  have hfrom : ∀ e ∈ q.froms,
      Evaluates id (e.segment.render registry) (e.segment.trace registry) :=
    fun e he => e.segment.render_evaluates hr
      (hclauses _ (List.mem_append_right _ (List.mem_map_of_mem he)))
  have hcause : ∀ faults first second, Cause.badQuery faults ≠ .mixedStyles first second := nofun
  unfold compose trace
  refine .check (hcause _) (.check (hcause _) ?_)
  cases q.needed selects with
  | error fault => exact .fail (α := Output) (hcause _)
  | ok needed =>
      refine .bind (renderCtes_evaluates _ hctes) fun named => ?_
      refine .bind (hclause _ (by simp)) fun columns => .check (hcause _) ?_
      refine .bind (hclause _ (by simp)) fun touches => ?_
      refine .bind (.mapM fun e he => hfrom e (mem_rendered_iff.mp he).1) fun tables => ?_
      refine .bind (hclause _ (by simp)) fun conditions => ?_
      refine .bind (hclause _ (by simp)) fun groupBys => ?_
      refine .bind (hclause _ (by simp)) fun orders => ?_
      rw [List.mapM_map]
      refine .last (.mapM hunions) fun others => ?_
      split <;> exact .pure _

end QueryOf

/-- **What is nested in a query evaluates the markers of its trace**, at any depth. -/
theorem Builder.render_evaluates {registry : Registry} (hr : registry.HasBuiltins) {b : Builder}
    (h : b.UsesBuiltins) : Evaluates id (b.render registry) (b.trace registry) := by
  induction h with
  | segment h => exact Segment.render_evaluates hr h
  | @query q clauses _ _ ctes unions =>
      have htraced : ∀ cte ∈ q.ctes.map (Cte.map (traced registry)),
          Evaluates id cte.body.render cte.body.trace := by
        intro cte hcte
        obtain ⟨cte', hcte', rfl⟩ := List.mem_map.mp hcte
        exact ctes cte' hcte'
      have htraced' : ∀ b ∈ q.unions.map (traced registry), Evaluates id b.render b.trace := by
        intro b hb
        obtain ⟨b', hb', rfl⟩ := List.mem_map.mp hb
        exact unions b' hb'
      have hcompose := QueryOf.compose_evaluates hr clauses htraced htraced'
      rw [List.map_map, List.map_map] at hcompose
      rw [Builder.render, Builder.trace, cteBodies_eq_map, bodies_eq_map, cteTraces_eq_map,
        traces_eq_map]
      exact hcompose

end Query

/-! ## Markers that are rejected -/

theorem StyleChoice.observe_eq_error {choice : StyleChoice} {marker : Style} {raw : String}
    {cause : Cause} (h : choice.observe marker raw = .error cause) :
    ∃ st origin, choice = .inferred st origin ∧ marker ≠ st ∧
      cause = .mixedStyles (.template origin) (.template raw) := by
  cases choice with
  | «open» => cases h
  | configured st => cases h
  | inferred st origin =>
      by_cases hst : st = marker
      · rw [observe, if_pos hst] at h
        cases h
      · rw [observe, if_neg hst] at h
        cases h
        exact ⟨st, origin, rfl, Ne.symm hst, rfl⟩

namespace Follows

variable {s s' : Session} {pre post ms : List Marker} {m : Marker} {e? : Option Error}

theorem choice_eq (h : Follows s s' ms e?) : s'.choice = s.choice.settle ms := by
  cases h.observes with
  | admitted hall _ => exact StyleChoice.eq_settle_of_observeAll hall
  | @rejected pre m e hms hpre hm _ =>
      -- The choice that rejects a marker is not open.
      obtain ⟨st, origin, hchoice, _⟩ := StyleChoice.observe_eq_error hm
      rw [hms, StyleChoice.settle_append, ← StyleChoice.eq_settle_of_observeAll hpre, hchoice]
      rfl

/-- Behind a marker of another style than the inferred one there is none, and the build fails. -/
theorem mixed (h : Follows s s' (pre ++ m :: post) e?) {st : Style} {origin : String}
    (hpre : s.choice.settle pre = .inferred st origin) (hm : m.style ≠ st) :
    post = [] ∧ ∃ e, e? = some e ∧
      e.cause = .mixedStyles (.template origin) (.template m.raw) := by
  cases h.observes with
  | admitted hall _ => exact absurd hall (StyleChoice.observeAll_ne_ok hpre hm)
  | @rejected pre' m' e hms hbefore hreject he =>
      rcases List.eq_nil_or_concat post with rfl | ⟨post', last, rfl⟩
      · obtain ⟨rfl, hlast⟩ := List.append_inj' hms rfl
        obtain rfl : m = m' := by simpa using hlast
        obtain ⟨st', origin', hchoice, _, hcause⟩ := StyleChoice.observe_eq_error hreject
        rw [StyleChoice.eq_settle_of_observeAll hbefore, hpre] at hchoice
        cases hchoice
        exact ⟨rfl, e, he, hcause⟩
      · -- The marker would be one of those that were admitted.
        have hsplit : pre ++ m :: post' ++ [last] = pre' ++ [m'] := by simpa using hms
        obtain ⟨hpre', _⟩ := List.append_inj' hsplit rfl
        rw [← hpre'] at hbefore
        exact absurd hbefore (StyleChoice.observeAll_ne_ok hpre hm)

/-- Styles are mixed in one template, or the last marker has another style than the inferred
one. -/
theorem cases_of_isMixed {e : Error} (h : Follows s s' ms (some e)) (hmixed : e.IsMixed) :
    e.OfOneTemplate ∨ ∃ pre m st origin, ms = pre ++ [m] ∧
      s.choice.settle pre = .inferred st origin ∧ m.style ≠ st := by
  cases h.observes with
  | admitted _ he => exact .inl (he e rfl hmixed)
  | @rejected pre m e hms hpre hm he =>
      obtain ⟨st, origin, hchoice, hst, _⟩ := StyleChoice.observe_eq_error hm
      rw [StyleChoice.eq_settle_of_observeAll hpre] at hchoice
      exact .inr ⟨pre, m, st, origin, hms, hchoice, hst⟩

end Follows

/-! ## Sequences of builds -/

namespace Session

open Query (Builder)

/-- The session after a build, which may succeed or fail. -/
def after (registry : Registry) (s : Session) (b : Builder) : Session :=
  finish (b.render registry s)

/-- The session after some builds. -/
def afterAll (registry : Registry) (s : Session) (bs : List Builder) : Session :=
  bs.foldl (after registry) s

/-- The markers that some builds evaluate. -/
def traceAll (registry : Registry) : List Builder → Trace Session
  | [] => Trace.none
  | b :: rest => fun s => b.trace registry s ++ traceAll registry rest (s.after registry b)

/-- From one session to a later one arguments were appended, but none without a marker, and the
markers settled the style. -/
structure Since (s s' : Session) (ms : List Marker) : Prop where
  args : s.args <+: s'.args
  quiet : ms = [] → s'.args = s.args
  choice : s'.choice = s.choice.settle ms

namespace Since

variable {s s' s'' : Session} {ms ms' : List Marker}

theorem of_follows {e? : Option Error} (h : Follows s s' ms e?) : Since s s' ms :=
  ⟨h.args, h.quiet, h.choice_eq⟩

theorem refl (s : Session) : Since s s [] where
  args := List.prefix_rfl
  quiet _ := rfl
  choice := by cases s.choice <;> rfl

theorem trans (h : Since s s' ms) (h' : Since s' s'' ms') : Since s s'' (ms ++ ms') where
  args := h.args.trans h'.args
  quiet hms := by
    obtain ⟨hms, hms'⟩ := List.append_eq_nil_iff.mp hms
    rw [h'.quiet hms', h.quiet hms]
  choice := by rw [h'.choice, h.choice, StyleChoice.settle_append]

/-- A session with arguments that it did not begin with has a style. -/
theorem style_ne_none (h : Since s s' ms) (hargs : s'.args ≠ s.args) : s'.style ≠ none := by
  obtain ⟨m, rest, rfl⟩ := List.exists_cons_of_ne_nil (mt h.quiet hargs)
  rw [Session.style, h.choice]
  cases s.choice <;> simp [StyleChoice.settle, StyleChoice.style]

/-- A choice that has changed does not change again. -/
theorem choice_eq_of_ne (h : Since s s' ms) (h' : Since s' s'' ms')
    (hne : s'.choice ≠ s.choice) : s''.choice = s'.choice := by
  rw [h'.choice]
  rw [h.choice] at hne ⊢
  cases hs : s.choice <;> cases ms <;> simp_all [StyleChoice.settle]

end Since

/-- **The run of a session**: whatever is built into it, one after the other. -/
theorem since_afterAll {registry : Registry} (hr : registry.HasBuiltins) (s : Session)
    {bs : List Builder} (h : ∀ b ∈ bs, b.UsesBuiltins) :
    Since s (s.afterAll registry bs) (traceAll registry bs s) := by
  induction bs generalizing s with
  | nil => exact .refl s
  | cons b rest ih =>
      have hfirst : Since s (s.after registry b) (b.trace registry s) :=
        .of_follows (b.render_evaluates hr (h b (by simp)) s)
      exact hfirst.trans (ih (s.after registry b) fun b' hb' => h b' (by simp [hb']))

/-- What holds of a build with the outcome `r` in the session `before`, which began as `start`.
The markers `past` were evaluated since then, and `ms` are those of the build. -/
structure Keeps (start before : Session) (past ms : List Marker)
    (r : EStateM.Result Error Session Output) : Prop where
  /-- The arguments are appended to those before, also when the build fails. -/
  args : before.args <+: (finish r).args
  /-- Only an open style is settled, and by the first of all markers. -/
  choice : (finish r).choice = start.choice.settle (past ++ ms)
  /-- The style changes once. -/
  once : before.choice ≠ start.choice → (finish r).choice = before.choice
  /-- A session that began empty and has arguments has a style. -/
  settled : start.args = [] → (finish r).args ≠ [] → (finish r).style ≠ none
  /-- A marker of another style than the inferred one ends the build with an error, which names
  the template that fixed the style. -/
  mixed : ∀ pre m post st origin, ms = pre ++ m :: post →
    before.choice.settle pre = .inferred st origin → m.style ≠ st →
      post = [] ∧ ∃ e, r = .error e (finish r) ∧
        e.cause = .mixedStyles (.template origin) (.template m.raw)
  /-- Otherwise styles are mixed in one template. -/
  source : ∀ e s, r = .error e s → e.IsMixed → e.OfOneTemplate ∨
    ∃ pre m st origin, ms = pre ++ [m] ∧ before.choice.settle pre = .inferred st origin ∧
      m.style ≠ st
  /-- In a configured style they are mixed in no other way. -/
  configured : ∀ st, before.choice = .configured st → ∀ e s, r = .error e s → e.IsMixed →
    e.OfOneTemplate

/-- **Any number of builds into a session** append arguments and settle its style once, whether
they succeed or fail. -/
theorem afterAll_keeps {registry : Registry} (hr : registry.HasBuiltins) (s : Session)
    {done : List Builder} (hdone : ∀ b ∈ done, b.UsesBuiltins) {b : Builder}
    (hb : b.UsesBuiltins) :
    let before := s.afterAll registry done
    Keeps s before (traceAll registry done s) (b.trace registry before)
      (b.render registry before) := by
  intro before
  have hbefore : Since s before (traceAll registry done s) := since_afterAll hr s hdone
  have hfollows : Follows before (finish (b.render registry before)) (b.trace registry before)
      (error? (b.render registry before)) := b.render_evaluates hr hb before
  have hbuild := Since.of_follows hfollows
  have hafter := hbefore.trans hbuild
  have herror : ∀ e, error? (b.render registry before) = some e →
      b.render registry before = .error e (finish (b.render registry before)) := by
    intro e he
    cases hrun : b.render registry before with
    | ok out s' =>
        rw [hrun] at he
        cases he
    | error e' s' =>
        rw [hrun] at he
        cases he
        rfl
  have hsource : ∀ e s', b.render registry before = .error e s' → e.IsMixed →
      e.OfOneTemplate ∨ ∃ pre m st origin, b.trace registry before = pre ++ [m] ∧
        before.choice.settle pre = .inferred st origin ∧ m.style ≠ st := by
    intro e s' hrun hmixed
    rw [hrun] at hfollows
    exact hfollows.cases_of_isMixed hmixed
  refine ⟨hbuild.args, hafter.choice, hbefore.choice_eq_of_ne hbuild, ?_, ?_, hsource, ?_⟩
  · intro hempty hargs
    exact hafter.style_ne_none (hempty ▸ hargs)
  · intro pre m post st origin hms hpre hm
    rw [hms] at hfollows
    obtain ⟨hpost, e, he, hcause⟩ := hfollows.mixed hpre hm
    exact ⟨hpost, e, herror e he, hcause⟩
  · intro st hconfigured e s' hrun hmixed
    rcases hsource e s' hrun hmixed with hone | ⟨pre, m, st', origin, _, hpre, _⟩
    · exact hone
    · rw [hconfigured] at hpre
      cases hpre

/-- Two builds, of which the second one fails behind its placeholder. -/
def buildsSample : List Builder :=
  [.segment { raw := "a = #?(1) AND #s1", args := [.int 1], segments :=
      [{ raw := "b = ?", args := [.int 2] }] },
    .segment { raw := "c = ? AND #t1", args := [.int 3] }]

/-- The template of the first build fixes the style, and a later marker of the other style is
rejected. -/
theorem afterAll_keeps_sample :
    let before := Session.afterAll .standard {} buildsSample
    let late : Builder := .segment { raw := "d = $1", args := [.int 4] }
    before.args.length = 3 ∧
    traceAll .standard buildsSample {} = [⟨.positional, "a = #?(1) AND #s1"⟩,
      ⟨.positional, "b = ?"⟩, ⟨.positional, "c = ? AND #t1"⟩] ∧
    late.trace .standard before = [⟨.indexed, "d = $1"⟩] ∧
    ∃ e s, late.render .standard before = .error e s ∧ before.args <+: s.args ∧
      e.cause = .mixedStyles (.template "a = #?(1) AND #s1") (.template "d = $1") := by
  intro before late
  have hargs : before.args.length = 3 := by decide +kernel
  have hchoice : before.choice.settle [] = .inferred .positional "a = #?(1) AND #s1" := by
    decide +kernel
  have htraced : traceAll .standard buildsSample {} = [⟨.positional, "a = #?(1) AND #s1"⟩,
      ⟨.positional, "b = ?"⟩, ⟨.positional, "c = ? AND #t1"⟩] := by decide +kernel
  have htrace : late.trace .standard before = [⟨.indexed, "d = $1"⟩] := by decide +kernel
  have hdone : ∀ b ∈ buildsSample, b.UsesBuiltins :=
    List.forall_mem_cons.mpr ⟨.segment (Segment.usesBuiltins_of_check 1 (by decide +kernel)),
      List.forall_mem_cons.mpr
        ⟨.segment (Segment.usesBuiltins_of_check 1 (by decide +kernel)), nofun⟩⟩
  have hkeeps := afterAll_keeps Registry.hasBuiltins_standard {} hdone
    (b := late) (.segment (Segment.usesBuiltins_of_check 1 (by decide +kernel)))
  obtain ⟨_, e, herror, hcause⟩ := hkeeps.mixed [] ⟨.indexed, "d = $1"⟩ [] .positional
    "a = #?(1) AND #s1" htrace hchoice nofun
  exact ⟨hargs, htraced, htrace, e, _, herror, hkeeps.args, hcause⟩

end Session

end SqlTemplate
