import SqlTemplate.Proofs.Register
import SqlTemplate.Proofs.Statement

/-!
# The log of a sequence of builds

Queries are built one after the other, each in one of three ways, and every build
adds to the log what it has to say. A single build says at most one thing, which its
own query decides: the settings of the queries nested in it, at any depth, change
neither what is built nor what is logged (`run_events`).
-/

namespace SqlTemplate

namespace Query

/-! ## Settings -/

mutual

/-- Change the settings of a query and of all that is nested in it. -/
def Builder.withSettings (f : Settings → Settings) : Builder → Builder
  | .segment s => .segment s
  | .query ⟨settings, own, ctes, anchor, joins, selects, touches, conditions, orders, groupBys,
      distinct, limit, offset, unions, faults⟩ =>
    .query ⟨f settings, own, Builder.ctesWithSettings f ctes, anchor, joins, selects, touches,
      conditions, orders, groupBys, distinct, limit, offset, Builder.allWithSettings f unions,
      faults⟩

def Builder.ctesWithSettings (f : Settings → Settings) : List (Cte Builder) → List (Cte Builder)
  | [] => []
  | ⟨name, body⟩ :: rest => ⟨name, body.withSettings f⟩ :: Builder.ctesWithSettings f rest

def Builder.allWithSettings (f : Settings → Settings) : List Builder → List Builder
  | [] => []
  | b :: rest => b.withSettings f :: Builder.allWithSettings f rest

end

/-- Change the settings of all that is nested in a query, but not its own. -/
def withNested (f : Settings → Settings) (q : Query) : Query :=
  { q with
    ctes := Builder.ctesWithSettings f q.ctes
    unions := Builder.allWithSettings f q.unions }

/-- Log what is built of a query, or do not. -/
def withDebug (debug : Bool) (q : Query) : Query :=
  { q with settings := { q.settings with debug } }

namespace Builder

variable (f : Settings → Settings)

theorem ctesWithSettings_eq_map (ctes : List (Cte Builder)) :
    ctesWithSettings f ctes = ctes.map (Cte.map (withSettings f)) := by
  induction ctes with
  | nil => rfl
  | cons cte rest ih => rw [ctesWithSettings, ih, List.map_cons, Cte.map]

theorem allWithSettings_eq_map (unions : List Builder) :
    allWithSettings f unions = unions.map (withSettings f) := by
  induction unions with
  | nil => rfl
  | cons b rest ih => rw [allWithSettings, ih, List.map_cons]

theorem withSettings_query (q : Query) :
    (Builder.query q).withSettings f =
      .query { withNested f q with settings := f q.settings } := by
  cases q
  rfl

end Builder

section

variable {f : Settings → Settings} {registry : Registry} {q : Query}

/-- The rendering of a query has of what is nested in it just the renderings. -/
theorem renderWith_withNested_of
    (hctes : ∀ cte ∈ q.ctes, (cte.body.withSettings f).render registry = cte.body.render registry)
    (hunions : ∀ b ∈ q.unions, (b.withSettings f).render registry = b.render registry)
    (settings : Settings) (selects : Segment) :
    renderWith { withNested f q with settings } registry selects =
      renderWith q registry selects := by
  have hctes' : Builder.cteBodies registry (Builder.ctesWithSettings f q.ctes) =
      Builder.cteBodies registry q.ctes := by
    rw [Builder.ctesWithSettings_eq_map, Builder.cteBodies_eq_map, Builder.cteBodies_eq_map,
      List.map_map]
    refine List.map_congr_left fun cte hcte => ?_
    rw [Function.comp_apply, Cte.map, Cte.map, Cte.map, hctes cte hcte]
  have hunions' : Builder.bodies registry (Builder.allWithSettings f q.unions) =
      Builder.bodies registry q.unions := by
    rw [Builder.allWithSettings_eq_map, Builder.bodies_eq_map, Builder.bodies_eq_map, List.map_map]
    exact List.map_congr_left hunions
  unfold renderWith withNested
  rw [hctes', hunions']
  rfl

theorem Builder.render_withSettings (f : Settings → Settings) (registry : Registry) (b : Builder) :
    (b.withSettings f).render registry = b.render registry := by
  induction b using Builder.induction with
  | segment s => rfl
  | query q hctes hunions =>
      rw [Builder.withSettings_query, Builder.render_query, Builder.render_query]
      exact renderWith_withNested_of hctes hunions _ _

theorem renderWith_withNested (f : Settings → Settings) (registry : Registry) (q : Query)
    (selects : Segment) :
    renderWith (withNested f q) registry selects = renderWith q registry selects :=
  renderWith_withNested_of (fun _ _ => Builder.render_withSettings f registry _)
    (fun _ _ => Builder.render_withSettings f registry _) q.settings selects

end

/-! ## Operations -/

/-- The ways to build a query. -/
inductive Terminal
  | build
  | count (columns : List Column)
  | select (columns : List Column)

/-- A query to be built in one of the ways. -/
structure Operation where
  query : Query
  terminal : Terminal

namespace Operation

def outcome (op : Operation) : Outcome :=
  match op.terminal with
  | .build => build op.query
  | .count columns => buildCount op.query columns
  | .select columns => buildSelect op.query columns

/-- Build a query and add to the log. -/
def perform (op : Operation) : StateM (List Event) (Except Error Built) := do
  modify (· ++ op.outcome.events)
  return op.outcome.result

/-- The operation on the query that `f` makes of its own. -/
def onQuery (f : Query → Query) (op : Operation) : Operation := { op with query := f op.query }

/-- A text of the query in the log, cut as its settings say. -/
def logged (op : Operation) (text : String) : String :=
  match op.query.settings.maxLogged with
  | none => text
  | some budget => Text.shorten budget text

/-- What is logged of the query that an operation has built. A text is cut, but the message of an
interpolation that fails is not. -/
def record (op : Operation) (b : Built) : QueryRecord where
  level := .debug
  sql := op.logged b.sql
  interpolated := match b.interpolate with
    | .ok text => op.logged text
    | .error e => "<" ++ e.message ++ ">"
  style := b.style
  parameters := b.args.length

/-- What an operation has to log, if anything: the query that it has built, when the settings of
the query ask for that, or the failure of a plain build. -/
def event? (op : Operation) : Option Event :=
  match op.outcome.result, op.terminal with
  | .ok b, _ => if op.query.settings.debug then some (.built (op.record b)) else none
  | .error e, .build => some (.failed e.message)
  | .error _, _ => none

/-- A query that is finished logs what is built, and no failure. -/
theorem events_finish {op : Operation} {result : Except Error Built}
    (h : op.outcome = finish op.query result)
    (hbuild : ∀ e, result = .error e → op.terminal ≠ .build) :
    op.outcome.events = op.event?.toList := by
  cases result with
  | ok b =>
      have hrecord : (Logger.ofSettings op.query.settings).record b = op.record b := rfl
      cases hdebug : op.query.settings.debug <;> simp [event?, h, finish, hdebug, hrecord]
  | error e =>
      have hterminal := hbuild e rfl
      simp [event?, h, finish]

/-- An operation logs at most one thing. -/
theorem events_eq (op : Operation) : op.outcome.events = op.event?.toList := by
  obtain ⟨q, terminal⟩ := op
  cases terminal with
  | build =>
      cases hbuilt : Built.ofRender (render q (functions q)) (session q) with
      | ok b => exact events_finish (by rw [outcome, build, hbuilt]) fun _ h => by cases h
      | error e => simp [event?, outcome, build, hbuilt]
  | count columns => exact events_finish rfl fun _ _ h => by cases h
  | select columns => exact events_finish rfl fun _ _ h => by cases h

/-- One operation. -/
theorem perform_run (op : Operation) (log : List Event) :
    op.perform.run log = (op.outcome.result, log ++ op.event?.toList) := by
  rw [← events_eq]
  rfl

/-- One operation after the other. -/
theorem mapM_perform_run (ops : List Operation) (log : List Event) :
    (ops.mapM perform).run log =
      (ops.map fun op => op.outcome.result, log ++ ops.filterMap event?) := by
  induction ops generalizing log with
  | nil =>
      rw [List.filterMap_nil, List.append_nil]
      rfl
  | cons op rest ih =>
      have hlog : (op :: rest).filterMap event? = op.event?.toList ++ rest.filterMap event? := by
        cases hevent : op.event? <;> simp [hevent]
      rw [List.mapM_cons, hlog, ← List.append_assoc, StateT.run_bind, perform_run]
      change StateT.run (rest.mapM perform >>= _) _ = _
      rw [StateT.run_bind, ih]
      rfl

/-- What an operation renders, in a session of its query. -/
def rendering (op : Operation) : RenderM Output :=
  let q := op.query
  match op.terminal with
  | .build => render q (functions q)
  | .count columns =>
    countText <$> renderWith q (functions q)
      (if columns.isEmpty then q.selects else q.projection columns)
  | .select columns => renderWith q (functions q) (q.projection columns)

theorem result_eq (op : Operation) :
    op.outcome.result = Built.ofRender op.rendering (session op.query) := by
  obtain ⟨q, terminal⟩ := op
  cases terminal with
  | build =>
      simp only [outcome, build, rendering]
      cases Built.ofRender (render q (functions q)) (session q) <;> rfl
  | count columns => rfl
  | select columns => rfl

theorem result_withDebug (debug : Bool) (op : Operation) :
    (op.onQuery (withDebug debug)).outcome.result = op.outcome.result := by
  rw [result_eq, result_eq]
  rfl

theorem result_withNested (f : Settings → Settings) (op : Operation) :
    (op.onQuery (withNested f)).outcome.result = op.outcome.result := by
  have hrender := renderWith_withNested f (functions op.query) op.query
  rw [result_eq, result_eq]
  obtain ⟨q, terminal⟩ := op
  cases terminal with
  | build => exact congrArg (Built.ofRender · (session q)) (hrender q.selects)
  | count columns =>
      exact congrArg (fun x => Built.ofRender (countText <$> x) (session q))
        (hrender (if columns.isEmpty then q.selects else q.projection columns))
  | select columns =>
      exact congrArg (Built.ofRender · (session q)) (hrender (q.projection columns))

theorem perform_withNested (f : Settings → Settings) (op : Operation) :
    (op.onQuery (withNested f)).perform = op.perform := by
  have hevent : (op.onQuery (withNested f)).event? = op.event? := by
    rw [event?, result_withNested]
    rfl
  apply StateT.ext
  intro log
  rw [perform_run, perform_run, result_withNested, hevent]

/-- **Every operation logs what its own query says, and nothing else is logged.** The log grows
by one record for each query that is built where its own settings ask for that, and by one
failure for each plain build that fails, in the order of the operations. The results are the
same whatever the settings of the queries ask for; and neither the results nor the log depend on
the settings of what is nested in the queries, at any depth. -/
theorem run_events (ops : List Operation) (log : List Event) :
    (ops.mapM perform).run log =
      (ops.map fun op => op.outcome.result, log ++ ops.filterMap event?) ∧
    (∀ debug : Operation → Bool,
      (((ops.map fun op => op.onQuery (withDebug (debug op))).mapM perform).run log).1 =
        ((ops.mapM perform).run log).1) ∧
    ∀ f : Operation → Settings → Settings,
      (ops.map fun op => op.onQuery (withNested (f op))).mapM perform = ops.mapM perform := by
  refine ⟨mapM_perform_run ops log, fun debug => ?_, fun f => ?_⟩
  · rw [mapM_perform_run, mapM_perform_run, List.map_map]
    exact List.map_congr_left fun op _ => result_withDebug (debug op) op
  · rw [List.mapM_map]
    congr 1
    funext op
    exact perform_withNested (f op) op

end Operation

end Query

end SqlTemplate
