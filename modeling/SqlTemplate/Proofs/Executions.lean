import SqlTemplate.Client
import SqlTemplate.Proofs.Events
import SqlTemplate.Proofs.Paths

/-!
# What reaches a client

Every method builds its query, checks it, and only then turns to the client. So the
client receives one request with the text and the arguments that were built, or none
at all, and the methods differ only in what they make of the rows (`perform_exact`).
The methods that want a row are the ones that can miss one: no build fails in that way.
-/

namespace SqlTemplate

/-! ## Errors of a build -/

/-- An error that leaves a template does not say that a row is missing. -/
theorem Error.not_isNotFound_of_path {e : Error} (h : e.path ≠ []) : ¬ e.isNotFound := by
  obtain ⟨path, cause⟩ := e
  cases path with
  | nil => exact absurd rfl h
  | cons raw path => simp [isNotFound]

theorem Segment.render_throws (registry : Registry) (s : Segment) :
    Throws (s.render registry) fun e => ¬ e.isNotFound := by
  cases s
  exact .map _ ((Throws.within _ _).imp fun _ => Error.not_isNotFound_of_path)

namespace Query

namespace QueryOf

theorem renderCtes_throws (froms : List FromEntry) (ctes : List (Cte (RenderM Output))) :
    Throws (renderCtes froms ctes) fun e => ¬ e.isNotFound := by
  induction ctes with
  | nil => exact .pure []
  | cons cte rest ih =>
      rw [renderCtes]
      split
      · refine .bind ((Throws.within _ _).imp fun _ => Error.not_isNotFound_of_path) ?_
        intro s body s' _
        refine .bind ih fun s others s' _ => ?_
        split
        · exact .pure _
        · exact .pure _
      · exact ih

/-- A query does not say that a row is missing if what is nested in it does not. -/
theorem compose_throws (registry : Registry) (q : Query) (ctes : List (Cte (RenderM Output)))
    {unions : List (RenderM Output)} (selects : Segment)
    (hunions : ∀ x ∈ unions, Throws x fun e => ¬ e.isNotFound) :
    Throws (q.compose registry ctes unions selects) fun e => ¬ e.isNotFound := by
  have hbad (faults : List QueryFault) : ¬ (Error.ofCause (.badQuery faults)).isNotFound :=
    Bool.false_ne_true
  have hclause (s : Segment) := s.render_throws registry
  unfold compose
  refine .check (hbad _) (.check (hbad _) (.bind ?_ fun _ needed _ _ => ?_))
  · refine .liftCause fun cause hcause => ?_
    cases hneeded : q.needed selects with
    | ok marked =>
        rw [hneeded] at hcause
        cases hcause
    | error fault =>
        rw [hneeded] at hcause
        cases hcause
        exact hbad _
  -- Clause by clause, in the order of the rendering.
  refine .bind (renderCtes_throws _ _) fun _ named _ _ => ?_
  refine .bind (hclause selects) fun _ columns _ _ => .check (hbad _) ?_
  refine .bind (hclause q.touches) fun _ touches _ _ => ?_
  refine .bind (.mapM fun e _ => hclause e.segment) fun _ tables _ _ => ?_
  refine .bind (hclause q.conditions) fun _ conditions _ _ => ?_
  refine .bind (hclause q.groupBys) fun _ groupBys _ _ => ?_
  refine .bind (hclause q.orders) fun _ orders _ _ => ?_
  refine .bind (.mapM hunions) fun _ others _ _ => ?_
  split
  · exact .pure _
  · exact .pure _

end QueryOf

theorem renderWith_throws_of {registry : Registry} {q : Query} (selects : Segment)
    (hunions : ∀ b ∈ q.unions, Throws (b.render registry) fun e => ¬ e.isNotFound) :
    Throws (renderWith q registry selects) fun e => ¬ e.isNotFound := by
  rw [renderWith, Builder.bodies_eq_map]
  refine QueryOf.compose_throws registry q _ _ fun x hx => ?_
  obtain ⟨b, hb, rfl⟩ := List.mem_map.mp hx
  exact hunions b hb

theorem Builder.render_throws (registry : Registry) (b : Builder) :
    Throws (b.render registry) fun e => ¬ e.isNotFound := by
  induction b using Builder.induction with
  | segment s => exact s.render_throws registry
  | query q hctes hunions =>
      rw [Builder.render_query]
      exact renderWith_throws_of q.selects hunions

theorem renderWith_throws (registry : Registry) (q : Query) (selects : Segment) :
    Throws (renderWith q registry selects) fun e => ¬ e.isNotFound :=
  renderWith_throws_of selects fun b _ => b.render_throws registry

/-- No way to build a query fails because a row is missing. -/
theorem Operation.not_isNotFound (op : Operation) {e : Error} (h : op.outcome.result = .error e) :
    ¬ e.isNotFound := by
  have hthrows : Throws op.rendering fun e => ¬ e.isNotFound := by
    obtain ⟨q, terminal⟩ := op
    cases terminal with
    | build => exact renderWith_throws _ _ _
    | count columns => exact .map _ (renderWith_throws _ _ _)
    | select columns => exact renderWith_throws _ _ _
  rw [result_eq, Built.ofRender] at h
  cases hrender : op.rendering (session op.query) with
  | ok out s =>
      rw [hrender] at h
      cases h
  | error e' s =>
      rw [hrender] at h
      cases h
      exact hthrows hrender

end Query

namespace Client

/-! ## Calls -/

/-- A request to a client. -/
inductive Request
  | query (sql : String) (args : List Value)
  | execute (sql : String) (args : List Value)
  | prepare (sql : String)

/-- The methods that ask for rows, with what they answer. -/
inductive Fetch (Row : Type) : Type → Type 1
  | all : Fetch Row (List Row)
  | allAs {α : Type} (decode : Row → Except Error α) : Fetch Row (List α)
  | opt : Fetch Row (Option Row)
  | optAs {α : Type} (decode : Row → Except Error α) : Fetch Row (Option α)
  | one : Fetch Row Row
  | oneAs {α : Type} (decode : Row → Except Error α) : Fetch Row α
  | scalar {α : Type} (decode : Row → Except Error α) : Fetch Row α

/-- The methods of queries. -/
inductive Method (Row : Type) : Type → Type 1
  | fetch {α : Type} (f : Fetch Row α) : Method Row α
  | run : Method Row Nat

/-- A call of a method of a built query or of a query under construction. -/
inductive Call (Row : Type) : Type → Type 1
  | built {α : Type} (b : Built) (method : Method Row α) : Call Row α
  | query {α : Type} (q : Query) (method : Method Row α) : Call Row α
  | count {α : Type} (q : Query) (decode : Row → Except Error α) : Call Row α

variable {m : Type → Type} [Monad m] {Row Statement α : Type}

def Fetch.perform (client : Client m Row Statement) (prepared : Except Error Built) :
    Fetch Row α → ExceptT Error m α
  | .all => client.fetchAll prepared
  | .allAs decode => client.fetchAllAs prepared decode
  | .opt => client.fetchOpt prepared
  | .optAs decode => client.fetchOptAs prepared decode
  | .one => client.fetchOne prepared
  | .oneAs decode => client.fetchOneAs prepared decode
  | .scalar decode => client.fetchScalar prepared decode

def Method.perform (client : Client m Row Statement) (prepared : Except Error Built) :
    Method Row α → ExceptT Error m α
  | .fetch f => f.perform client prepared
  | .run => Client.run client prepared

namespace Call

def perform (client : Client m Row Statement) : Call Row α → ExceptT Error m α
  | .built b method => method.perform client (.ok b)
  | .query q method => method.perform client (Query.build q).result
  | .count q decode => client.count q decode

/-- What is built for a call. -/
def prepared : Call Row α → Except Error Built
  | .built b _ => .ok b
  | .query q _ => (Query.build q).result
  | .count q _ => (Query.buildCount q []).result

def method : Call Row α → Method Row α
  | .built _ method => method
  | .query _ method => method
  | .count _ decode => .fetch (.scalar decode)

end Call

/-! ## What the methods do -/

/-- The first row, which must be there. -/
def first (rows : List Row) : Except Error Row :=
  match rows.head? with
  | none => .error (.ofCause (.notFound .noRow))
  | some row => .ok row

/-- What is made of the rows. -/
def Fetch.answer : Fetch Row α → List Row → Except Error α
  | .all, rows => .ok rows
  | .allAs decode, rows => rows.mapM decode
  | .opt, rows => .ok rows.head?
  | .optAs decode, rows =>
    match rows.head? with
    | none => .ok none
    | some row => some <$> decode row
  | .one, rows => first rows
  | .oneAs decode, rows => first rows >>= decode
  | .scalar decode, rows => first rows >>= decode

/-- The methods that need a row. -/
def Fetch.WantsRow : Fetch Row α → Prop
  | .one | .oneAs _ | .scalar _ => True
  | _ => False

namespace Method

/-- The request that is made for a built query. -/
def request (b : Built) : Method Row α → Request
  | .fetch _ => .query b.sql b.args
  | .run => .execute b.sql b.args

/-- The request, and what is made of the answer. -/
def send (client : Client m Row Statement) (b : Built) : Method Row α → ExceptT Error m α
  | .fetch f => do
    let rows ← client.query b.sql b.args
    ExceptT.mk (pure (f.answer rows))
  | .run => client.execute b.sql b.args

def WantsRow : Method Row α → Prop
  | .fetch f => f.WantsRow
  | .run => False

end Method

/-- The query that a client may receive, or why it receives none. -/
def sendable : Except Error Built → Except Error Built
  | .error e => .error e
  | .ok b =>
    if b.style = some .positional then .error (.ofCause (.notExecutable (.positional b.sql)))
    else .ok b

section

variable [LawfulMonad m] {β : Type}

/-- Nothing comes behind an error. -/
theorem mk_error_bind (e : Error) (k : α → ExceptT Error m β) :
    (ExceptT.mk (pure (.error e)) >>= k) = ExceptT.mk (pure (.error e)) := by
  change ExceptT.mk (pure (Except.error e) >>= ExceptT.bindCont k) = _
  rw [pure_bind]
  rfl

theorem mk_ok_bind (a : α) (k : α → ExceptT Error m β) : (ExceptT.mk (pure (.ok a)) >>= k) = k a :=
  pure_bind a k

theorem mk_map (f : α → β) (x : Except Error α) :
    (f <$> ExceptT.mk (pure x) : ExceptT Error m β) = ExceptT.mk (pure (f <$> x)) := by
  change ExceptT.mk ((pure x : m (Except Error α)) >>= _) = _
  rw [pure_bind]
  cases x <;> rfl

theorem executable_eq (prepared : Except Error Built) :
    (executable prepared : ExceptT Error m Built) = ExceptT.mk (pure (sendable prepared)) := by
  cases prepared with
  | error e => exact mk_error_bind e _
  | ok b =>
      rw [executable, executable.liftExcept, mk_ok_bind, executable.liftExcept,
        Built.checkExecutable, sendable]
      split
      · exact mk_error_bind _ _
      · exact mk_ok_bind _ _

end

variable [LawfulMonad m] (client : Client m Row Statement) (prepared : Except Error Built)

/-- Every method that asks for rows makes the same request. -/
theorem Fetch.perform_eq (f : Fetch Row α) :
    f.perform client prepared =
      executable prepared >>= fun b => Method.send client b (.fetch f) := by
  have hone : client.fetchOne prepared =
      executable prepared >>= fun b => Method.send client b (.fetch .one) := by
    refine bind_congr fun b => bind_congr fun rows => ?_
    cases rows <;> rfl
  have hdecode (decode : Row → Except Error α) : client.fetchOneAs prepared decode =
      executable prepared >>= fun b => Method.send client b (.fetch (.oneAs decode)) := by
    rw [fetchOneAs, hone, bind_assoc]
    refine bind_congr fun b => ?_
    rw [Method.send, bind_assoc, Method.send]
    refine bind_congr fun rows => ?_
    cases rows with
    | nil => exact mk_error_bind _ _
    | cons row rows => exact mk_ok_bind _ _
  cases f with
  | all =>
      refine bind_congr fun b => ?_
      exact (bind_pure _).symm
  | allAs decode =>
      rw [perform, fetchAllAs, fetchAll, bind_assoc]
      rfl
  | opt => rfl
  | optAs decode =>
      rw [perform, fetchOptAs, fetchOpt, bind_assoc]
      refine bind_congr fun b => ?_
      rw [queryOpt, bind_assoc]
      refine bind_congr fun rows => ?_
      rw [pure_bind]
      cases rows with
      | nil => rfl
      | cons row rows => exact mk_map some (decode row)
  | one => exact hone
  | oneAs decode => exact hdecode decode
  | scalar decode => exact hdecode decode

theorem Method.perform_eq (method : Method Row α) :
    method.perform client prepared = executable prepared >>= fun b => method.send client b := by
  cases method with
  | fetch f => exact f.perform_eq client prepared
  | run => rfl

/-- A call builds its query, checks it, and makes its request. -/
theorem Call.perform_eq (call : Call Row α) :
    call.perform client =
      executable call.prepared >>= fun b => call.method.send client b := by
  cases call with
  | built b method => exact method.perform_eq client (.ok b)
  | query q method => exact method.perform_eq client (Query.build q).result
  | count q decode => exact Fetch.perform_eq client (Query.buildCount q []).result (.scalar decode)

/-! ## What a client receives -/

/-- The client that writes down each request that it receives. -/
def recorded (client : Client m Row Statement) :
    Client (StateT (List Request) m) Row Statement where
  query sql args := note (.query sql args) (client.query sql args)
  execute sql args := note (.execute sql args) (client.execute sql args)
  prepare sql := note (.prepare sql) (client.prepare sql)
where
  note {β : Type} (request : Request) (x : ExceptT Error m β) :
      ExceptT Error (StateT (List Request) m) β :=
    ExceptT.mk do
      modify (· ++ [request])
      StateT.lift x.run

/-- What is made of an answer is made of each that there can be. -/
theorem run_bind_mk {β : Type} (x : ExceptT Error m α) (g : α → Except Error β) :
    (x >>= fun a => ExceptT.mk (pure (g a))).run = (· >>= g) <$> x.run := by
  change x.run >>= ExceptT.bindCont _ = _
  rw [← bind_pure_comp]
  refine bind_congr fun r => ?_
  cases r <;> rfl

theorem run_note {β : Type} (request : Request) (x : ExceptT Error m β) (log : List Request) :
    (recorded.note request x).run.run log = (fun r => (r, log ++ [request])) <$> x.run := by
  simp [recorded.note]

/-- The request is written down, and otherwise nothing is different. -/
theorem Method.run_send_recorded (method : Method Row α) (b : Built) (log : List Request) :
    (method.send client.recorded b).run.run log =
      (fun r => (r, log ++ [method.request b])) <$> (method.send client b).run := by
  cases method with
  | fetch f =>
      rw [send, send, run_bind_mk, run_bind_mk, StateT.run_map]
      have hnote := run_note (.query b.sql b.args) (client.query b.sql b.args) log
      rw [recorded, hnote, Functor.map_map, Functor.map_map]
      rfl
  | run => exact run_note _ _ log

/-! ## Missing rows -/

/-- Whatever the computation answers has the property. -/
def Always (P : Except Error α → Prop) (x : ExceptT Error m α) : Prop :=
  ∃ y : m {r : Except Error α // P r}, Subtype.val <$> y = x.run

/-- A row is missing. -/
def Missing (r : Except Error α) : Prop := ∃ e, r = .error e ∧ e.isNotFound

theorem Always.imp {P Q : Except Error α → Prop} {x : ExceptT Error m α} (h : Always P x)
    (hPQ : ∀ r, P r → Q r) : Always Q x := by
  obtain ⟨y, hy⟩ := h
  refine ⟨(fun r => ⟨r.1, hPQ r.1 r.2⟩) <$> y, ?_⟩
  rw [Functor.map_map, ← hy]

theorem Always.mk {P : Except Error α → Prop} {r : Except Error α} (h : P r) :
    Always P (ExceptT.mk (pure r) : ExceptT Error m α) :=
  ⟨pure ⟨r, h⟩, map_pure _ _⟩

/-- Where there are no rows a row is missing just for the methods that want one. -/
theorem Fetch.missing_answer_nil_iff (f : Fetch Row α) : Missing (f.answer []) ↔ f.WantsRow := by
  have hnone : Missing (first ([] : List Row)) := ⟨_, rfl, rfl⟩
  cases f with
  | one => exact iff_of_true hnone trivial
  | oneAs decode => exact iff_of_true ⟨_, rfl, rfl⟩ trivial
  | scalar decode => exact iff_of_true ⟨_, rfl, rfl⟩ trivial
  | _ => exact iff_of_false (by rintro ⟨e, he, -⟩; cases he) id

/-- A client that has no rows. -/
structure Rowless (client : Client m Row Statement) : Prop where
  query : ∀ sql args, Always (· = .ok []) (client.query sql args)
  execute : ∀ sql args, Always (fun r => ¬ Missing r) (client.execute sql args)

variable {client} in
theorem Rowless.send (h : client.Rowless) (method : Method Row α) (b : Built) :
    Always (fun r => Missing r ↔ method.WantsRow) (method.send client b) := by
  cases method with
  | fetch f =>
      obtain ⟨y, hy⟩ := h.query b.sql b.args
      refine ⟨(fun _ => ⟨f.answer [], f.missing_answer_nil_iff⟩) <$> y, ?_⟩
      rw [Method.send, run_bind_mk, ← hy, Functor.map_map, Functor.map_map]
      refine congrArg (· <$> y) (funext fun r => ?_)
      rw [r.2]
      rfl
  | run => exact (h.execute b.sql b.args).imp fun r hr => iff_of_false hr id

/-- What is not sent does not say that a row is missing. -/
theorem Call.not_missing_sendable (call : Call Row α) {e : Error}
    (h : sendable call.prepared = .error e) : ¬ e.isNotFound := by
  have hprepared {e' : Error} (h : call.prepared = .error e') : ¬ e'.isNotFound := by
    cases call with
    | built b method => cases h
    | query q method => exact Query.Operation.not_isNotFound ⟨q, .build⟩ h
    | count q decode => exact Query.Operation.not_isNotFound ⟨q, .count []⟩ h
  cases hbuilt : call.prepared with
  | error e' =>
      rw [hbuilt] at h
      cases h
      exact hprepared hbuilt
  | ok b =>
      rw [hbuilt, sendable] at h
      split at h
      · cases h
        exact Bool.false_ne_true
      · cases h

/-- The message of a query that is not sent shows its text. -/
theorem exists_message (sql : String) :
    ∃ text, (Error.ofCause (.notExecutable (.positional sql))).message = text ++ sql := by
  have hcons (before : String) {s : String} (h : ∃ text, s = text ++ sql) :
      ∃ text, before ++ s = text ++ sql := by
    obtain ⟨text, rfl⟩ := h
    exact ⟨before ++ text, String.append_assoc.symm⟩
  exact hcons _ (hcons _ ⟨_, rfl⟩)

namespace Call

variable {call : Call Row α} {client}

theorem perform_of_error {e : Error} (h : sendable call.prepared = .error e) :
    call.perform client = throw e := by
  rw [perform_eq, executable_eq, h]
  exact mk_error_bind _ _

theorem perform_of_ok {b : Built} (h : sendable call.prepared = .ok b) :
    call.perform client = call.method.send client b := by
  rw [perform_eq, executable_eq, h]
  exact mk_ok_bind _ _

/-- Nothing is written down of a call that fails before the client is turned to. -/
theorem run_recorded_of_error {e : Error} (h : sendable call.prepared = .error e)
    (log : List Request) :
    (call.perform client.recorded).run.run log = pure (.error e, log) := by
  rw [perform_of_error h]
  rfl

end Call

/-- **Only what can be executed reaches a client.** A call whose query is built, and not with
positional placeholders, makes one request, with the text and the arguments of the query.
Any other call makes none: its answer is the error of the build, or the one that shows the text
with the placeholders. A client without rows lets just the calls that want a row miss one. -/
theorem perform_exact (call : Call Row α) (log : List Request) :
    (match call.prepared with
      | .error e =>
        call.perform client = throw e ∧
          (call.perform client.recorded).run.run log = pure (.error e, log)
      | .ok b =>
        if b.style = some .positional then
          let e := Error.ofCause (.notExecutable (.positional b.sql))
          call.perform client = throw e ∧ (∃ text, e.message = text ++ b.sql) ∧
            (call.perform client.recorded).run.run log = pure (.error e, log)
        else
          (call.perform client.recorded).run.run log =
            (fun r => (r, log ++ [call.method.request b])) <$> (call.perform client).run) ∧
    (client.Rowless →
      Always (fun r => Missing r ↔ call.method.WantsRow ∧ ∃ b, sendable call.prepared = .ok b)
        (call.perform client)) := by
  constructor
  · cases hprepared : call.prepared with
    | error e =>
        have hsendable : sendable call.prepared = .error e := by rw [hprepared, sendable]
        exact ⟨Call.perform_of_error hsendable, Call.run_recorded_of_error hsendable log⟩
    | ok b =>
        by_cases hstyle : b.style = some .positional
        · have hsendable : sendable call.prepared =
              .error (.ofCause (.notExecutable (.positional b.sql))) := by
            rw [hprepared, sendable, if_pos hstyle]
          simp only [if_pos hstyle]
          exact ⟨Call.perform_of_error hsendable, exists_message b.sql,
            Call.run_recorded_of_error hsendable log⟩
        · have hsendable : sendable call.prepared = .ok b := by
            rw [hprepared, sendable, if_neg hstyle]
          simp only [if_neg hstyle]
          rw [Call.perform_of_ok hsendable, Call.perform_of_ok hsendable]
          exact Method.run_send_recorded client call.method b log
  · intro hrowless
    cases hsendable : sendable call.prepared with
    | error e =>
        rw [Call.perform_of_error hsendable]
        refine Always.mk (iff_of_false ?_ ?_)
        · rintro ⟨e', he, hmissing⟩
          cases he
          exact call.not_missing_sendable hsendable hmissing
        · rintro ⟨-, b, hb⟩
          cases hb
    | ok b =>
        rw [Call.perform_of_ok hsendable]
        refine (hrowless.send call.method b).imp fun r hr => ?_
        rw [hr]
        exact (and_iff_left ⟨b, rfl⟩).symm

/-- A client whose tables are empty. -/
def rowlessSample : Client Id Nat Unit where
  query _ _ := pure []
  execute _ _ := pure 0
  prepare _ := pure ()

theorem rowless_rowlessSample : rowlessSample.Rowless where
  query _ _ := .mk rfl
  execute _ _ := .mk (by rintro ⟨e, he, -⟩; cases he)

/-- A query with one argument, of which one row is wanted. -/
def oneSample : Call Nat Nat := .built ⟨"SELECT $1", [.int 1], some .indexed⟩ (.fetch .one)

theorem perform_exact_sample :
    rowlessSample.Rowless ∧
    ((oneSample.perform rowlessSample.recorded).run.run []).run =
      (.error (.ofCause (.notFound .noRow)), [.query "SELECT $1" [.int 1]]) ∧
    Always Missing (oneSample.perform rowlessSample) := by
  obtain ⟨hrequest, hmissing⟩ := perform_exact rowlessSample oneSample []
  refine ⟨rowless_rowlessSample, congrArg Id.run hrequest, ?_⟩
  exact (hmissing rowless_rowlessSample).imp fun r hr => hr.mpr ⟨trivial, _, rfl⟩

end Client

end SqlTemplate
