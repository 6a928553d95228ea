import SqlTemplate.Proofs.Iterations
import SqlTemplate.Proofs.Register
import SqlTemplate.Proofs.Statement

/-!
# Named queries

A named query is in use if a table that the FROM clause renders is of its name. The
queries in use are rendered before everything else, in the order of their
declaration; then the rest of the statement is rendered as if none had been declared
(`compose_eq`). So a query that is not in use does nothing at all, and what the others
print stands in front of the statement.
-/

namespace SqlTemplate

theorem Output.text_eq_empty_iff {o : Output} : o.text = "" ↔ o = [] := by
  rw [text, String.ofList_eq_empty_iff, chars, List.flatMap_eq_nil_iff]
  constructor
  · intro h
    cases o with
    | nil => rfl
    | cons symbol rest =>
        refine absurd (h symbol (by simp)) ?_
        rcases symbol with _ | ⟨_ | _, _⟩ <;> simp [Symbol.chars]
  · rintro rfl
    simp

theorem Output.exists_join_cons (separator : String) (o : Output) (os : List Output) :
    ∃ tail, join separator (o :: os) = o ++ tail := by
  cases os with
  | nil => exact ⟨[], by simp [join]⟩
  | cons o' os => exact ⟨_, by rw [join, List.intercalate_cons_cons, List.append_assoc]⟩

namespace Query

/-! ## What is in use -/

namespace QueryOf

variable {B : Type} {q : QueryOf B} {selects : Segment}

/-- The table is rendered in the FROM clause: under DISTINCT an optional join that nothing needs
is left out. -/
def Shows (q : QueryOf B) (selects : Segment) (e : FromEntry) : Prop :=
  e ∈ q.froms ∧ (q.distinct = true → e.optional = true → q.Needs selects e.name)

/-- The named queries of which there are tables in the FROM clause, by their own names and not
by the alias, each once and in the order of their declaration. -/
structure InUse (q : QueryOf B) (selects : Segment) (used : List (Cte B)) : Prop where
  sublist : used.Sublist q.ctes
  nodup : (used.map Cte.name).Nodup
  mem_iff : ∀ cte, cte ∈ used ↔
    cte ∈ q.ctes ∧ ∃ e, q.Shows selects e ∧ e.table.name = cte.name

/-- The query has no messages, its FROM clause begins with a table, and each name that it needs
is that of a table. -/
structure Ready (q : QueryOf B) (selects : Segment) : Prop where
  faults : q.faults = []
  anchor : q.anchor.isSome
  found : ∀ name, q.Needs selects name → ∃ e ∈ q.froms, e.name = name

theorem Named.shows_iff (h : q.Named) {marked : List String}
    (hmarked : q.needed selects = .ok marked) (e : FromEntry) :
    q.Shows selects e ↔ e ∈ q.rendered marked := by
  rw [Shows, mem_rendered_iff, ← h.mem_marked_iff hmarked e.name]
  cases q.distinct <;> cases e.optional <;> simp

/-- A query that is ready passes the search. -/
theorem Named.ready_iff (h : q.Named) :
    q.Ready selects ↔
      q.faults = [] ∧ q.anchor.isSome ∧ ∃ marked, q.needed selects = .ok marked := by
  constructor
  · rintro ⟨hfaults, hanchor, hfound⟩
    refine ⟨hfaults, hanchor, ?_⟩
    have hmarks := q.needed_marks selects
    cases hneeded : q.needed selects with
    | ok marked => exact ⟨marked, rfl⟩
    | error fault =>
        rw [hneeded] at hmarks
        obtain ⟨name, _, hleads, hnone⟩ := hmarks
        obtain ⟨e, he, hname⟩ := hfound name (h.leads_iff.mp hleads)
        exact absurd hname (Named.find?_eq_none.mp hnone e he)
  · rintro ⟨hfaults, hanchor, marked, hmarked⟩
    exact ⟨hfaults, hanchor, fun name hname => h.exists_of_needs hmarked hname⟩

/-- A query that is not ready fails before anything is rendered. -/
theorem compose_of_not_ready (h : q.Named) (hready : ¬ q.Ready selects) (registry : Registry) :
    ∃ faults, ∀ ctes unions s,
      q.compose registry ctes unions selects s = .error (.ofCause (.badQuery faults)) s := by
  by_cases hfaults : q.faults = []
  · cases hanchor : q.anchor with
    | none =>
        exact ⟨_, fun ctes unions s =>
          compose_of_no_anchor registry ctes unions s hfaults hanchor⟩
    | some e =>
        have hsome : q.anchor.isSome := by rw [hanchor, Option.isSome_some]
        cases hneeded : q.needed selects with
        | ok marked => exact absurd (h.ready_iff.mpr ⟨hfaults, hsome, marked, hneeded⟩) hready
        | error fault =>
            exact ⟨_, fun ctes unions s =>
              compose_of_needed_error registry ctes unions s hfaults hsome hneeded⟩
  · exact ⟨_, fun ctes unions s => compose_of_faults registry ctes unions s hfaults⟩

end QueryOf

/-! ## Rendering them -/

theorem within_map {α β : Type} (raw : String) (g : α → β) (x : RenderM α) :
    within raw (g <$> x) = g <$> within raw x := by
  funext s
  cases h : x s with
  | ok a s' => rw [map_of_ok (within_eq_ok.mpr h), within_eq_ok.mpr (map_of_ok h g)]
  | error e s' =>
      have hwithin : within raw x s = .error (e.within raw) s' := by
        unfold within
        rw [h]
      rw [map_of_error hwithin, within, map_of_error h]

/-- Render a named query. -/
def Cte.run {B : Type} (render : B → RenderM Output) (cte : Cte B) : RenderM (Cte Output) :=
  Cte.mk cte.name <$> render cte.body

/-- What a named query prints, unless it is empty. -/
def Cte.entry? (cte : Cte Output) : Option Output :=
  if cte.body.isEmpty then none
  else some (Output.ofString (cte.name ++ " AS (") ++ cte.body ++ Output.ofString ")")

theorem Cte.entry_ne_nil {cte : Cte Output} {entry : Output} (h : cte.entry? = some entry) :
    entry ≠ [] := by
  unfold Cte.entry? at h
  split at h
  · cases h
  · cases h
    exact List.append_ne_nil_of_right_ne_nil _ (List.cons_ne_nil _ _)

namespace QueryOf

variable {B : Type} {q : QueryOf B} {selects : Segment} {render : B → RenderM Output}

/-- The queries in use are rendered one after the other, and no others. -/
theorem renderCtes_eq (froms : List FromEntry) (ctes : List (Cte B)) :
    renderCtes froms (ctes.map (Cte.map render)) =
      List.filterMap Cte.entry? <$> (ctes.filter (Cte.InUse froms)).mapM fun cte =>
        within ("WITH " ++ cte.name) (cte.run render) := by
  induction ctes with
  | nil => rfl
  | cons cte rest ih =>
      rw [List.map_cons, renderCtes, ih]
      by_cases huse : froms.any fun e => e.table.name == (cte.map render).name
      · have huse' : Cte.InUse froms cte = true := huse
        have hwithin : within ("WITH " ++ cte.name) (cte.run render) =
            Cte.mk cte.name <$> within ("WITH " ++ cte.name) (render cte.body) := within_map ..
        rw [if_pos huse, List.filter_cons_of_pos huse', List.mapM_cons, hwithin]
        simp only [map_bind, map_pure, bind_map_left, List.filterMap_cons, Cte.entry?]
        congr 1
        funext body
        congr 1
        funext others
        by_cases hempty : body.isEmpty <;> simp [hempty, Cte.map]
      · have huse' : ¬ Cte.InUse froms cte = true := huse
        rw [if_neg huse, List.filter_cons_of_neg huse']

/-- All of the queries are rendered, or one of them is the first to fail, and its error gets a
layer. -/
theorem mapM_run_cases (used : List (Cte B)) (s : Session) :
    (∃ named s₁, used.mapM (Cte.run render) s = .ok named s₁ ∧
      used.mapM (fun cte => within ("WITH " ++ cte.name) (cte.run render)) s = .ok named s₁) ∨
    ∃ before cte after named s₁ e s₂, used = before ++ cte :: after ∧
      before.mapM (Cte.run render) s = .ok named s₁ ∧ render cte.body s₁ = .error e s₂ ∧
      used.mapM (fun cte => within ("WITH " ++ cte.name) (cte.run render)) s =
        .error (e.within ("WITH " ++ cte.name)) s₂ := by
  induction used generalizing s with
  | nil => exact .inl ⟨[], s, rfl, rfl⟩
  | cons cte rest ih =>
      rw [List.mapM_cons, List.mapM_cons]
      cases hbody : render cte.body s with
      | error e s₂ =>
          have hwithin : within ("WITH " ++ cte.name) (cte.run render) s =
              .error (e.within ("WITH " ++ cte.name)) s₂ := by
            rw [within, Cte.run, map_of_error hbody]
          exact .inr ⟨[], cte, rest, [], s, e, s₂, rfl, rfl, hbody, bind_of_error hwithin _⟩
      | ok body s₁ =>
          have hrun : cte.run render s = .ok ⟨cte.name, body⟩ s₁ := map_of_ok hbody _
          rw [bind_of_ok hrun, bind_of_ok (within_eq_ok.mpr hrun)]
          rcases ih s₁ with ⟨named, s₂, hplain, hlayer⟩ |
            ⟨before, cte', after, named, s₂, e, s₃, rfl, hplain, herror, hlayer⟩
          · exact .inl ⟨_, s₂, bind_of_ok hplain _, bind_of_ok hlayer _⟩
          · refine .inr ⟨cte :: before, cte', after, ⟨cte.name, body⟩ :: named, s₂, e, s₃, rfl, ?_,
              herror, bind_of_error hlayer _⟩
            rw [List.mapM_cons, bind_of_ok hrun, bind_of_ok hplain]
            rfl

/-- The WITH clause in front of the statement; nothing if it has no entries. -/
def withClause (entries : List Output) : Output :=
  match prepend "WITH " (.join ", " entries) with
  | [] => []
  | clause => clause ++ Output.ofString " "

/-- The first clause stands in front of the others, of which there are some. -/
theorem join_withClause (entries : List Output) {select : Output} (hselect : select ≠ [])
    (clauses : List Output) :
    Output.join " " ((prepend "WITH " (.join ", " entries) :: select :: clauses).filter
        fun clause => !clause.isEmpty) =
      withClause entries ++ Output.join " " ((select :: clauses).filter
        fun clause => !clause.isEmpty) := by
  have hkept : (select :: clauses).filter (fun clause => !clause.isEmpty) =
      select :: clauses.filter fun clause => !clause.isEmpty :=
    List.filter_cons_of_pos (by simpa using hselect)
  unfold withClause
  split
  · rename_i hempty
    rw [hempty]
    rfl
  · rename_i hne
    rw [List.filter_cons_of_pos (by simpa using hne), hkept]
    unfold Output.join
    rw [List.intercalate_cons_cons]

/-- **A statement is its WITH clause in front of the statement without one**, which is rendered
after the queries of the clause. -/
theorem compose_eq (registry : Registry) (hfaults : q.faults = []) (hanchor : q.anchor.isSome)
    {marked : List String} (hmarked : q.needed selects = .ok marked)
    (ctes : List (Cte (RenderM Output))) (unions : List (RenderM Output)) :
    q.compose registry ctes unions selects =
      renderCtes (q.rendered marked) ctes >>= fun entries =>
        (withClause entries ++ ·) <$> q.compose registry [] unions selects := by
  have hno_fault : ¬ q.faults ≠ [] := not_not_intro hfaults
  have hno_none : ¬ q.anchor.isNone = true := by
    obtain ⟨e, he⟩ := Option.isSome_iff_exists.mp hanchor
    simp [he]
  unfold compose
  simp only [if_neg hno_fault, if_neg hno_none, hmarked, Except.mapError, liftCause, pure_bind]
  congr 1
  funext entries
  simp only [renderCtes, pure_bind, map_bind]
  congr 1
  funext columns
  split
  · rfl
  · simp only [map_bind]
    congr 1; funext touches
    congr 1; funext tables
    congr 1; funext conditions
    congr 1; funext groupBys
    congr 1; funext orders
    congr 1; funext unions
    have hselect : Output.ofString (if q.distinct = true then "SELECT DISTINCT " else "SELECT ") ++
        columns ++ prepend ", " touches ≠ [] := by
      split <;> exact List.cons_ne_nil _ _
    rw [join_withClause _ hselect, join_withClause _ hselect]
    split <;> simp [withClause, prepend, Output.join]

/-- The text of a WITH clause: each text that is not empty, with its name. -/
def withText (texts : List (Cte String)) : String :=
  match texts.filter fun cte => cte.body ≠ "" with
  | [] => ""
  | listed =>
    "WITH " ++
      ", ".intercalate (listed.map fun cte => cte.name ++ " AS (" ++ cte.body ++ ")") ++ " "

theorem text_withClause (named : List (Cte Output)) :
    (withClause (named.filterMap Cte.entry?)).text =
      withText (named.map (Cte.map Output.text)) := by
  have hlisted : (named.filterMap Cte.entry?).map Output.text =
      ((named.map (Cte.map Output.text)).filter fun cte => cte.body ≠ "").map fun cte =>
        cte.name ++ " AS (" ++ cte.body ++ ")" := by
    induction named with
    | nil => rfl
    | cons cte rest ih =>
        by_cases hempty : cte.body = []
        · simp [Cte.entry?, Cte.map, Output.text_eq_empty_iff, hempty, ih]
        · simp [Cte.entry?, Cte.map, Output.text_eq_empty_iff, hempty, ih, Output.text_append,
            Output.text_ofString, String.append_assoc]
  have hjoin := Output.text_join ", " (named.filterMap Cte.entry?)
  unfold withText
  split
  · rename_i hnone
    rw [hnone] at hlisted
    rw [List.map_eq_nil_iff.mp hlisted]
    rfl
  · rename_i listed hsome
    have hne : Output.join ", " (named.filterMap Cte.entry?) ≠ [] := by
      cases hentries : named.filterMap Cte.entry? with
      | nil =>
          rw [hentries, List.map_nil, eq_comm, List.map_eq_nil_iff] at hlisted
          exact absurd hlisted hsome
      | cons entry entries =>
          have hmem : entry ∈ named.filterMap Cte.entry? := by simp [hentries]
          obtain ⟨cte, _, hentry⟩ := List.mem_filterMap.mp hmem
          obtain ⟨tail, htail⟩ := Output.exists_join_cons ", " entry entries
          rw [htail]
          exact List.append_ne_nil_of_left_ne_nil (Cte.entry_ne_nil hentry) tail
    have hclause : prepend "WITH " (.join ", " (named.filterMap Cte.entry?)) =
        Output.ofString "WITH " ++ .join ", " (named.filterMap Cte.entry?) :=
      if_neg (by simpa using hne)
    unfold withClause
    rw [hclause]
    show Output.text (_ ++ _ ++ _) = _
    rw [Output.text_append, Output.text_append, Output.text_ofString, Output.text_ofString, hjoin,
      hlisted]

/-- Without the clause a statement begins with its columns. -/
theorem select_of_compose {registry : Registry} {unions : List (RenderM Output)} {s s' : Session}
    {rest : Output} (h : q.compose registry [] unions selects s = .ok rest s') :
    ∃ more, rest.text = "SELECT" ++ more := by
  obtain ⟨hfaults, hanchor, marked, hmarked⟩ := compose_ok h
  have hno_fault : ¬ q.faults ≠ [] := not_not_intro hfaults
  have hno_none : ¬ q.anchor.isNone = true := by
    obtain ⟨e, he⟩ := Option.isSome_iff_exists.mp hanchor
    simp [he]
  have hselect : ∀ (columns : Output) (clauses : List Output), ∃ more,
      (Output.join " " ((prepend "WITH " (.join ", " []) ::
          (Output.ofString (if q.distinct then "SELECT DISTINCT " else "SELECT ") ++ columns) ::
          clauses).filter fun clause => !clause.isEmpty)).text = "SELECT" ++ more := by
    intro columns clauses
    have hdistinct : ∃ more, (if q.distinct then "SELECT DISTINCT " else "SELECT ") =
        "SELECT" ++ more := by
      split
      · exact ⟨" DISTINCT ", rfl⟩
      · exact ⟨" ", rfl⟩
    obtain ⟨more, hmore⟩ := hdistinct
    have hne : Output.ofString (if q.distinct then "SELECT DISTINCT " else "SELECT ") ++
        columns ≠ [] := by
      split <;> exact List.cons_ne_nil _ _
    rw [join_withClause _ hne, List.filter_cons_of_pos (by simpa using hne), hmore]
    obtain ⟨tail, htail⟩ := Output.exists_join_cons " "
      (Output.ofString ("SELECT" ++ more) ++ columns)
      (clauses.filter fun clause => !clause.isEmpty)
    rw [htail]
    simp only [Output.text_append, Output.text_ofString, String.append_assoc]
    exact ⟨_, rfl⟩
  unfold compose at h
  simp only [if_neg hno_fault, if_neg hno_none, hmarked, Except.mapError, liftCause, pure_bind,
    renderCtes, List.append_assoc] at h
  obtain ⟨columns, _, _, h⟩ := bind_eq_ok.mp h
  split at h
  · obtain ⟨_, _, hfail, _⟩ := bind_eq_ok.mp h
    exact absurd hfail fail_ne_ok
  · obtain ⟨touches, _, _, h⟩ := bind_eq_ok.mp h
    obtain ⟨tables, _, _, h⟩ := bind_eq_ok.mp h
    obtain ⟨conditions, _, _, h⟩ := bind_eq_ok.mp h
    obtain ⟨groupBys, _, _, h⟩ := bind_eq_ok.mp h
    obtain ⟨orders, _, _, h⟩ := bind_eq_ok.mp h
    obtain ⟨unions, _, _, h⟩ := bind_eq_ok.mp h
    generalize unions.filter (fun union => !union.isEmpty) = unions at h
    cases unions with
    | nil =>
        obtain ⟨rfl, _⟩ := pure_eq_ok.mp h
        exact hselect _ _
    | cons union unions =>
        obtain ⟨rfl, _⟩ := pure_eq_ok.mp h
        obtain ⟨more, hmore⟩ := hselect (columns ++ prepend ", " touches) _
        rw [Output.text_append, hmore, String.append_assoc]
        exact ⟨_, rfl⟩

end QueryOf

/-! ## Statements -/

/-- What comes of a query of which the named queries `used` are in use. -/
inductive Composed (registry : Registry) (q : Query) (selects : Segment) (used : List (Cte Builder))
    (s : Session) : EStateM.Result Error Session Output → Prop
  /-- Without its tables nothing is rendered. -/
  | refused (hready : ¬ q.Ready selects) (faults : List QueryFault) :
    Composed registry q selects used s (.error (.ofCause (.badQuery faults)) s)
  /-- The first named query that fails. -/
  | named {before after : List (Cte Builder)} {cte : Cte Builder} {named : List (Cte Output)}
    {s₁ s₂ : Session} {e : Error} (hready : q.Ready selects) (hused : used = before ++ cte :: after)
    (hbefore : before.mapM (Cte.run (Builder.render registry)) s = .ok named s₁)
    (h : cte.body.render registry s₁ = .error e s₂) :
    Composed registry q selects used s (.error (e.within ("WITH " ++ cte.name)) s₂)
  /-- The named queries are rendered, and the rest of the statement fails. -/
  | rest {named : List (Cte Output)} {s₁ s₂ : Session} {e : Error} (hready : q.Ready selects)
    (hused : used.mapM (Cte.run (Builder.render registry)) s = .ok named s₁)
    (h : renderWith { q with ctes := [] } registry selects s₁ = .error e s₂) :
    Composed registry q selects used s (.error e s₂)
  /-- The texts of the named queries stand in front of the rest of the statement. -/
  | done {named : List (Cte Output)} {s₁ s₂ : Session} {rest out : Output}
    (hready : q.Ready selects)
    (hused : used.mapM (Cte.run (Builder.render registry)) s = .ok named s₁)
    (hnames : named.map Cte.name = used.map Cte.name)
    (h : renderWith { q with ctes := [] } registry selects s₁ = .ok rest s₂)
    (hout : out.text = QueryOf.withText (named.map (Cte.map Output.text)) ++ rest.text)
    (hselect : ∃ more, rest.text = "SELECT" ++ more)
    (hwith : (∃ more, out.text = "WITH " ++ more) ↔ ∃ cte ∈ named, cte.body.text ≠ "") :
    Composed registry q selects used s (.ok out s₂)

section Statements

variable {registry : Registry} {q : Query} {selects : Segment}

theorem names_of_mapM_run {B : Type} {render : B → RenderM Output} {used : List (Cte B)}
    {named : List (Cte Output)} {s s' : Session} (h : used.mapM (Cte.run render) s = .ok named s') :
    named.map Cte.name = used.map Cte.name := by
  induction used generalizing s s' named with
  | nil =>
      obtain ⟨rfl, _⟩ := pure_eq_ok.mp h
      rfl
  | cons cte rest ih =>
      rw [List.mapM_cons] at h
      obtain ⟨body, s₁, hrun, h⟩ := bind_eq_ok.mp h
      obtain ⟨others, s₂, hrest, h⟩ := bind_eq_ok.mp h
      obtain ⟨_, _, rfl⟩ := map_eq_ok.mp hrun
      obtain ⟨rfl, _⟩ := pure_eq_ok.mp h
      rw [List.map_cons, List.map_cons, ih hrest]

/-- A WITH clause is there if it has an entry, for else the statement begins otherwise. -/
theorem begins_with_iff (named : List (Cte Output)) {rest : String}
    (hselect : ∃ more, rest = "SELECT" ++ more) :
    (∃ more, QueryOf.withText (named.map (Cte.map Output.text)) ++ rest = "WITH " ++ more) ↔
      ∃ cte ∈ named, cte.body.text ≠ "" := by
  have hlisted : (named.map (Cte.map Output.text)).filter (fun cte => cte.body ≠ "") ≠ [] ↔
      ∃ cte ∈ named, cte.body.text ≠ "" := by
    simp [List.filter_eq_nil_iff, Cte.map]
  rw [← hlisted]
  unfold QueryOf.withText
  split
  · rename_i hnone
    refine iff_of_false ?_ (not_not_intro hnone)
    rintro ⟨more, hmore⟩
    obtain ⟨more', rfl⟩ := hselect
    have hhead := congrArg (fun s => s.toList.head?) hmore
    simp at hhead
  · rename_i hsome
    refine iff_of_true ?_ (by simpa using hsome)
    exact ⟨_, by simp only [String.append_assoc]; rfl⟩

/-- What is rendered of a query that is ready, with any named queries. -/
theorem renderWith_eq (registry : Registry) (hfaults : q.faults = []) (hanchor : q.anchor.isSome)
    {marked : List String} (hmarked : q.needed selects = .ok marked) (ctes : List (Cte Builder)) :
    renderWith { q with ctes } registry selects =
      ((ctes.filter (Cte.InUse (q.rendered marked))).mapM fun cte =>
        within ("WITH " ++ cte.name) (cte.run (Builder.render registry))) >>= fun named =>
      (QueryOf.withClause (named.filterMap Cte.entry?) ++ ·) <$>
        renderWith { q with ctes := [] } registry selects := by
  have hcompose := q.compose_eq registry hfaults hanchor hmarked
    (ctes.map (Cte.map (Builder.render registry))) (Builder.bodies registry q.unions)
  rw [QueryOf.renderCtes_eq, bind_map_left] at hcompose
  rw [renderWith, Builder.cteBodies_eq_map]
  exact hcompose

/-- The outcome of a query that is ready. -/
theorem composed_of_ready (hready : q.Ready selects) {used : List (Cte Builder)} {s : Session}
    (h : renderWith q registry selects = (used.mapM fun cte =>
        within ("WITH " ++ cte.name) (cte.run (Builder.render registry))) >>= fun named =>
      (QueryOf.withClause (named.filterMap Cte.entry?) ++ ·) <$>
        renderWith { q with ctes := [] } registry selects) :
    Composed registry q selects used s (renderWith q registry selects s) := by
  rw [h]
  rcases QueryOf.mapM_run_cases used s with ⟨named, s₁, hplain, hlayer⟩ |
    ⟨before, cte, after, named, s₁, e, s₂, hused, hbefore, herror, hlayer⟩
  · rw [bind_of_ok hlayer]
    cases hrest : renderWith { q with ctes := [] } registry selects s₁ with
    | error e s₂ =>
        rw [map_of_error hrest]
        exact .rest hready hplain hrest
    | ok rest s₂ =>
        have hselect := QueryOf.select_of_compose hrest
        have hout := QueryOf.text_withClause named
        rw [map_of_ok hrest]
        refine .done hready hplain (names_of_mapM_run hplain) hrest ?_ hselect ?_
        · rw [Output.text_append, hout]
        · rw [Output.text_append, hout]
          exact begins_with_iff named hselect
  · rw [bind_of_error hlayer]
    exact .named hready hused hbefore herror

end Statements

/-- **The WITH clause has the named queries in use, and these only.** Every query that is built by
calls has a list of those in use. They are rendered one after the other in the order of their
declaration, and what each prints stands in the clause under its name, unless it is empty; the
first that fails makes the query fail, with a layer of its own. Those that are not in use can
as well be missing: for every session the outcome is the same without them. -/
theorem with_exact (settings : Settings) (steps : List (Step Builder)) (selects : Segment) :
    let q : Query := (QueryOf.ofSettings settings).applyAll steps
    ∃ used, q.InUse selects used ∧ ∀ registry s,
      Composed registry q selects used s (renderWith q registry selects s) ∧
      renderWith { q with ctes := used } registry selects s = renderWith q registry selects s := by
  classical
  intro q
  have h : q.Named := QueryOf.named_applyAll settings steps
  have hctes : q.CtesNamed := (QueryOf.ctesNamed_ofSettings settings).applyAll steps
  let used := q.ctes.filter fun cte => ∃ e, q.Shows selects e ∧ e.table.name = cte.name
  have hsublist : used.Sublist q.ctes := List.filter_sublist
  refine ⟨used, ⟨hsublist, (hsublist.map _).nodup hctes.nodup, ?_⟩, fun registry s => ?_⟩
  · intro cte
    simp [used]
  · by_cases hready : q.Ready selects
    · obtain ⟨hfaults, hanchor, marked, hmarked⟩ := h.ready_iff.mp hready
      have huse : ∀ cte : Cte Builder, Cte.InUse (q.rendered marked) cte =
          decide (∃ e, q.Shows selects e ∧ e.table.name = cte.name) := by
        intro cte
        rw [Bool.eq_iff_iff, decide_eq_true_iff, Cte.InUse, List.any_eq_true]
        simp [h.shows_iff hmarked]
      have hused : q.ctes.filter (Cte.InUse (q.rendered marked)) = used :=
        List.filter_congr fun cte _ => huse cte
      have hall : used.filter (Cte.InUse (q.rendered marked)) = used := by
        rw [← hused, List.filter_filter]
        simp
      have heq := renderWith_eq registry hfaults hanchor hmarked q.ctes
      have heq' := renderWith_eq registry hfaults hanchor hmarked used
      rw [hused] at heq
      rw [hall] at heq'
      exact ⟨composed_of_ready hready heq, congrFun (heq'.trans heq.symm) s⟩
    · obtain ⟨faults, hrefused⟩ := QueryOf.compose_of_not_ready h hready registry
      have heq : renderWith q registry selects s = .error (.ofCause (.badQuery faults)) s :=
        hrefused _ _ s
      rw [heq]
      exact ⟨.refused hready faults, hrefused _ _ s⟩

/-- Two tables are `recent`, and one is `blank`, which prints nothing. The query `r` has the name of
an alias only, and the join of `gone` is left out; neither could be rendered. -/
def withCalls : List (Step Builder) :=
  [.cte "r" (.segment { raw := "SELECT #c9" }), .cte "gone" (.segment { raw := "SELECT '" }),
    .cte "recent" (.segment { raw := "SELECT id FROM log WHERE at > $1", args := [.int 1] }),
    .cte "blank" (.segment { raw := " " }), .anchor ⟨"recent", "r"⟩,
    .join .left ⟨"recent", "r2"⟩ (some { raw := "TRUE" }) false,
    .join .left ⟨"blank", ""⟩ (some { raw := "TRUE" }) false,
    .join .left ⟨"gone", ""⟩ (some { raw := "TRUE" }) true,
    .select [Table.column ⟨"r", ""⟩ "id"], .distinct]

def withSample : Query := (QueryOf.ofSettings {}).applyAll withCalls

theorem needed_withSample : withSample.needed withSample.selects = .ok ["blank", "r2", "r"] := by
  cbv

theorem with_exact_sample : ∃ used out s', withSample.InUse withSample.selects used ∧
    Composed .standard withSample withSample.selects used {} (.ok out s') ∧
    out.text = "WITH recent AS (SELECT id FROM log WHERE at > $1) SELECT DISTINCT " ++
      "r.id FROM recent AS r LEFT JOIN recent AS r2 ON TRUE LEFT JOIN blank ON TRUE" ∧
    s'.args.length = 1 := by
  obtain ⟨used, hused, hrender⟩ := with_exact {} withCalls withSample.selects
  obtain ⟨out, s', h, hcheck⟩ := exists_ok_of_check
    (x := renderWith withSample .standard withSample.selects) (s := {})
    (fun out s' => out.text ==
      "WITH recent AS (SELECT id FROM log WHERE at > $1) SELECT DISTINCT " ++
      "r.id FROM recent AS r LEFT JOIN recent AS r2 ON TRUE LEFT JOIN blank ON TRUE" &&
      s'.args.length == 1) (by
        unfold renderWith QueryOf.compose
        rw [needed_withSample]
        decide +kernel)
  rw [Bool.and_eq_true] at hcheck
  have hcomposed : Composed .standard withSample withSample.selects used {}
      (renderWith withSample .standard withSample.selects {}) := (hrender .standard {}).1
  rw [h] at hcomposed
  exact ⟨used, out, s', hused, hcomposed, eq_of_beq hcheck.1, eq_of_beq hcheck.2⟩

end Query

end SqlTemplate
