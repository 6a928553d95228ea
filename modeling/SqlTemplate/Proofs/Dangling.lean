import SqlTemplate.Proofs.Reachability

/-!
# Columns and their tables

A query that is built should name no column of a table that its FROM clause does
not have. Two decisions have to agree for this: which tables the search checks,
and which ones are rendered. They agree under DISTINCT. Without it an optional
join is rendered also when nothing needs its table, and then nothing has checked
its condition. This is the only gap.
-/

namespace SqlTemplate.Query.QueryOf

variable {B : Type} {q : QueryOf B} {selects : Segment}

/-- A clause, or the join of one of the tables `froms`, has a column whose table is of that
name. -/
def Mentions (q : QueryOf B) (froms : List FromEntry) (selects : Segment) (name : String) : Prop :=
  name ≠ "" ∧ ((∃ s ∈ [selects, q.touches, q.conditions, q.groupBys], name ∈ owners s) ∨
    ∃ e ∈ froms, name ∈ owners e.segment)

/-- Every column is of one of the tables `froms`. -/
def Grounded (q : QueryOf B) (froms : List FromEntry) (selects : Segment) : Prop :=
  ∀ name, q.Mentions froms selects name → ∃ e ∈ froms, e.name = name

/-- The optional joins that are not needed have columns of tables in the FROM clause only. -/
def SpareJoinsGrounded (q : QueryOf B) (selects : Segment) : Prop :=
  ∀ e ∈ q.joins, e.optional = true → ¬ q.Needs selects e.name →
    ∀ name ∈ owners e.segment, name ≠ "" → ∃ e' ∈ q.froms, e'.name = name

/-- A table that is not needed is that of an optional join. -/
theorem spare_of_not_needs {e : FromEntry} (he : e ∈ q.froms) (h : ¬ q.Needs selects e.name) :
    e ∈ q.joins ∧ e.optional = true := by
  rcases List.mem_append.mp he with hanchor | hjoin
  · exact absurd (.anchor (Option.mem_toList.mp hanchor)) h
  · refine ⟨hjoin, ?_⟩
    by_contra hoptional
    exact h (.mandatory hjoin (by simpa using hoptional))

/-- What the clauses mention is needed, and so is what the join of a needed table mentions. -/
theorem Mentions.needs_or_spare {froms : List FromEntry} {name : String}
    (hsub : ∀ e ∈ froms, e ∈ q.froms) (h : q.Mentions froms selects name) :
    q.Needs selects name ∨
      ∃ e ∈ froms, ¬ q.Needs selects e.name ∧ name ∈ owners e.segment := by
  obtain ⟨hne, ⟨s, hs, hmem⟩ | ⟨e, he, hmem⟩⟩ := h
  · refine .inl (.clause (s := s) ?_ hmem hne)
    have hall : s ∈ [selects, q.touches, q.conditions, q.groupBys] ++ [q.orders] :=
      List.mem_append_left _ hs
    exact hall
  · by_cases hneeds : q.Needs selects e.name
    · exact .inl (.join hneeds (hsub e he) hmem hne)
    · exact .inr ⟨e, he, hneeds, hmem⟩

/-- The rendered tables are grounded under DISTINCT, and else if the spare joins are. -/
theorem Named.grounded_iff (h : q.Named) {marked : List String}
    (hmarked : q.needed selects = .ok marked) :
    q.Grounded (q.rendered marked) selects ↔
      q.distinct = true ∨ q.SpareJoinsGrounded selects := by
  have hsub : ∀ e ∈ q.rendered marked, e ∈ q.froms := fun e he => (mem_rendered_iff.mp he).1
  have hmem := h.mem_marked_iff hmarked
  -- A needed name has a table, and that is rendered in any case.
  have hneeded : ∀ name, q.Needs selects name → ∃ e ∈ q.rendered marked, e.name = name := by
    intro name hname
    obtain ⟨e, he, rfl⟩ := h.exists_of_needs hmarked hname
    exact ⟨e, mem_rendered_iff.mpr ⟨he, .inr (.inr ((hmem _).mpr hname))⟩, rfl⟩
  cases hdistinct : q.distinct with
  | true =>
      refine iff_of_true ?_ (.inl rfl)
      intro name hname
      rcases hname.needs_or_spare hsub with hname | ⟨e, he, hspare, _⟩
      · exact hneeded name hname
      · -- A table of an optional join is rendered only if it is marked.
        obtain ⟨hfroms, hkept⟩ := mem_rendered_iff.mp he
        obtain ⟨_, hoptional⟩ := spare_of_not_needs hfroms hspare
        rw [hdistinct, hoptional, hmem] at hkept
        simp [hspare] at hkept
  | false =>
      have hrendered : ∀ e, e ∈ q.rendered marked ↔ e ∈ q.froms := by
        intro e
        simp [mem_rendered_iff, hdistinct]
      constructor
      · intro hgrounded
        refine .inr fun e hjoin _ _ name hname hne => ?_
        have he : e ∈ q.froms := List.mem_append_right _ hjoin
        obtain ⟨e', he', hsame⟩ :=
          hgrounded name ⟨hne, .inr ⟨e, (hrendered e).mpr he, hname⟩⟩
        exact ⟨e', (hrendered e').mp he', hsame⟩
      · rintro (hfalse | hspares) name hname
        · cases hfalse
        · rcases hname.needs_or_spare hsub with hneeds | ⟨e, he, hspare, howner⟩
          · exact hneeded name hneeds
          · obtain ⟨hjoin, hoptional⟩ := spare_of_not_needs (hsub e he) hspare
            obtain ⟨e', he', hsame⟩ := hspares e hjoin hoptional hspare name howner hname.1
            exact ⟨e', (hrendered e').mpr he', hsame⟩

/-! ## Composition -/

theorem compose_ok {registry : Registry} {ctes : List (Cte (RenderM Output))}
    {unions : List (RenderM Output)} {s s' : Session} {out : Output}
    (h : q.compose registry ctes unions selects s = .ok out s') :
    q.faults = [] ∧ q.anchor.isSome ∧ ∃ marked, q.needed selects = .ok marked := by
  unfold compose at h
  by_cases hfaults : q.faults = []
  · rw [if_neg (by simp [hfaults])] at h
    cases hanchor : q.anchor with
    | none =>
        rw [hanchor] at h
        cases h
    | some e =>
        rw [hanchor] at h
        cases hneeded : q.needed selects with
        | ok marked => exact ⟨hfaults, rfl, marked, rfl⟩
        | error fault =>
            rw [hneeded] at h
            cases h
  · rw [if_pos hfaults] at h
    cases h

/-- A query whose needed tables cannot be found, or that has another mistake, is not built. -/
theorem compose_of_needed_ne_ok (registry : Registry) (ctes : List (Cte (RenderM Output)))
    (unions : List (RenderM Output)) (s : Session)
    (h : ∀ marked, q.needed selects ≠ .ok marked) :
    ∃ faults, q.compose registry ctes unions selects s =
      .error (.ofCause (.badQuery faults)) s := by
  by_cases hfaults : q.faults = []
  · cases hanchor : q.anchor with
    | none => exact ⟨[.noAnchor], compose_of_no_anchor registry ctes unions s hfaults hanchor⟩
    | some e =>
        cases hneeded : q.needed selects with
        | ok marked => exact absurd hneeded (h marked)
        | error fault =>
            exact ⟨[fault], compose_of_needed_error registry ctes unions s hfaults
              (by rw [hanchor, Option.isSome_some]) hneeded⟩
  · exact ⟨q.faults, compose_of_faults registry ctes unions s hfaults⟩

/-- **A query that is built names only columns of tables in its FROM clause, except in a join
that nothing needs**, and there only without DISTINCT. A query that needs a table which it does
not have is not built. -/
theorem compose_grounded (settings : Settings) (steps : List (Step B)) (registry : Registry)
    (ctes : List (Cte (RenderM Output))) (unions : List (RenderM Output)) (selects : Segment)
    (s : Session) :
    let q := (ofSettings settings : QueryOf B).applyAll steps
    (∀ out s', q.compose registry ctes unions selects s = .ok out s' →
      ∃ marked, q.needed selects = .ok marked ∧
        (q.Grounded (q.rendered marked) selects ↔
          q.distinct = true ∨ q.SpareJoinsGrounded selects)) ∧
    ∀ name, q.Needs selects name → (∀ e ∈ q.froms, e.name ≠ name) →
      ∃ faults, q.compose registry ctes unions selects s =
        .error (.ofCause (.badQuery faults)) s := by
  intro q
  have h : q.Named := named_applyAll settings steps
  constructor
  · intro out s' hok
    obtain ⟨_, _, marked, hmarked⟩ := compose_ok hok
    exact ⟨marked, hmarked, h.grounded_iff hmarked⟩
  · intro name hname hmissing
    refine compose_of_needed_ne_ok registry ctes unions s ?_
    intro marked hmarked
    obtain ⟨e, he, hsame⟩ := h.exists_of_needs hmarked hname
    exact hmissing e he hsame

/-- An optional join of `b` that nothing needs, with a column of a table that is not there. -/
def spareSample : Query :=
  (ofSettings {}).applyAll
    [.anchor ⟨"a", ""⟩,
      .join .left ⟨"b", ""⟩ (some { raw := "#c1=#c2", columns :=
        [Table.column ⟨"b", ""⟩ "x", Table.column ⟨"z", ""⟩ "y"] }) true,
      .select [Table.column ⟨"a", ""⟩ "id"]]

theorem needed_spareSample : spareSample.needed spareSample.selects = .ok ["a"] := by
  cbv

/-- Without DISTINCT a query may be built with a column of a table that it does not have. -/
theorem compose_spareSample :
    (∃ out s', spareSample.compose .standard [] [] spareSample.selects {} = .ok out s' ∧
      out.text = "SELECT a.id FROM a LEFT JOIN b ON b.x=z.y") ∧
    ∃ marked, spareSample.needed spareSample.selects = .ok marked ∧
      spareSample.Mentions (spareSample.rendered marked) spareSample.selects "z" ∧
      ∀ e ∈ spareSample.rendered marked, e.name ≠ "z" := by
  constructor
  · obtain ⟨out, s', h, hcheck⟩ := exists_ok_of_check
      (x := spareSample.compose .standard [] [] spareSample.selects) (s := {})
      (fun out _ => out.text == "SELECT a.id FROM a LEFT JOIN b ON b.x=z.y") (by
        unfold compose
        rw [needed_spareSample]
        decide +kernel)
    exact ⟨out, s', h, eq_of_beq hcheck⟩
  · exact ⟨["a"], needed_spareSample, ⟨by decide, .inr (by decide +kernel)⟩, by decide +kernel⟩

end SqlTemplate.Query.QueryOf
