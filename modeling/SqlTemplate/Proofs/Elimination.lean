import SqlTemplate.Proofs.Dangling
import SqlTemplate.Proofs.Tree

/-!
# Joins that are left out

Under DISTINCT an optional join is left out when no column of the query is of its
table. A segment can name a table in another way too: it can declare the table
itself and refer to it in its template. The search for needed tables does not look
there. So no column is ever left without its table, but the name of a table may
be, and this is so exactly when a declared table is needed through no column.
-/

namespace SqlTemplate

open Query (owners)

namespace Segment

/-- A segment of the tree declares a column of a table of that name. -/
def HasColumnOf (s : Segment) (name : String) : Prop :=
  ∃ t ∈ s.subtree, ∃ c ∈ t.columns, c.table.appliedName = name

/-- A segment of the tree declares a table of that name. -/
def HasTable (s : Segment) (name : String) : Prop :=
  ∃ t ∈ s.subtree, ∃ table ∈ t.tables, table.appliedName = name

theorem hasColumnOf_iff {s : Segment} {name : String} :
    s.HasColumnOf name ↔ name ∈ owners s := by
  rw [owners, allColumns_eq_flatMap_subtree, List.mem_map]
  constructor
  · rintro ⟨t, ht, c, hc, hname⟩
    exact ⟨c, List.mem_flatMap.mpr ⟨t, ht, hc⟩, hname⟩
  · rintro ⟨c, hc, hname⟩
    obtain ⟨t, ht, hc⟩ := List.mem_flatMap.mp hc
    exact ⟨t, ht, c, hc, hname⟩

end Segment

namespace Query.QueryOf

variable {B : Type} {q : QueryOf B} {selects : Segment} {marked : List String}

/-- The segments of a statement whose FROM clause names the tables `froms`. -/
def shown (q : QueryOf B) (froms : List FromEntry) (selects : Segment) : List Segment :=
  [selects, q.touches, q.conditions, q.groupBys, q.orders] ++ froms.map FromEntry.segment

/-- Under DISTINCT the tables that are left out are those that nothing needs. -/
theorem Named.not_mem_rendered_iff (h : q.Named) (hmarked : q.needed selects = .ok marked)
    (hdistinct : q.distinct = true) {e : FromEntry} (he : e ∈ q.froms) :
    e ∉ q.rendered marked ↔ ¬ q.Needs selects e.name := by
  rw [mem_rendered_iff, h.mem_marked_iff hmarked]
  constructor
  · intro hout hneeds
    exact hout ⟨he, .inr (.inr hneeds)⟩
  · rintro hspare ⟨_, hfalse | hmandatory | hneeds⟩
    · simp [hdistinct] at hfalse
    · simp [(spare_of_not_needs he hspare).2] at hmandatory
    · exact hspare hneeds

/-- A column of what is shown needs its table. -/
theorem Named.needs_of_hasColumnOf (h : q.Named) (hmarked : q.needed selects = .ok marked)
    (hdistinct : q.distinct = true) {e : FromEntry} (he : e ∈ q.froms) {t : Segment}
    (ht : t ∈ q.shown (q.rendered marked) selects) (hcolumn : t.HasColumnOf e.name) :
    q.Needs selects e.name := by
  rw [Segment.hasColumnOf_iff] at hcolumn
  rcases List.mem_append.mp ht with hclause | hjoin
  · exact .clause hclause hcolumn (h.ne e he)
  · obtain ⟨e', he', rfl⟩ := List.mem_map.mp hjoin
    have hfroms : e' ∈ q.froms := (mem_rendered_iff.mp he').1
    have hneeds : q.Needs selects e'.name := by
      by_contra hspare
      exact (h.not_mem_rendered_iff hmarked hdistinct hfroms).mpr hspare he'
    exact .join hneeds hfroms hcolumn (h.ne e he)

/-- **A join that is left out has its table named by no column.** It is optional, nothing needs
its table, and no segment of the statement has a column of it at any depth. That no segment
declares the table itself either holds exactly of the queries in which every declared table of
an optional join is needed through a column. -/
theorem compose_left_out (settings : Settings) (steps : List (Step B)) (registry : Registry)
    (ctes : List (Cte (RenderM Output))) (unions : List (RenderM Output)) (selects : Segment)
    {s s' : Session} {out : Output} :
    let q := (ofSettings settings : QueryOf B).applyAll steps
    q.distinct = true → q.compose registry ctes unions selects s = .ok out s' →
    ∃ marked, q.needed selects = .ok marked ∧
      (∀ e ∈ q.froms, e ∉ q.rendered marked → e.optional = true ∧
        ∀ t ∈ q.shown (q.rendered marked) selects, ¬ t.HasColumnOf e.name) ∧
      ((∀ e ∈ q.froms, e ∉ q.rendered marked →
          ∀ t ∈ q.shown (q.rendered marked) selects, ¬ t.HasTable e.name) ↔
        ∀ e ∈ q.joins, e.optional = true →
          ∀ t ∈ q.shown (q.rendered marked) selects, t.HasTable e.name →
            q.Needs selects e.name) := by
  intro q hdistinct hok
  have h : q.Named := named_applyAll settings steps
  obtain ⟨_, _, marked, hmarked⟩ := compose_ok hok
  have hout : ∀ {e}, e ∈ q.froms → (e ∉ q.rendered marked ↔ ¬ q.Needs selects e.name) :=
    h.not_mem_rendered_iff hmarked hdistinct
  refine ⟨marked, hmarked, ?_, ?_, ?_⟩
  · intro e he hleft
    have hspare := (hout he).mp hleft
    refine ⟨(spare_of_not_needs he hspare).2, ?_⟩
    intro t ht hcolumn
    exact hspare (h.needs_of_hasColumnOf hmarked hdistinct he ht hcolumn)
  · intro hnone e hjoin _ t ht htable
    have he : e ∈ q.froms := List.mem_append_right _ hjoin
    by_contra hspare
    exact hnone e he ((hout he).mpr hspare) t ht htable
  · intro hneeds e he hleft t ht htable
    have hspare := (hout he).mp hleft
    obtain ⟨hjoin, hoptional⟩ := spare_of_not_needs he hspare
    exact hspare (hneeds e hjoin hoptional t ht htable)

/-- An optional join of `b` under DISTINCT, and a condition. -/
def leftOutSample (condition : Segment) : Query :=
  (ofSettings {}).applyAll
    [.anchor ⟨"a", ""⟩,
      .join .left ⟨"b", ""⟩ (some { raw := "#c1=#c2", columns :=
        [Table.column ⟨"b", ""⟩ "a_id", Table.column ⟨"a", ""⟩ "id"] }) true,
      .select [Table.column ⟨"a", ""⟩ "id"], .condition condition, .distinct]

/-- The condition is on a column of `a`, so that the join of `b` is left out. -/
theorem compose_left_out_sample :
    let q := leftOutSample { raw := "#c1 > 0", columns := [Table.column ⟨"a", ""⟩ "x"] }
    ∃ out s' marked, q.compose .standard [] [] q.selects {} = .ok out s' ∧
      out.text = "SELECT DISTINCT a.id FROM a WHERE a.x > 0" ∧ q.needed q.selects = .ok marked ∧
      ∀ e ∈ q.froms, e ∉ q.rendered marked → e.optional = true ∧
        ∀ t ∈ q.shown (q.rendered marked) q.selects, ¬ t.HasColumnOf e.name := by
  intro q
  have hneeded : q.needed q.selects = .ok ["a"] := by cbv
  obtain ⟨out, s', h, hcheck⟩ := exists_ok_of_check
    (x := q.compose .standard [] [] q.selects) (s := {})
    (fun out _ => out.text == "SELECT DISTINCT a.id FROM a WHERE a.x > 0") (by
      unfold compose
      rw [hneeded]
      decide +kernel)
  obtain ⟨marked, hmarked, hcolumns, _⟩ :=
    compose_left_out {} _ .standard [] [] q.selects rfl h
  exact ⟨out, s', marked, h, eq_of_beq hcheck, hmarked, hcolumns⟩

/-- The condition declares the table `b` itself. The join of `b` is left out all the same, and
the text names a table that its FROM clause does not have. -/
theorem compose_strandedSample :
    let q := leftOutSample { raw := "#t1.x IS NULL", tables := [⟨"b", ""⟩] }
    q.distinct = true ∧
    (∃ out s', q.compose .standard [] [] q.selects {} = .ok out s' ∧
      out.text = "SELECT DISTINCT a.id FROM a WHERE b.x IS NULL") ∧
    ∃ marked, q.needed q.selects = .ok marked ∧
      ∃ e ∈ q.froms, e.optional = true ∧ e ∉ q.rendered marked ∧
        ∃ t ∈ q.shown (q.rendered marked) q.selects, t.HasTable e.name := by
  intro q
  have hneeded : q.needed q.selects = .ok ["a"] := by cbv
  refine ⟨rfl, ?_, ["a"], hneeded, ?_⟩
  · obtain ⟨out, s', h, hcheck⟩ := exists_ok_of_check
      (x := q.compose .standard [] [] q.selects) (s := {})
      (fun out _ => out.text == "SELECT DISTINCT a.id FROM a WHERE b.x IS NULL") (by
        unfold compose
        rw [hneeded]
        decide +kernel)
    exact ⟨out, s', h, eq_of_beq hcheck⟩
  · have hout : ∀ e ∈ q.rendered ["a"], e.name ≠ "b" := by decide +kernel
    refine ⟨_, List.mem_cons_of_mem _ (List.mem_cons_self ..), rfl, fun he => hout _ he rfl, ?_⟩
    refine ⟨q.conditions, by simp [shown], ?_⟩
    refine ⟨{ raw := "#t1.x IS NULL", tables := [⟨"b", ""⟩] }, ?_, ⟨"b", ""⟩, by simp, rfl⟩
    rw [Segment.subtree_eq]
    exact List.mem_cons_of_mem _ (List.mem_cons_self ..)

end Query.QueryOf

end SqlTemplate
