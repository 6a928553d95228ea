import Mathlib.Data.List.Nodup
import SqlTemplate.Proofs.Outcomes
import SqlTemplate.Query.Composition

/-!
# The tables that a query needs

Marking is the least fixed point that it is meant to be: the names that the
clauses and the mandatory joins of a query lead to, through the conditions of the
joins that are met on the way. The invariant of the search is the usual one. What
is marked is led to, and what a marked name leads to is marked or pending; so
nothing is missing once nothing is pending.
-/

namespace SqlTemplate.Query

/-! ## Marking -/

/-- The seeds lead to a name directly, or through the join of a table that they lead to. -/
inductive Leads (froms : List FromEntry) (seeds : List String) : String → Prop
  | seed {name : String} (hmem : name ∈ seeds) (hne : name ≠ "") : Leads froms seeds name
  | join {name next : String} {e : FromEntry} (h : Leads froms seeds name)
      (hfind : (froms.find? fun e => e.name == name) = some e)
      (hmem : next ∈ owners e.segment) (hne : next ≠ "") : Leads froms seeds next

/-- The state of a search among the tables `all`, of which `froms` are not marked. -/
structure Marking (all : List FromEntry) (seeds : List String) (froms : List FromEntry)
    (marked pending : List String) : Prop where
  unmarked : froms = all.filter fun e => e.name ∉ marked
  found : ∀ name ∈ marked, Leads all seeds name ∧ ∃ e, (all.find? fun e => e.name == name) = some e
  ahead : ∀ name ∈ pending, name ≠ "" → Leads all seeds name
  begun : ∀ name ∈ seeds, name ≠ "" → name ∈ marked ∨ name ∈ pending
  closed : ∀ name ∈ marked, ∀ e, (all.find? fun e => e.name == name) = some e →
    ∀ next ∈ owners e.segment, next ≠ "" → next ∈ marked ∨ next ∈ pending

namespace Marking

variable {all : List FromEntry} {seeds : List String} {froms : List FromEntry}
  {marked pending : List String} {name : String}

theorem start (all : List FromEntry) (seeds : List String) : Marking all seeds all [] seeds where
  unmarked := (List.filter_eq_self.mpr (by simp)).symm
  found _ h := by cases h
  ahead _ h hne := .seed h hne
  begun _ h _ := .inr h
  closed _ h := by cases h

/-- A name that is not marked is looked up among all tables. -/
theorem find?_eq (h : Marking all seeds froms marked pending) (hname : name ∉ marked) :
    (froms.find? fun e => e.name == name) = all.find? fun e => e.name == name := by
  rw [h.unmarked, List.find?_filter]
  congr 1
  funext e
  by_cases he : e.name = name
  · simp [he, hname]
  · simp [he]

/-- A pending name that is empty or marked adds nothing. -/
theorem skip (h : Marking all seeds froms marked (name :: pending))
    (hname : name = "" ∨ name ∈ marked) : Marking all seeds froms marked pending where
  unmarked := h.unmarked
  found := h.found
  ahead n hn hne := h.ahead n (List.mem_cons_of_mem _ hn) hne
  begun n hn hne := by
    rcases h.begun n hn hne with hmarked | hpending
    · exact .inl hmarked
    · rcases List.mem_cons.mp hpending with rfl | hpending
      · exact .inl (hname.resolve_left hne)
      · exact .inr hpending
  closed n hn e he next hnext hne := by
    rcases h.closed n hn e he next hnext hne with hmarked | hpending
    · exact .inl hmarked
    · rcases List.mem_cons.mp hpending with rfl | hpending
      · exact .inl (hname.resolve_left hne)
      · exact .inr hpending

/-- A pending name with a table is marked, and what its join refers to is pending. -/
theorem take (h : Marking all seeds froms marked (name :: pending)) (hne : name ≠ "")
    (hname : name ∉ marked) {e : FromEntry}
    (hfind : (froms.find? fun e => e.name == name) = some e) :
    Marking all seeds (without name froms) (name :: marked) (owners e.segment ++ pending) := by
  have hleads : Leads all seeds name := h.ahead name (List.mem_cons_self ..) hne
  have hall : (all.find? fun e => e.name == name) = some e := by rw [← h.find?_eq hname, hfind]
  -- What was pending is marked now or still pending.
  have hmove : ∀ n, n ∈ marked ∨ n ∈ name :: pending →
      n ∈ name :: marked ∨ n ∈ owners e.segment ++ pending := by
    intro n hn
    rcases hn with hn | hn
    · exact .inl (List.mem_cons_of_mem _ hn)
    · rcases List.mem_cons.mp hn with rfl | hn
      · exact .inl (List.mem_cons_self ..)
      · exact .inr (List.mem_append_right _ hn)
  refine ⟨?_, ?_, ?_, ?_, ?_⟩
  · rw [without, h.unmarked, List.filter_filter]
    congr 1
    funext e'
    by_cases he' : e'.name = name <;> simp [he']
  · intro n hn
    rcases List.mem_cons.mp hn with rfl | hn
    · exact ⟨hleads, e, hall⟩
    · exact h.found n hn
  · intro n hn hn'
    rcases List.mem_append.mp hn with hn | hn
    · exact .join hleads hall hn hn'
    · exact h.ahead n (List.mem_cons_of_mem _ hn) hn'
  · intro n hn hn'
    exact hmove n (h.begun n hn hn')
  · intro n hn e' he' next hnext hnext'
    rcases List.mem_cons.mp hn with rfl | hn
    · rw [hall] at he'
      cases he'
      exact .inr (List.mem_append_left _ hnext)
    · exact hmove next (h.closed n hn e' he' next hnext hnext')

/-- When nothing is pending, all that the seeds lead to is marked. -/
theorem mem_of_leads (h : Marking all seeds froms marked []) (hname : Leads all seeds name) :
    name ∈ marked := by
  induction hname with
  | seed hmem hne => exact (h.begun _ hmem hne).resolve_right List.not_mem_nil
  | join _ hfind hmem hne ih =>
      exact (h.closed _ ih _ hfind _ hmem hne).resolve_right List.not_mem_nil

end Marking

/-- The outcome of a search that marks what the seeds lead to, or reports a name that they lead
to and that has no table. -/
def Marks (all : List FromEntry) (seeds : List String) : Except QueryFault (List String) → Prop
  | .ok marked => ∀ name, (name ∈ marked ↔ Leads all seeds name) ∧
      (name ∈ marked → ∃ e, (all.find? fun e => e.name == name) = some e)
  | .error fault => ∃ name, fault = .notFound name ∧ Leads all seeds name ∧
      (all.find? fun e => e.name == name) = none

/-- **The search is right from any state of it.** -/
theorem mark_marks {all : List FromEntry} {seeds : List String} (froms : List FromEntry)
    (marked pending : List String) (h : Marking all seeds froms marked pending) :
    Marks all seeds (mark froms marked pending) := by
  fun_induction mark froms marked pending with
  | case1 froms marked =>
      intro name
      exact ⟨⟨fun hn => (h.found name hn).1, h.mem_of_leads⟩, fun hn => (h.found name hn).2⟩
  | case2 froms marked name pending hskip ih => exact ih (h.skip hskip)
  | case3 froms marked name pending hnew hfind =>
      obtain ⟨hne, hname⟩ := not_or.mp hnew
      refine ⟨name, rfl, h.ahead name (List.mem_cons_self ..) hne, ?_⟩
      rw [← h.find?_eq hname, hfind]
  | case4 froms marked name pending hnew e hfind ih =>
      obtain ⟨hne, hname⟩ := not_or.mp hnew
      exact ih (h.take hne hname hfind)

/-- The joins of `b` and `c` refer to each other. -/
example :
    let join (name other : String) : FromEntry :=
      ⟨⟨name, ""⟩, { raw := "#c1 = #c2", columns :=
        [Table.column ⟨name, ""⟩ "id", Table.column ⟨other, ""⟩ "id"] }, true⟩
    (mark [join "b" "c", join "c" "b", join "d" "b"] [] ["b"]).toOption = some ["c", "b"] := by
  cbv

/-! ## Queries -/

theorem appliedName_ne_empty {table : Table} (h : table.name ≠ "") : table.appliedName ≠ "" := by
  unfold Table.appliedName
  split
  · exact h
  · assumption

namespace QueryOf

variable {B : Type} {q : QueryOf B} {selects : Segment}

/-- The names of the tables that a query needs: of the anchor and the joins that are not
optional, of the owners of columns in its clauses, and of those in the joins of needed tables. An
empty name is that of no table. -/
inductive Needs (q : QueryOf B) (selects : Segment) : String → Prop
  | anchor {e : FromEntry} (h : q.anchor = some e) : Needs q selects e.name
  | mandatory {e : FromEntry} (h : e ∈ q.joins) (hoptional : e.optional = false) :
    Needs q selects e.name
  | clause {s : Segment} {name : String}
    (hs : s ∈ [selects, q.touches, q.conditions, q.groupBys, q.orders])
    (hmem : name ∈ owners s) (hne : name ≠ "") : Needs q selects name
  | join {e : FromEntry} {name : String} (h : Needs q selects e.name) (he : e ∈ q.froms)
    (hmem : name ∈ owners e.segment) (hne : name ≠ "") : Needs q selects name

/-- The tables of the FROM clause have names, and no two of them the same. -/
structure Named (q : QueryOf B) : Prop where
  nodup : (q.froms.map FromEntry.name).Nodup
  ne : ∀ e ∈ q.froms, e.name ≠ ""

theorem Named.find?_eq_some (h : q.Named) {name : String} {e : FromEntry} :
    (q.froms.find? fun e => e.name == name) = some e ↔ e ∈ q.froms ∧ e.name = name := by
  constructor
  · intro hfind
    exact ⟨List.mem_of_find?_eq_some hfind, by simpa using List.find?_some hfind⟩
  · rintro ⟨he, rfl⟩
    cases hfind : q.froms.find? fun e' => e'.name == e.name with
    | none => simpa using List.find?_eq_none.mp hfind e he
    | some e' =>
        have hname : e'.name = e.name := by simpa using List.find?_some hfind
        rw [List.inj_on_of_nodup_map h.nodup (List.mem_of_find?_eq_some hfind) he hname]

theorem Named.find?_eq_none {name : String} :
    (q.froms.find? fun e => e.name == name) = none ↔ ∀ e ∈ q.froms, e.name ≠ name := by
  simp [List.find?_eq_none]

/-- The seeds of the search lead to what the query needs. -/
theorem Named.leads_iff (h : q.Named) {name : String} :
    Leads q.froms (q.seeds selects) name ↔ q.Needs selects name := by
  constructor
  · intro hleads
    induction hleads with
    | @seed name hmem hne =>
        rw [seeds, List.mem_append, List.mem_append] at hmem
        rcases hmem with (hanchor | hjoin) | hclause
        · obtain ⟨e, he, rfl⟩ := List.mem_map.mp hanchor
          exact .anchor (Option.mem_toList.mp he)
        · obtain ⟨e, he, rfl⟩ := List.mem_map.mp hjoin
          obtain ⟨hmem, hoptional⟩ := List.mem_filter.mp he
          exact .mandatory hmem (by simpa using hoptional)
        · obtain ⟨s, hs, hmem⟩ := List.mem_flatMap.mp hclause
          exact .clause hs hmem hne
    | @join name next e _ hfind hmem hne ih =>
        obtain ⟨he, rfl⟩ := h.find?_eq_some.mp hfind
        exact .join ih he hmem hne
  · intro hneeds
    induction hneeds with
    | @anchor e hanchor =>
        have he : e ∈ q.froms := by simp [froms, hanchor]
        refine .seed ?_ (h.ne e he)
        simp [seeds, hanchor]
    | @mandatory e hjoin hoptional =>
        have he : e ∈ q.froms := List.mem_append_right _ hjoin
        refine .seed ?_ (h.ne e he)
        rw [seeds, List.mem_append, List.mem_append]
        refine .inl (.inr (List.mem_map_of_mem (List.mem_filter.mpr ⟨hjoin, ?_⟩)))
        simp [hoptional]
    | clause hs hmem hne =>
        refine .seed ?_ hne
        exact List.mem_append_right _ (List.mem_flatMap.mpr ⟨_, hs, hmem⟩)
    | join _ he hmem hne ih => exact .join ih (h.find?_eq_some.mpr ⟨he, rfl⟩) hmem hne

/-! ## What can be built -/

theorem named_of_froms_eq {q' : QueryOf B} (h : q.Named) (hfroms : q'.froms = q.froms) :
    q'.Named :=
  ⟨hfroms ▸ h.nodup, hfroms ▸ h.ne⟩

theorem Named.setAnchor (h : q.Named) (table : Table) : (q.setAnchor table).Named := by
  unfold QueryOf.setAnchor
  split
  · exact named_of_froms_eq h rfl
  · rename_i hname
    split
    · exact named_of_froms_eq h rfl
    · rename_i hjoined
      have hjoins : (q.joins.map FromEntry.name).Nodup := by
        have hnodup := h.nodup
        rw [froms, List.map_append] at hnodup
        exact (List.nodup_append.mp hnodup).2.1
      constructor
      · rw [froms, Option.toList_some, List.singleton_append, List.map_cons, List.nodup_cons]
        refine ⟨?_, hjoins⟩
        intro hmem
        obtain ⟨e, he, hsame⟩ := List.mem_map.mp hmem
        exact hjoined (List.any_eq_true.mpr ⟨e, he, beq_iff_eq.mpr hsame⟩)
      · intro e he
        rcases List.mem_cons.mp he with rfl | he
        · exact appliedName_ne_empty hname
        · exact h.ne e (List.mem_append_right _ he)

theorem Named.join (h : q.Named) (kind : JoinKind) (table : Table) (on : Option Segment)
    (optional : Bool) : (q.join kind table on optional).Named := by
  unfold QueryOf.join
  split
  · exact named_of_froms_eq h rfl
  · rename_i hname
    split
    · exact named_of_froms_eq h rfl
    · rename_i hnew
      have hfroms : froms { q with
          joins := q.joins ++ [⟨table, joinSegment kind table on, optional⟩] } =
            q.froms ++ [⟨table, joinSegment kind table on, optional⟩] := by
        rw [froms, froms, List.append_assoc]
      rw [from?, Option.not_isSome_iff_eq_none, Named.find?_eq_none] at hnew
      constructor
      · rw [hfroms, List.map_append, List.nodup_append]
        refine ⟨h.nodup, by simp, ?_⟩
        intro name hmem name' hlast hsame
        obtain ⟨e, he, rfl⟩ := List.mem_map.mp hmem
        rw [List.map_singleton, List.mem_singleton] at hlast
        exact hnew e he (hsame.trans hlast)
      · rw [hfroms]
        intro e he
        rcases List.mem_append.mp he with he | he
        · exact h.ne e he
        · rw [List.mem_singleton.mp he]
          exact appliedName_ne_empty hname

theorem Named.addCte (h : q.Named) (name : String) (body : B) : (q.addCte name body).Named := by
  unfold QueryOf.addCte
  split
  · exact named_of_froms_eq h rfl
  · split
    · exact named_of_froms_eq h rfl
    · exact named_of_froms_eq h rfl

theorem froms_testMember (q : QueryOf B) (column : Column) (values : List Value)
    (negated : Bool) : (q.testMember column values negated).froms = q.froms := by
  unfold testMember
  split <;> rfl

/-- A call keeps the names of the tables. -/
theorem Named.apply (h : q.Named) (step : Step B) : (q.apply step).Named := by
  cases step with
  | anchor table => exact h.setAnchor table
  | join kind table on optional => exact h.join kind table on optional
  | cte name body => exact h.addCte name body
  | testMember column values negated =>
      exact named_of_froms_eq h (froms_testMember q column values negated)
  | _ => exact named_of_froms_eq h rfl

theorem Named.applyAll (h : q.Named) (steps : List (Step B)) : (q.applyAll steps).Named := by
  induction steps generalizing q with
  | nil => exact h
  | cons step rest ih => exact ih (h.apply step)

theorem named_ofSettings (settings : Settings) : (ofSettings settings : QueryOf B).Named where
  nodup := List.nodup_nil
  ne _ he := by cases he

/-- The tables of a query that is built by calls have names, and no two of them the same. -/
theorem named_applyAll (settings : Settings) (steps : List (Step B)) :
    ((ofSettings settings : QueryOf B).applyAll steps).Named :=
  (named_ofSettings settings).applyAll steps

/-! ## The search and what follows from it -/

theorem compose_of_faults (registry : Registry) (ctes : List (Cte (RenderM Output)))
    (unions : List (RenderM Output)) (s : Session) (hfaults : q.faults ≠ []) :
    q.compose registry ctes unions selects s = .error (.ofCause (.badQuery q.faults)) s := by
  unfold compose
  rw [if_pos hfaults]
  rfl

theorem compose_of_no_anchor (registry : Registry) (ctes : List (Cte (RenderM Output)))
    (unions : List (RenderM Output)) (s : Session) (hfaults : q.faults = [])
    (hanchor : q.anchor = none) :
    q.compose registry ctes unions selects s = .error (.ofCause (.badQuery [.noAnchor])) s := by
  unfold compose
  rw [if_neg (by simp [hfaults]), hanchor]
  rfl

theorem compose_of_needed_error (registry : Registry) (ctes : List (Cte (RenderM Output)))
    (unions : List (RenderM Output)) (s : Session) (hfaults : q.faults = [])
    (hanchor : q.anchor.isSome) {fault : QueryFault} (h : q.needed selects = .error fault) :
    q.compose registry ctes unions selects s = .error (.ofCause (.badQuery [fault])) s := by
  obtain ⟨e, he⟩ := Option.isSome_iff_exists.mp hanchor
  unfold compose
  rw [if_neg (by simp [hfaults]), he, h]
  rfl

theorem needed_marks (q : QueryOf B) (selects : Segment) :
    Marks q.froms (q.seeds selects) (q.needed selects) :=
  mark_marks _ _ _ (.start _ _)

/-- What is marked is what is needed, each with its table. -/
theorem Named.mem_marked_iff (h : q.Named) {marked : List String}
    (hmarked : q.needed selects = .ok marked) (name : String) :
    name ∈ marked ↔ q.Needs selects name := by
  have hmarks := q.needed_marks selects
  rw [hmarked] at hmarks
  exact (hmarks name).1.trans h.leads_iff

theorem Named.exists_of_needs (h : q.Named) {marked : List String}
    (hmarked : q.needed selects = .ok marked) {name : String} (hname : q.Needs selects name) :
    ∃ e ∈ q.froms, e.name = name := by
  have hmarks := q.needed_marks selects
  rw [hmarked] at hmarks
  obtain ⟨e, he⟩ := (hmarks name).2 ((h.mem_marked_iff hmarked name).mpr hname)
  obtain ⟨hmem, hsame⟩ := h.find?_eq_some.mp he
  exact ⟨e, hmem, hsame⟩

theorem mem_rendered_iff {marked : List String} {e : FromEntry} :
    e ∈ q.rendered marked ↔
      e ∈ q.froms ∧ (q.distinct = false ∨ e.optional = false ∨ e.name ∈ marked) := by
  simp [rendered, or_assoc]

end QueryOf

end SqlTemplate.Query
