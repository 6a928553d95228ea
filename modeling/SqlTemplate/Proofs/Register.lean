import Mathlib.Logic.Function.Basic
import SqlTemplate.Proofs.Dangling
import SqlTemplate.Query.Terminal

/-!
# What the calls keep

A query under construction keeps its tables in three places: the name of the table
that the FROM clause begins with, the names of the joins in their order, and the
entries under these names. A call updates them one by one. The register below does
just this, entry by entry; it stays sound over every chain of calls, and the tables
of the query are at every moment those of the register. A call that is rejected
leaves a message and nothing else, and a query with messages is never built.
-/

namespace SqlTemplate.Query

/-! ## The register of tables -/

/-- The tables of a query: the names of the anchor and of the joins, and the entry of each
name. -/
@[ext]
structure Register where
  anchor : Option String := none
  joins : List String := []
  entries : String → Option FromEntry := fun _ => none

namespace Register

/-- The tables in the order of the FROM clause. -/
def froms (t : Register) : List FromEntry :=
  (t.anchor.toList ++ t.joins).filterMap t.entries

/-- Set the anchor: the entry of the previous one is removed, and one for the table is put in. -/
def setAnchor (t : Register) (table : Table) : Register where
  anchor := some table.appliedName
  joins := t.joins
  entries :=
    let others := match t.anchor with
      | none => t.entries
      | some previous => Function.update t.entries previous none
    Function.update others table.appliedName (some ⟨table, { raw := table.declaration }, false⟩)

/-- Put in an entry for a joined table, and its name behind those of the other joins. -/
def join (t : Register) (kind : JoinKind) (table : Table) (on : Option Segment)
    (optional : Bool) : Register where
  anchor := t.anchor
  joins := t.joins ++ [table.appliedName]
  entries := Function.update t.entries table.appliedName
    (some ⟨table, QueryOf.joinSegment kind table on, optional⟩)

variable {B : Type}

/-- Why a call that declares a table is rejected, if it is. The anchor may be declared again
under its own name. -/
def fault? (t : Register) : Step B → Option QueryFault
  | .anchor table =>
    if table.name = "" then some .anchorUnnamed
    else if (t.entries table.appliedName).isSome ∧ t.anchor ≠ some table.appliedName then
      some (.alreadyJoined table)
    else none
  | .join kind table _ _ =>
    if table.name = "" then some (.joinUnnamed kind)
    else if (t.entries table.appliedName).isSome then some (.alreadyJoined table)
    else none
  | _ => none

/-- The register after a call that is accepted. -/
def accept (t : Register) : Step B → Register
  | .anchor table => t.setAnchor table
  | .join kind table on optional => t.join kind table on optional
  | _ => t

/-- The register after a call. -/
def apply (t : Register) (step : Step B) : Register :=
  if (t.fault? step).isSome then t else t.accept step

/-- The register after a chain of calls, from an empty one. -/
def ofCalls (steps : List (Step B)) : Register := steps.foldl apply {}

/-- The three places agree: there is an entry for the anchor and for each join and for nothing
else, no name is there twice, and each entry is that of a named table under its name. -/
structure Sound (t : Register) : Prop where
  keys : ∀ name, (t.entries name).isSome ↔ t.anchor = some name ∨ name ∈ t.joins
  nodup : t.joins.Nodup
  anchor_not_mem : ∀ name, t.anchor = some name → name ∉ t.joins
  applied : ∀ name e, t.entries name = some e → e.table.appliedName = name
  ne : ∀ name e, t.entries name = some e → name ≠ "" ∧ e.table.name ≠ ""
  anchor_mandatory : ∀ name e, t.anchor = some name → t.entries name = some e →
    e.optional = false

theorem setAnchor_entries (t : Register) (table : Table) (name : String) :
    (t.setAnchor table).entries name =
      if name = table.appliedName then some ⟨table, { raw := table.declaration }, false⟩
      else if t.anchor = some name then none
      else t.entries name := by
  unfold setAnchor
  cases hanchor : t.anchor with
  | none => simp [Function.update_apply]
  | some previous => simp [Function.update_apply, eq_comm]

theorem join_entries (t : Register) (kind : JoinKind) (table : Table) (on : Option Segment)
    (optional : Bool) (name : String) :
    (t.join kind table on optional).entries name =
      if name = table.appliedName then
        some ⟨table, QueryOf.joinSegment kind table on, optional⟩
      else t.entries name :=
  Function.update_apply ..

namespace Sound

variable {t : Register}

theorem empty : Sound {} where
  keys name := by simp
  nodup := .nil
  anchor_not_mem name h := by cases h
  applied name e h := by cases h
  ne name e h := by cases h
  anchor_mandatory name e h := by cases h

/-- A new anchor leaves no entry of the one before. -/
theorem setAnchor (h : t.Sound) {table : Table} (hname : table.name ≠ "")
    (hnew : (t.entries table.appliedName).isSome → t.anchor = some table.appliedName) :
    (t.setAnchor table).Sound where
  keys name := by
    rw [setAnchor_entries]
    by_cases hsame : name = table.appliedName
    · simp [hsame, Register.setAnchor]
    · rw [if_neg hsame]
      by_cases hanchor : t.anchor = some name
      · have hjoin := h.anchor_not_mem name hanchor
        simp [hanchor, Register.setAnchor, hjoin, Ne.symm hsame]
      · rw [if_neg hanchor, h.keys]
        simp [hanchor, Register.setAnchor, Ne.symm hsame]
  nodup := h.nodup
  anchor_not_mem name hanchor hmem := by
    cases hanchor
    -- The name would have an entry as a join, so it would be that of the anchor.
    have hentry := (h.keys table.appliedName).mpr (.inr hmem)
    exact h.anchor_not_mem _ (hnew hentry) hmem
  applied name e hentry := by
    rw [setAnchor_entries] at hentry
    split at hentry
    · rename_i hsame
      cases hentry
      exact hsame.symm
    · split at hentry
      · cases hentry
      · exact h.applied name e hentry
  ne name e hentry := by
    rw [setAnchor_entries] at hentry
    split at hentry
    · rename_i hsame
      cases hentry
      exact ⟨hsame ▸ appliedName_ne_empty hname, hname⟩
    · split at hentry
      · cases hentry
      · exact h.ne name e hentry
  anchor_mandatory name e hanchor hentry := by
    cases hanchor
    rw [setAnchor_entries, if_pos rfl] at hentry
    cases hentry
    rfl

/-- A new join has a name of its own. -/
theorem join (h : t.Sound) (kind : JoinKind) {table : Table} (on : Option Segment)
    (optional : Bool) (hname : table.name ≠ "") (hnew : t.entries table.appliedName = none) :
    (t.join kind table on optional).Sound where
  keys name := by
    rw [join_entries]
    by_cases hsame : name = table.appliedName
    · simp [hsame, Register.join]
    · rw [if_neg hsame, h.keys]
      simp [Register.join, hsame]
  nodup := by
    have hjoin : table.appliedName ∉ t.joins := fun hmem => by
      simpa [hnew] using (h.keys table.appliedName).mpr (.inr hmem)
    rw [Register.join, ← List.concat_eq_append]
    exact h.nodup.concat hjoin
  anchor_not_mem name hanchor hmem := by
    rcases List.mem_append.mp hmem with hmem | hlast
    · exact h.anchor_not_mem name hanchor hmem
    · obtain rfl := List.mem_singleton.mp hlast
      simpa [hnew] using (h.keys table.appliedName).mpr (.inl hanchor)
  applied name e hentry := by
    rw [join_entries] at hentry
    split at hentry
    · rename_i hsame
      cases hentry
      exact hsame.symm
    · exact h.applied name e hentry
  ne name e hentry := by
    rw [join_entries] at hentry
    split at hentry
    · rename_i hsame
      cases hentry
      exact ⟨hsame ▸ appliedName_ne_empty hname, hname⟩
    · exact h.ne name e hentry
  anchor_mandatory name e hanchor hentry := by
    rw [join_entries] at hentry
    split at hentry
    · rename_i hsame
      -- The anchor has an entry, and the joined table had none.
      have hanchored := (h.keys name).mpr (.inl hanchor)
      simp [hsame, hnew] at hanchored
    · exact h.anchor_mandatory name e hanchor hentry

/-- A call keeps the register sound. -/
theorem apply (h : t.Sound) (step : Step B) : (t.apply step).Sound := by
  unfold Register.apply
  split
  · exact h
  · rename_i haccepted
    cases step with
    | anchor table =>
        simp only [fault?] at haccepted
        split at haccepted
        · simp at haccepted
        · rename_i hname
          refine h.setAnchor hname fun hentry => ?_
          by_contra hanchor
          simp [hentry, hanchor] at haccepted
    | join kind table on optional =>
        simp only [fault?] at haccepted
        split at haccepted
        · simp at haccepted
        · rename_i hname
          refine h.join kind on optional hname ?_
          by_contra hentry
          simp [Option.isSome_iff_ne_none, hentry] at haccepted
    | _ => exact h

/-- **The register is sound after every chain of calls.** -/
theorem ofCalls (steps : List (Step B)) : (Register.ofCalls steps).Sound := by
  have hrun : ∀ t : Register, t.Sound → (steps.foldl Register.apply t).Sound := by
    induction steps with
    | nil => exact fun t h => h
    | cons step rest ih => exact fun t h => ih _ (h.apply step)
  exact hrun {} .empty

end Sound

end Register

namespace QueryOf

variable {B : Type} {q : QueryOf B}

/-! ## The tables of a query -/

/-- The tables of a query in their three places. -/
def register (q : QueryOf B) : Register where
  anchor := q.anchor.map FromEntry.name
  joins := q.joins.map FromEntry.name
  entries := q.from?

@[simp] theorem register_anchor (q : QueryOf B) :
    q.register.anchor = q.anchor.map FromEntry.name := rfl

@[simp] theorem register_joins (q : QueryOf B) :
    q.register.joins = q.joins.map FromEntry.name := rfl

@[simp] theorem register_entries (q : QueryOf B) : q.register.entries = q.from? := rfl

/-- Why a call is rejected, if it is. -/
def fault? (q : QueryOf B) : Step B → Option QueryFault
  | .cte name _ =>
    if name = "" then some .withUnnamed
    else if name ∈ q.ctes.map Cte.name then some (.alreadyDeclared name)
    else none
  | step => q.register.fault? step

/-- The messages of the rejected calls of a chain, in their order. -/
def faultsOf (q : QueryOf B) : List (Step B) → List QueryFault
  | [] => []
  | step :: rest => (q.fault? step).toList ++ (q.apply step).faultsOf rest

theorem isSome_from?_iff {name : String} :
    (q.from? name).isSome ↔ ∃ e ∈ q.froms, e.name = name := by
  simp [from?]

/-- The anchor is not joined too. -/
theorem Named.anchor_not_mem (h : q.Named) {e : FromEntry} (hanchor : q.anchor = some e) :
    e.name ∉ q.joins.map FromEntry.name := by
  have hnodup := h.nodup
  rw [froms, hanchor, Option.toList_some, List.singleton_append, List.map_cons,
    List.nodup_cons] at hnodup
  exact hnodup.1

/-- A name that is taken, and not by the anchor, is that of a join. -/
theorem Named.joined_iff (h : q.Named) {name : String} :
    (q.register.entries name).isSome ∧ q.register.anchor ≠ some name ↔
      (q.joins.any fun e => e.name == name) = true := by
  rw [register_entries, register_anchor, isSome_from?_iff]
  simp only [List.any_eq_true, beq_iff_eq]
  constructor
  · rintro ⟨⟨e, he, hname⟩, hanchor⟩
    rcases List.mem_append.mp he with he | he
    · rw [Option.mem_toList.mp he, Option.map_some, hname] at hanchor
      exact absurd rfl hanchor
    · exact ⟨e, he, hname⟩
  · rintro ⟨e, he, rfl⟩
    refine ⟨⟨e, List.mem_append_right _ he, rfl⟩, fun hsome => ?_⟩
    obtain ⟨p, hanchor, hname⟩ := Option.map_eq_some_iff.mp hsome
    exact h.anchor_not_mem hanchor (hname ▸ List.mem_map_of_mem he)

theorem from?_anchor (q : QueryOf B) (e : FromEntry) (name : String) :
    from? { q with anchor := some e } name =
      if name = e.name then some e else q.joins.find? fun e => e.name == name := by
  rw [from?, froms, Option.toList_some, List.singleton_append, List.find?_cons]
  by_cases hname : name = e.name
  · simp [hname]
  · simp [hname, beq_false_of_ne (Ne.symm hname)]

theorem from?_concat (q : QueryOf B) (e : FromEntry) (name : String) :
    from? { q with joins := q.joins ++ [e] } name =
      (q.from? name).or (if name = e.name then some e else none) := by
  have hfroms : froms { q with joins := q.joins ++ [e] } = q.froms ++ [e] := by
    rw [froms, froms, List.append_assoc]
  rw [from?, from?, hfroms, List.find?_append, List.find?_singleton]
  by_cases hname : name = e.name
  · simp [hname]
  · simp [hname, beq_false_of_ne (Ne.symm hname)]

theorem Named.register_setAnchor (h : q.Named) (table : Table) :
    register { q with anchor := some ⟨table, { raw := table.declaration }, false⟩ } =
      q.register.setAnchor table := by
  refine Register.ext rfl rfl (funext fun name => ?_)
  rw [Register.setAnchor_entries, register_entries, from?_anchor]
  refine ite_congr rfl (fun _ => rfl) fun _ => ?_
  rw [register_anchor, register_entries]
  cases hanchor : q.anchor with
  | none => simp [from?, froms, hanchor]
  | some e =>
      simp only [Option.map_some, Option.some.injEq]
      by_cases hname : e.name = name
      · -- The entry of the old anchor is gone, and no join has its name.
        rw [if_pos hname, List.find?_eq_none]
        intro e' he' heq
        refine h.anchor_not_mem hanchor (List.mem_map.mpr ⟨e', he', ?_⟩)
        rw [eq_of_beq heq, hname]
      · simp [from?, froms, hanchor, hname]

theorem register_join (q : QueryOf B) (kind : JoinKind) (table : Table) (on : Option Segment)
    (optional : Bool) (hnew : q.from? table.appliedName = none) :
    register { q with joins := q.joins ++ [⟨table, joinSegment kind table on, optional⟩] } =
      q.register.join kind table on optional := by
  refine Register.ext rfl (by simp [Register.join, FromEntry.name]) (funext fun name => ?_)
  rw [Register.join_entries, register_entries, from?_concat]
  by_cases hsame : name = table.appliedName
  · simp [hsame, hnew, FromEntry.name]
  · simp [hsame, FromEntry.name]

/-- A rejected call leaves a message and nothing else, an accepted one leaves no message. In
both cases the tables are those of the register after the call. -/
def Responds (q : QueryOf B) (step : Step B) : Prop :=
  (∃ fault, q.fault? step = some fault ∧ q.apply step = { q with faults := q.faults ++ [fault] }) ∨
    (q.fault? step = none ∧ (q.apply step).faults = q.faults)

theorem Named.responds_setAnchor (h : q.Named) (table : Table) :
    q.Responds (.anchor table) ∧
      (q.apply (.anchor table)).register = q.register.apply (.anchor table : Step B) := by
  unfold Responds
  simp only [fault?, Register.apply, Register.fault?, QueryOf.apply]
  unfold QueryOf.setAnchor
  by_cases hname : table.name = ""
  · simp only [if_pos hname, Option.isSome_some, if_true]
    exact ⟨.inl ⟨_, rfl, rfl⟩, rfl⟩
  · simp only [if_neg hname]
    by_cases hjoined : (q.joins.any fun e => e.name == table.appliedName) = true
    · rw [if_pos hjoined, if_pos (h.joined_iff.mpr hjoined)]
      exact ⟨.inl ⟨_, rfl, rfl⟩, rfl⟩
    · rw [if_neg hjoined, if_neg (mt h.joined_iff.mp hjoined)]
      exact ⟨.inr ⟨rfl, rfl⟩, h.register_setAnchor table⟩

theorem responds_join (q : QueryOf B) (kind : JoinKind) (table : Table) (on : Option Segment)
    (optional : Bool) :
    q.Responds (.join kind table on optional) ∧
      (q.apply (.join kind table on optional)).register =
        q.register.apply (.join kind table on optional : Step B) := by
  unfold Responds
  simp only [fault?, Register.apply, Register.fault?, QueryOf.apply]
  unfold join
  by_cases hname : table.name = ""
  · simp only [if_pos hname, Option.isSome_some, if_true]
    exact ⟨.inl ⟨_, rfl, rfl⟩, rfl⟩
  · simp only [if_neg hname]
    cases hentry : q.from? table.appliedName with
    | some e =>
        simp only [register, hentry, Option.isSome_some, if_true]
        exact ⟨.inl ⟨_, rfl, rfl⟩, rfl⟩
    | none =>
        have hentry' : q.register.entries table.appliedName = none := hentry
        simp only [hentry', Option.isSome_none]
        exact ⟨.inr ⟨rfl, rfl⟩, register_join q kind table on optional hentry⟩

theorem responds_addCte (q : QueryOf B) (name : String) (body : B) :
    q.Responds (.cte name body) ∧
      (q.apply (.cte name body)).register = q.register.apply (.cte name body) := by
  unfold Responds
  simp only [fault?, QueryOf.apply]
  unfold addCte
  by_cases hname : name = ""
  · simp only [if_pos hname]
    exact ⟨.inl ⟨_, rfl, rfl⟩, rfl⟩
  · have hany : (q.ctes.any fun cte => cte.name == name) = true ↔ name ∈ q.ctes.map Cte.name := by
      simp
    simp only [if_neg hname]
    by_cases hmem : name ∈ q.ctes.map Cte.name
    · rw [if_pos hmem, if_pos (hany.mpr hmem)]
      exact ⟨.inl ⟨_, rfl, rfl⟩, rfl⟩
    · rw [if_neg hmem, if_neg (mt hany.mp hmem)]
      exact ⟨.inr ⟨rfl, rfl⟩, rfl⟩

/-- Every call is answered, and leaves the tables that the register has after it. -/
theorem Named.responds (h : q.Named) (step : Step B) :
    q.Responds step ∧ (q.apply step).register = q.register.apply step := by
  cases step with
  | anchor table => exact h.responds_setAnchor table
  | join kind table on optional => exact q.responds_join kind table on optional
  | cte name body => exact q.responds_addCte name body
  | testMember column values negated =>
      unfold Responds
      simp only [QueryOf.apply, testMember]
      cases values <;> exact ⟨.inr ⟨rfl, rfl⟩, rfl⟩
  | _ => exact ⟨.inr ⟨rfl, rfl⟩, rfl⟩

/-! ## Chains of calls -/

theorem Named.register_applyAll (h : q.Named) (steps : List (Step B)) :
    (q.applyAll steps).register = steps.foldl Register.apply q.register := by
  induction steps generalizing q with
  | nil => rfl
  | cons step rest ih =>
      rw [List.foldl_cons, ← (h.responds step).2]
      exact ih (h.apply step)

theorem Responds.faults_apply {step : Step B} (h : q.Responds step) :
    (q.apply step).faults = q.faults ++ (q.fault? step).toList := by
  rcases h with ⟨fault, hfault, happly⟩ | ⟨hnone, hfaults⟩
  · rw [hfault, happly]
    rfl
  · rw [hnone, hfaults, Option.toList_none, List.append_nil]

theorem Named.faults_applyAll (h : q.Named) (steps : List (Step B)) :
    (q.applyAll steps).faults = q.faults ++ q.faultsOf steps := by
  induction steps generalizing q with
  | nil => exact (List.append_nil _).symm
  | cons step rest ih =>
      rw [faultsOf, ← List.append_assoc, ← (h.responds step).1.faults_apply]
      exact ih (h.apply step)

/-- The tables that are rendered are the entries of the anchor and of the joins, in this
order. -/
theorem Named.froms_register (h : q.Named) : q.register.froms = q.froms := by
  have hnames : q.register.anchor.toList ++ q.register.joins = q.froms.map FromEntry.name := by
    rw [froms, List.map_append, register_anchor, register_joins]
    cases q.anchor <;> rfl
  rw [Register.froms, hnames, List.filterMap_map]
  have hentry : ∀ e ∈ q.froms, (q.register.entries ∘ FromEntry.name) e = some e :=
    fun e he => h.find?_eq_some.mpr ⟨he, rfl⟩
  rw [List.filterMap_congr hentry, List.filterMap_some]

/-- The named queries have names, and no two of them the same. -/
structure CtesNamed (q : QueryOf B) : Prop where
  nodup : (q.ctes.map Cte.name).Nodup
  ne : ∀ cte ∈ q.ctes, cte.name ≠ ""

theorem CtesNamed.addCte (h : q.CtesNamed) (name : String) (body : B) :
    (q.addCte name body).CtesNamed := by
  unfold QueryOf.addCte
  split
  · exact ⟨h.nodup, h.ne⟩
  · rename_i hname
    split
    · exact ⟨h.nodup, h.ne⟩
    · rename_i hnew
      have hnot : name ∉ q.ctes.map Cte.name := by simpa using hnew
      constructor
      · rw [List.map_append, List.map_singleton, ← List.concat_eq_append]
        exact h.nodup.concat hnot
      · intro cte hcte
        rcases List.mem_append.mp hcte with hcte | hlast
        · exact h.ne cte hcte
        · rwa [List.mem_singleton.mp hlast]

/-- What is declared beside the tables stays when a table is declared. -/
theorem apply_anchor_frame (q : QueryOf B) (table : Table) :
    let q' := q.apply (.anchor table)
    q'.ctes = q.ctes ∧ q'.touches = q.touches ∧ q'.orders = q.orders := by
  simp only [QueryOf.apply, setAnchor]
  split
  · exact ⟨rfl, rfl, rfl⟩
  · split <;> exact ⟨rfl, rfl, rfl⟩

theorem apply_join_frame (q : QueryOf B) (kind : JoinKind) (table : Table) (on : Option Segment)
    (optional : Bool) :
    let q' := q.apply (.join kind table on optional)
    q'.ctes = q.ctes ∧ q'.touches = q.touches ∧ q'.orders = q.orders := by
  simp only [QueryOf.apply, join]
  split
  · exact ⟨rfl, rfl, rfl⟩
  · split <;> exact ⟨rfl, rfl, rfl⟩

theorem addCte_frame (q : QueryOf B) (name : String) (body : B) :
    (q.addCte name body).touches = q.touches ∧ (q.addCte name body).orders = q.orders := by
  unfold addCte
  split
  · exact ⟨rfl, rfl⟩
  · split <;> exact ⟨rfl, rfl⟩

theorem apply_testMember_frame (q : QueryOf B) (column : Column) (values : List Value)
    (negated : Bool) :
    let q' := q.apply (.testMember column values negated)
    q'.ctes = q.ctes ∧ q'.touches = q.touches ∧ q'.orders = q.orders := by
  simp only [QueryOf.apply, testMember]
  split <;> exact ⟨rfl, rfl, rfl⟩

theorem CtesNamed.of_ctes_eq {q' : QueryOf B} (h : q.CtesNamed) (hctes : q'.ctes = q.ctes) :
    q'.CtesNamed :=
  ⟨hctes ▸ h.nodup, hctes ▸ h.ne⟩

theorem CtesNamed.apply (h : q.CtesNamed) (step : Step B) : (q.apply step).CtesNamed := by
  cases step with
  | cte name body => exact h.addCte name body
  | anchor table => exact h.of_ctes_eq (q.apply_anchor_frame table).1
  | join kind table on optional => exact h.of_ctes_eq (q.apply_join_frame kind table on optional).1
  | testMember column values negated =>
      exact h.of_ctes_eq (q.apply_testMember_frame column values negated).1
  | _ => exact h.of_ctes_eq rfl

theorem CtesNamed.applyAll (h : q.CtesNamed) (steps : List (Step B)) :
    (q.applyAll steps).CtesNamed := by
  induction steps generalizing q with
  | nil => exact h
  | cons step rest ih => exact ih (h.apply step)

end QueryOf

/-- What a call orders by. -/
def Step.ordered? {B : Type} : Step B → Option (Column × String)
  | .orderBy column order => some (column, order)
  | _ => none

namespace QueryOf

variable {B : Type} {q : QueryOf B}

/-- The query is ordered by the given columns; the `k`-th is selected and ordered by as
`_order_k`. -/
structure Ordered (q : QueryOf B) (os : List (Column × String)) : Prop where
  touches : q.touches.segments = os.mapIdx fun i o =>
    { raw := "#c1 AS _order_" ++ Nat.repr (i + 1), columns := [o.1] }
  orders : q.orders.segments = os.mapIdx fun i o =>
    { raw := "_order_" ++ Nat.repr (i + 1) ++ " " ++ o.2 }

theorem Ordered.of_eq {q' : QueryOf B} {os : List (Column × String)} (h : q.Ordered os)
    (htouches : q'.touches = q.touches) (horders : q'.orders = q.orders) : q'.Ordered os :=
  ⟨htouches ▸ h.touches, horders ▸ h.orders⟩

theorem Ordered.addOrderBy {os : List (Column × String)} (h : q.Ordered os) (column : Column)
    (order : String) : (q.addOrderBy column order).Ordered (os ++ [(column, order)]) where
  touches := by
    have hlabel : "#c1 AS " ++ ("_order_" ++ Nat.repr (os.length + 1)) =
        "#c1 AS _order_" ++ Nat.repr (os.length + 1) := String.append_assoc.symm
    rw [List.mapIdx_concat, ← h.touches]
    simp [QueryOf.addOrderBy, Segment.withSegment, h.orders, hlabel]
  orders := by
    rw [List.mapIdx_concat, ← h.orders]
    simp [QueryOf.addOrderBy, Segment.withSegment, h.orders]

theorem apply_frame_of_ordered (q : QueryOf B) {step : Step B} (h : step.ordered? = none) :
    (q.apply step).touches = q.touches ∧ (q.apply step).orders = q.orders := by
  cases step with
  | orderBy column order => cases h
  | anchor table => exact (q.apply_anchor_frame table).2
  | join kind table on optional => exact (q.apply_join_frame kind table on optional).2
  | testMember column values negated => exact (q.apply_testMember_frame column values negated).2
  | cte name body => exact (q.addCte_frame name body)
  | _ => exact ⟨rfl, rfl⟩

theorem Ordered.apply {os : List (Column × String)} (h : q.Ordered os) (step : Step B) :
    (q.apply step).Ordered (os ++ step.ordered?.toList) := by
  cases hordered : step.ordered? with
  | none =>
      obtain ⟨htouches, horders⟩ := q.apply_frame_of_ordered hordered
      rw [Option.toList_none, List.append_nil]
      exact h.of_eq htouches horders
  | some o =>
      cases step <;> cases hordered
      exact h.addOrderBy _ _

theorem Ordered.applyAll {os : List (Column × String)} (h : q.Ordered os) (steps : List (Step B)) :
    (q.applyAll steps).Ordered (os ++ steps.filterMap Step.ordered?) := by
  induction steps generalizing q os with
  | nil =>
      rw [List.filterMap_nil, List.append_nil]
      exact h
  | cons step rest ih =>
      have hcons : (step :: rest).filterMap Step.ordered? =
          step.ordered?.toList ++ rest.filterMap Step.ordered? := by
        cases hordered : step.ordered? <;> simp [hordered]
      rw [hcons, ← List.append_assoc]
      exact ih (h.apply step)

theorem ctesNamed_ofSettings (settings : Settings) :
    (ofSettings settings : QueryOf B).CtesNamed where
  nodup := .nil
  ne _ h := by cases h

theorem ordered_ofSettings (settings : Settings) : (ofSettings settings : QueryOf B).Ordered [] :=
  ⟨rfl, rfl⟩

/-- A name that is needed and has no table stops the search, perhaps another one than the given
one. -/
theorem Named.exists_missing (h : q.Named) {selects : Segment} {name : String}
    (hneeds : q.Needs selects name) (hmissing : q.from? name = none) :
    ∃ missing, q.Needs selects missing ∧ q.from? missing = none ∧
      q.needed selects = .error (.notFound missing) := by
  have hmarks := q.needed_marks selects
  cases hneeded : q.needed selects with
  | ok marked =>
      rw [hneeded] at hmarks
      obtain ⟨hmem, hfound⟩ := hmarks name
      obtain ⟨e, he⟩ := hfound (hmem.mpr (h.leads_iff.mpr hneeds))
      rw [from?, he] at hmissing
      cases hmissing
  | error fault =>
      rw [hneeded] at hmarks
      obtain ⟨missing, rfl, hleads, hnone⟩ := hmarks
      exact ⟨missing, h.leads_iff.mp hleads, hnone, rfl⟩

end QueryOf

/-! ## Queries that are not built -/

/-- With any functions the query fails in any session, and leaves the session as it is. -/
def Refused (q : Query) (selects : Segment) (e : Error) : Prop :=
  ∀ registry s, renderWith q registry selects s = .error e s

theorem Builder.render_query (registry : Registry) (q : Query) :
    (Builder.query q).render registry = renderWith q registry q.selects := by
  cases q
  rfl

namespace Refused

variable {q : Query} {selects : Segment} {e : Error}

theorem nested (h : Refused q q.selects e) (registry : Registry) (s : Session) :
    (Builder.query q).render registry s = .error e s := by
  rw [Builder.render_query]
  exact h registry s

theorem ofRender_eq (h : Refused q selects e) (registry : Registry) (s : Session) :
    Built.ofRender (renderWith q registry selects) s = .error e := by
  rw [Built.ofRender, h registry s]

theorem build_result (h : Refused q q.selects e) : (build q).result = .error e := by
  rw [build, render, h.ofRender_eq]

theorem buildSelect_result {columns : List Column} (h : Refused q (q.projection columns) e) :
    (buildSelect q columns).result = .error e := by
  rw [buildSelect, h.ofRender_eq, finish]

theorem buildCount_result {columns : List Column} (h : ∀ selects, Refused q selects e) :
    (buildCount q columns).result = .error e := by
  simp only [buildCount]
  rw [Built.ofRender, map_of_error (h _ _ _), finish]

end Refused

/-- How a query fails before anything is rendered. With messages it fails in every way to build
it, and with just these messages; without an anchor, or with a needed name that is that of no
table, it fails too. The session is not touched, nor is it where the query is nested in
another. -/
structure FailsFirst (q : Query) : Prop where
  messages : q.faults ≠ [] →
    let e := Error.ofCause (.badQuery q.faults)
    (∀ selects, Refused q selects e) ∧ (build q).result = .error e ∧
      ∀ columns, (buildSelect q columns).result = .error e ∧
        (buildCount q columns).result = .error e
  no_anchor : q.faults = [] → q.anchor = none →
    ∀ selects, Refused q selects (.ofCause (.badQuery [.noAnchor]))
  missing : q.faults = [] → q.anchor.isSome → ∀ selects name,
    q.Needs selects name → q.from? name = none →
      ∃ missing, q.Needs selects missing ∧ q.from? missing = none ∧
        Refused q selects (.ofCause (.badQuery [.notFound missing]))
  nested : ∀ e, Refused q q.selects e → ∀ registry s,
    (Builder.query q).render registry s = .error e s

theorem failsFirst_of_named {q : Query} (h : q.Named) : FailsFirst q where
  messages hfaults := by
    have hrefused : ∀ selects, Refused q selects (.ofCause (.badQuery q.faults)) :=
      fun _ registry s => QueryOf.compose_of_faults registry _ _ s hfaults
    exact ⟨hrefused, (hrefused _).build_result,
      fun columns => ⟨(hrefused _).buildSelect_result, Refused.buildCount_result hrefused⟩⟩
  no_anchor hfaults hanchor _ registry s :=
    QueryOf.compose_of_no_anchor registry _ _ s hfaults hanchor
  missing hfaults hanchor selects name hneeds hmissing := by
    obtain ⟨missing, hneeded, hnone, herror⟩ := h.exists_missing hneeds hmissing
    exact ⟨missing, hneeded, hnone, fun registry s =>
      QueryOf.compose_of_needed_error registry _ _ s hfaults hanchor herror⟩
  nested _ h registry s := h.nested registry s

/-- **What every chain of calls keeps.** The tables of the query are those of the register that
follows the calls one by one, in the order of the FROM clause, and the register is sound. The
named queries have names of their own, and the ordered columns are selected under the names that
they are ordered by. Every further call is rejected with one message and no other effect, or
leaves no message; the messages are those of the rejected calls in their order, and with them
the query is never built. -/
theorem applyAll_keeps (settings : Settings) (steps : List (Step Builder)) :
    let start : Query := QueryOf.ofSettings settings
    let q := start.applyAll steps
    (q.register = Register.ofCalls steps ∧ q.register.froms = q.froms ∧ q.register.Sound) ∧
      q.CtesNamed ∧ q.Ordered (steps.filterMap Step.ordered?) ∧
      (∀ step, q.Responds step) ∧ q.faults = start.faultsOf steps ∧ FailsFirst q := by
  intro start q
  have hstart : start.Named := QueryOf.named_ofSettings settings
  have h : q.Named := hstart.applyAll steps
  have hregister : q.register = Register.ofCalls steps := hstart.register_applyAll steps
  have hsound : q.register.Sound := hregister ▸ Register.Sound.ofCalls steps
  exact ⟨⟨hregister, h.froms_register, hsound⟩,
    (QueryOf.ctesNamed_ofSettings settings).applyAll steps,
    (QueryOf.ordered_ofSettings settings).applyAll steps, fun step => (h.responds step).1,
    hstart.faults_applyAll steps, failsFirst_of_named h⟩

end SqlTemplate.Query
