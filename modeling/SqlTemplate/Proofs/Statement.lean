import Mathlib.Data.List.Induction
import SqlTemplate.Proofs.Conservation
import SqlTemplate.Proofs.Elimination
import SqlTemplate.Proofs.Numbering
import SqlTemplate.Query.Terminal

/-!
# Whole statements

The clauses of a query are rendered one after the other into the same session, and
so are the queries nested in it. In indexed style each of them goes on with the
numbers where the one before stopped. What is rendered earlier is also written
earlier, so the statement as a whole is numbered from left to right.
The arguments that the session gains are those of the parts that are rendered, and
no others: not those of a join that is left out, nor those of a named query that no
table of the FROM clause refers to.
-/

namespace SqlTemplate

/-! ## The placeholders of an output -/

/-- The style and the slot of a placeholder. -/
def Symbol.placeholder? : Symbol → Option (Style × Nat)
  | .char _ => none
  | .placeholder style slot => some (style, slot)

namespace Output

/-- The placeholders from left to right. -/
def placeholders (o : Output) : List (Style × Nat) := o.filterMap Symbol.placeholder?

@[simp] theorem placeholders_nil : placeholders [] = [] := rfl

@[simp] theorem placeholders_append (o p : Output) :
    placeholders (o ++ p) = o.placeholders ++ p.placeholders :=
  List.filterMap_append

@[simp] theorem placeholders_ofString (s : String) : (ofString s).placeholders = [] := by
  simp [placeholders, ofString, List.filterMap_map, Function.comp_def, Symbol.placeholder?]

@[simp] theorem placeholders_join (separator : String) (parts : List Output) :
    (join separator parts).placeholders = parts.flatMap placeholders :=
  filterMap_intercalate (placeholders_ofString separator) parts

/-- What is empty has no placeholders. -/
@[simp] theorem flatMap_placeholders_filter (parts : List Output) :
    (parts.filter fun o => !o.isEmpty).flatMap placeholders = parts.flatMap placeholders := by
  induction parts with
  | nil => rfl
  | cons o rest ih => cases o <;> simp [ih]

@[simp] theorem placeholders_prepend (s : String) (o : Output) :
    (Query.QueryOf.prepend s o).placeholders = o.placeholders := by
  unfold Query.QueryOf.prepend
  cases o <;> simp

/-- The placeholders of an expansion that is written out are at its sites. -/
theorem placeholders_write (number : Site → Nat) (e : Expansion) :
    (e.write fun site => .placeholder .indexed (number site)).placeholders =
      (e.sites.map number).map (Prod.mk .indexed) := by
  rw [placeholders, Expansion.write, Expansion.sites, List.filterMap_map, List.map_map,
    List.map_filterMap]
  congr 1
  funext piece
  cases piece <;> rfl

end Output

/-! ## Numbers that go on -/

/-- Read from left to right, each number is one of those before it or exactly one more than the
largest so far, from `k` on; in the end the largest is `k + m`. -/
structure GoesOn (k : Nat) (slots : List Nat) (m : Nat) : Prop where
  next : ∀ before n after, slots = before ++ n :: after →
    n ∈ before ∨ n = before.foldl max k + 1
  top : slots.foldl max k = k + m

namespace GoesOn

variable {k m m' n : Nat} {slots slots' : List Nat}

theorem le_foldl_max (k : Nat) (slots : List Nat) : k ≤ slots.foldl max k := by
  induction slots generalizing k with
  | nil => exact Nat.le_refl k
  | cons n rest ih =>
      rw [List.foldl_cons]
      exact Nat.le_trans (Nat.le_max_left k n) (ih _)

/-- No number is above the last one that is new. -/
theorem le (h : GoesOn k slots m) : ∀ n ∈ slots, n ≤ k + m := by
  intro n hn
  obtain ⟨before, after, rfl⟩ := List.append_of_mem hn
  rw [← h.top, List.foldl_append, List.foldl_cons]
  exact Nat.le_trans (Nat.le_max_right _ n) (le_foldl_max _ after)

/-- A place in a concatenation is in the first or in the second list. -/
theorem split_append {α : Type} {xs ys before after : List α} {x : α}
    (h : xs ++ ys = before ++ x :: after) :
    (∃ rest, xs = before ++ x :: rest) ∨ ∃ middle, before = xs ++ middle ∧
      ys = middle ++ x :: after := by
  rcases List.append_eq_append_iff.mp h with ⟨middle, rfl, rfl⟩ | ⟨rest, rfl, hrest⟩
  · exact .inr ⟨middle, rfl, rfl⟩
  · cases rest with
    | nil => exact .inr ⟨[], by simp, hrest.symm⟩
    | cons y rest =>
        obtain ⟨rfl, _⟩ := List.cons.inj hrest
        exact .inl ⟨rest, rfl⟩

theorem nil (k : Nat) : GoesOn k [] 0 where
  next before n after h := by simp at h
  top := rfl

theorem append (h : GoesOn k slots m) (h' : GoesOn (k + m) slots' m') :
    GoesOn k (slots ++ slots') (m + m') where
  next before n after heq := by
    rcases split_append heq with ⟨rest, hfirst⟩ | ⟨middle, rfl, hsecond⟩
    · exact h.next before n rest hfirst
    · rcases h'.next middle n after hsecond with hmem | hnew
      · exact .inl (List.mem_append_right _ hmem)
      · exact .inr (by rw [List.foldl_append, h.top, hnew])
  top := by rw [List.foldl_append, h.top, h'.top, Nat.add_assoc]

/-- A number that there was. -/
theorem again (h : GoesOn k slots m) (hn : n ∈ slots) : GoesOn k (slots ++ [n]) m where
  next before n' after heq := by
    rcases split_append heq with ⟨rest, hfirst⟩ | ⟨middle, rfl, hsecond⟩
    · exact h.next before n' rest hfirst
    · obtain ⟨rfl, rfl⟩ : middle = [] ∧ n' = n := by
        cases middle <;> simp_all
      exact .inl (by simpa using hn)
  top := by
    rw [List.foldl_append, h.top]
    exact Nat.max_eq_left (h.le n hn)

/-- The next number. -/
theorem succ (h : GoesOn k slots m) : GoesOn k (slots ++ [k + m + 1]) (m + 1) := by
  refine h.append ⟨?_, by simp⟩
  intro before n after heq
  cases before <;> simp_all

/-- Ranks of first occurrence, from one above `k`, go on. -/
theorem ranks {α : Type} [DecidableEq α] (k : Nat) (xs : List α) :
    GoesOn k (xs.map fun x => k + (xs.eraseDups.idxOf x + 1)) xs.eraseDups.length := by
  induction xs using List.reverseRecOn with
  | nil => exact .nil k
  | append_singleton xs x ih =>
      -- One more at the end changes no rank before it.
      have hold : ∀ y ∈ xs, (xs ++ [x]).eraseDups.idxOf y = xs.eraseDups.idxOf y := by
        intro y hy
        rw [List.eraseDups_append, List.idxOf_append_of_mem (List.mem_eraseDups.mpr hy)]
      have hmap : xs.map (fun y => k + ((xs ++ [x]).eraseDups.idxOf y + 1)) =
          xs.map fun y => k + (xs.eraseDups.idxOf y + 1) :=
        List.map_congr_left fun y hy => by rw [hold y hy]
      rw [List.map_append, List.map_singleton, hmap]
      by_cases hx : x ∈ xs
      · rw [hold x hx, eraseDups_append_of_subset (by simpa using hx)]
        exact ih.again (List.mem_map_of_mem hx)
      · have hfirst : (xs ++ [x]).eraseDups = xs.eraseDups ++ [x] :=
          eraseDups_append_of_disjoint (by simpa using hx)
        have hrank : (xs.eraseDups ++ [x]).idxOf x = xs.eraseDups.length := by
          rw [List.idxOf_append_of_notMem (by simpa using hx), List.idxOf_cons_self, Nat.add_zero]
        rw [hfirst, hrank, List.length_append, List.length_singleton]
        exact ih.succ

end GoesOn

/-! ## Rendering that goes on -/

/-- Between the two sessions, both in indexed style, the placeholders were written and the
declared values gained, in some order. -/
structure Continues (declared : List Value) (placeholders : List (Style × Nat))
    (s s' : Session) : Prop where
  style : s'.style = some .indexed
  gained : ∃ vs slots, s'.args = s.args ++ vs ∧ vs.Perm declared ∧
    placeholders = slots.map (Prod.mk .indexed) ∧ GoesOn s.args.length slots vs.length

namespace Continues

variable {ds ds' : List Value} {ps ps' : List (Style × Nat)} {s s' s'' : Session}

theorem refl (hstyle : s.style = some .indexed) : Continues [] [] s s where
  style := hstyle
  gained := ⟨[], [], by simp, .nil, rfl, .nil _⟩

theorem trans (h : Continues ds ps s s') (h' : Continues ds' ps' s' s'') :
    Continues (ds ++ ds') (ps ++ ps') s s'' where
  style := h'.style
  gained := by
    obtain ⟨vs, slots, hargs, hvs, rfl, hslots⟩ := h.gained
    obtain ⟨vs', slots', hargs', hvs', rfl, hslots'⟩ := h'.gained
    refine ⟨vs ++ vs', slots ++ slots', ?_, hvs.append hvs', by simp, ?_⟩
    · rw [hargs', hargs, List.append_assoc]
    · rw [hargs, List.length_append] at hslots'
      rw [List.length_append]
      exact hslots.append hslots'

end Continues

/-- A computation that goes on with the numbers, in indexed style. It gains the declared values,
and its result shows the placeholders that it wrote. -/
def Writes {α : Type} (x : RenderM α) (declared : List Value)
    (shows : α → List (Style × Nat) → Prop) : Prop :=
  ∀ ⦃s s' : Session⦄ ⦃a : α⦄, x s = .ok a s' → s.style = some .indexed →
    ∃ ps, shows a ps ∧ Continues declared ps s s'

/-- The placeholders of an output. -/
def Output.Has (o : Output) (ps : List (Style × Nat)) : Prop := o.placeholders = ps

/-- The placeholders of some outputs, one after the other. -/
def Output.AllHave (os : List Output) (ps : List (Style × Nat)) : Prop :=
  os.flatMap Output.placeholders = ps

namespace Writes

variable {α β : Type} {ds ds' : List Value} {shows : α → List (Style × Nat) → Prop}
  {shows' : β → List (Style × Nat) → Prop}

theorem pure {a : α} (h : shows a []) : Writes (pure a) [] shows := by
  intro s s' b hrun hstyle
  obtain ⟨rfl, rfl⟩ := pure_eq_ok.mp hrun
  exact ⟨[], h, .refl hstyle⟩

theorem within {raw : String} {x : RenderM α} (h : Writes x ds shows) :
    Writes (SqlTemplate.within raw x) ds shows :=
  fun _ _ _ hrun => h (within_eq_ok.mp hrun)

theorem bind {x : RenderM α} {f : α → RenderM β} (h : Writes x ds shows)
    (hf : ∀ a ps, shows a ps → Writes (f a) ds' fun b ps' => shows' b (ps ++ ps')) :
    Writes (x >>= f) (ds ++ ds') shows' := by
  intro s s'' b hrun hstyle
  obtain ⟨a, s', hx, hb⟩ := bind_eq_ok.mp hrun
  obtain ⟨ps, ha, hcont⟩ := h hx hstyle
  obtain ⟨ps', hb, hcont'⟩ := hf a ps ha hb hcont.style
  exact ⟨ps ++ ps', hb, hcont.trans hcont'⟩

/-- A check that the computation has to pass. -/
theorem check {c : Prop} [Decidable c] {cause : Cause} {f : PUnit → RenderM α}
    (h : Writes (f ()) ds shows) :
    Writes (if c then SqlTemplate.fail cause >>= f else f ()) ds shows := by
  split
  · intro _ _ _ hrun
    obtain ⟨_, _, hfail, _⟩ := bind_eq_ok.mp hrun
    exact absurd hfail fail_ne_ok
  · exact h

theorem liftCause {x : Except Cause α} {f : α → RenderM β}
    (h : ∀ a, x = .ok a → Writes (f a) ds shows') :
    Writes (SqlTemplate.liftCause x >>= f) ds shows' := by
  intro s s' b hrun
  obtain ⟨a, _, hx, hrun⟩ := bind_eq_ok.mp hrun
  obtain ⟨rfl, rfl⟩ := liftCause_eq_ok.mp hx
  exact h a rfl hrun

theorem mapM {f : α → RenderM Output} {args : α → List Value} {xs : List α}
    (h : ∀ a ∈ xs, Writes (f a) (args a) Output.Has) :
    Writes (xs.mapM f) (xs.flatMap args) Output.AllHave := by
  induction xs with
  | nil => exact .pure rfl
  | cons a rest ih =>
      rw [List.mapM_cons, List.flatMap_cons]
      refine .bind (h a (by simp)) fun o ps ho => ?_
      rw [← List.append_nil (rest.flatMap args)]
      refine .bind (ih fun b hb => h b (by simp [hb])) fun os ps' hos => .pure ?_
      cases ho
      cases hos
      simp [Output.AllHave]

end Writes

/-- A segment goes on with the numbers, and gains what it declares. -/
theorem Segment.render_writes {registry : Registry} (hr : registry.HasBuiltins) {seg : Segment}
    (hb : seg.UsesBuiltins) : Writes (seg.render registry) seg.allArgs Output.Has := by
  intro s s' out hrun hstyle
  have hstyle' : s'.style = some .indexed := (render_extends hrun).style_eq hstyle
  have ho : s'.OpenTo .indexed := fun st hst => Option.some.inj (hst.symm.trans hstyle')
  rw [render_eq_standard hr hb] at hrun
  obtain ⟨vs, hargs, hvs⟩ := seg.render_gains .standard .indexed hrun ho
  obtain ⟨e, vs', _, hshows, hargs', hmap⟩ := seg.render_numbers hrun ho
  obtain rfl : vs = vs' := List.append_cancel_left (hargs.symm.trans hargs')
  have hlength : vs.length = e.firstSites.length := by simpa using congrArg List.length hmap
  have hout : out = e.number s.args.length := by
    refine hshows.eq_write ?_
    rintro st slot site ⟨rfl, _, rfl⟩
    rfl
  refine ⟨_, rfl, hstyle', vs, _, hargs, hvs, ?_, hlength ▸ GoesOn.ranks s.args.length e.sites⟩
  rw [hout]
  exact Output.placeholders_write _ e

theorem Segment.usesBuiltins_of_checkAll (depth : Nat) {segments : List Segment}
    (h : segments.all fun s => s.templates.all fun raw => ((Template.parse raw).toOption.map
      (Template.Clause.checkBuiltins depth)).getD true) : ∀ s ∈ segments, s.UsesBuiltins :=
  fun s hs => s.usesBuiltins_of_check depth (List.all_eq_true.mp h s hs)

/-! ## The parts that are rendered -/

namespace Query

/-- A nested query replaced by what `f` makes of it. -/
def Cte.map {B C : Type} (f : B → C) (cte : Cte B) : Cte C := ⟨cte.name, f cte.body⟩

/-- A table of the FROM clause is the named query. -/
def Cte.InUse {B : Type} (froms : List FromEntry) (cte : Cte B) : Bool :=
  froms.any fun e => e.table.name == cte.name

namespace QueryOf

variable {B : Type}

/-- The arguments of what is rendered of a query that selects `selects`, given those of the
nested queries: no arguments of a join that is left out, and none of a named query that is not
in use. -/
def renderedArgs (q : QueryOf B) (ctes : List (Cte (List Value))) (unions : List (List Value))
    (selects : Segment) : List Value :=
  let froms := match q.needed selects with
    | .ok needed => q.rendered needed
    | .error _ => []
  (ctes.filter (Cte.InUse froms)).flatMap Cte.body ++ selects.allArgs ++ q.touches.allArgs ++
    froms.flatMap (fun e => e.segment.allArgs) ++ q.conditions.allArgs ++ q.groupBys.allArgs ++
    q.orders.allArgs ++ unions.flatten

end QueryOf

mutual

def Builder.renderedArgs : Builder → List Value
  | .segment s => s.allArgs
  | .query ⟨settings, own, ctes, anchor, joins, selects, touches, conditions, orders, groupBys,
      distinct, limit, offset, unions, faults⟩ =>
    let q : Query := ⟨settings, own, ctes, anchor, joins, selects, touches, conditions, orders,
      groupBys, distinct, limit, offset, unions, faults⟩
    q.renderedArgs (Builder.cteArgs ctes) (Builder.unionArgs unions) selects

def Builder.cteArgs : List (Cte Builder) → List (Cte (List Value))
  | [] => []
  | ⟨name, body⟩ :: rest => ⟨name, body.renderedArgs⟩ :: Builder.cteArgs rest

def Builder.unionArgs : List Builder → List (List Value)
  | [] => []
  | b :: rest => b.renderedArgs :: Builder.unionArgs rest

end

/-- Every function that the templates of the query and of those nested in it name is a built-in
one. -/
inductive Builder.UsesBuiltins : Builder → Prop
  | segment {s : Segment} (h : s.UsesBuiltins) : UsesBuiltins (.segment s)
  | query {q : Query} (clauses : ∀ s ∈ q.shown q.froms q.selects, s.UsesBuiltins)
      (ctes : ∀ cte ∈ q.ctes, UsesBuiltins cte.body) (unions : ∀ b ∈ q.unions, UsesBuiltins b) :
    UsesBuiltins (.query q)

namespace Builder

/-- What holds of segments, and of a query when it does of all that is nested in it, holds of
everything that can be nested. -/
@[elab_as_elim]
theorem induction {P : Builder → Prop} (segment : ∀ s, P (.segment s))
    (query : ∀ q : Query, (∀ cte ∈ q.ctes, P cte.body) → (∀ b ∈ q.unions, P b) → P (.query q))
    (b : Builder) : P b := by
  match b with
  | .segment s => exact segment s
  | .query q =>
      refine query q ?_ ?_
      · intro cte hcte
        exact induction segment query cte.body
      · intro b hb
        exact induction segment query b
termination_by sizeOf b
decreasing_by
  · have hlt := List.sizeOf_lt_of_mem hcte
    cases cte
    cases q
    simp only [Builder.query.sizeOf_spec, QueryOf.mk.sizeOf_spec, Cte.mk.sizeOf_spec] at hlt ⊢
    omega
  · have hlt := List.sizeOf_lt_of_mem hb
    cases q
    simp only [Builder.query.sizeOf_spec, QueryOf.mk.sizeOf_spec] at hlt ⊢
    omega

theorem cteBodies_eq_map (registry : Registry) (ctes : List (Cte Builder)) :
    cteBodies registry ctes = ctes.map (Cte.map (render registry)) := by
  induction ctes with
  | nil => rfl
  | cons cte rest ih => rw [cteBodies, ih, List.map_cons, Cte.map]

theorem bodies_eq_map (registry : Registry) (unions : List Builder) :
    bodies registry unions = unions.map (render registry) := by
  induction unions with
  | nil => rfl
  | cons b rest ih => rw [bodies, ih, List.map_cons]

theorem cteArgs_eq_map (ctes : List (Cte Builder)) :
    cteArgs ctes = ctes.map (Cte.map renderedArgs) := by
  induction ctes with
  | nil => rfl
  | cons cte rest ih => rw [cteArgs, ih, List.map_cons, Cte.map]

theorem unionArgs_eq_map (unions : List Builder) :
    unionArgs unions = unions.map renderedArgs := by
  induction unions with
  | nil => rfl
  | cons b rest ih => rw [unionArgs, ih, List.map_cons]

end Builder

/-! ## Statements -/

namespace QueryOf

variable {B : Type} {render : B → RenderM Output} {args : B → List Value}

/-- The named queries in use go on with the numbers; those that are not in use do nothing. -/
theorem renderCtes_writes (froms : List FromEntry) {ctes : List (Cte B)}
    (h : ∀ cte ∈ ctes, Writes (render cte.body) (args cte.body) Output.Has) :
    Writes (renderCtes froms (ctes.map (Cte.map render)))
      (((ctes.map (Cte.map args)).filter (Cte.InUse froms)).flatMap Cte.body)
      Output.AllHave := by
  induction ctes with
  | nil => exact .pure rfl
  | cons cte rest ih =>
      have hrest := ih fun c hc => h c (by simp [hc])
      rw [List.map_cons, List.map_cons, renderCtes]
      by_cases huse : froms.any fun e => e.table.name == cte.name
      · have huse' : Cte.InUse froms (cte.map args) = true := huse
        rw [List.filter_cons_of_pos huse', List.flatMap_cons]
        simp only [Cte.map, huse, if_true]
        refine .bind (.within (h cte (by simp))) fun body ps hbody => ?_
        rw [← List.append_nil (List.flatMap _ _)]
        refine .bind hrest fun others ps' hothers => ?_
        cases hbody
        cases hothers
        split
        · rename_i hempty
          rw [List.isEmpty_iff] at hempty
          exact .pure (by simp [Output.AllHave, hempty])
        · exact .pure (by simp [Output.AllHave])
      · have huse' : ¬ Cte.InUse froms (cte.map args) = true := huse
        rw [List.filter_cons_of_neg huse']
        simp only [Cte.map, huse]
        exact hrest

/-- **Every clause is written where it is rendered.** So a statement goes on with the numbers if
each of its segments and each of the queries nested in it does. -/
theorem compose_writes {registry : Registry} (hr : registry.HasBuiltins) {q : QueryOf B}
    {selects : Segment} (hclauses : ∀ s ∈ q.shown q.froms selects, s.UsesBuiltins)
    (hctes : ∀ cte ∈ q.ctes, Writes (render cte.body) (args cte.body) Output.Has)
    (hunions : ∀ b ∈ q.unions, Writes (render b) (args b) Output.Has) :
    Writes (q.compose registry (q.ctes.map (Cte.map render)) (q.unions.map render) selects)
      (q.renderedArgs (q.ctes.map (Cte.map args)) (q.unions.map args) selects) Output.Has := by
  have hclause : ∀ s ∈ [selects, q.touches, q.conditions, q.groupBys, q.orders],
      Writes (s.render registry) s.allArgs Output.Has :=
    fun s hs => s.render_writes hr (hclauses s (List.mem_append_left _ hs))
  have hfrom : ∀ e ∈ q.froms, Writes (e.segment.render registry) e.segment.allArgs Output.Has :=
    fun e he => e.segment.render_writes hr
      (hclauses _ (List.mem_append_right _ (List.mem_map_of_mem he)))
  unfold compose
  refine .check (.check (.liftCause fun needed hneeded => ?_))
  have hmarked : q.needed selects = .ok needed := by
    cases hmarked : q.needed selects with
    | ok marked => simpa [hmarked, Except.mapError] using hneeded
    | error fault => simp [hmarked, Except.mapError] at hneeded
  rw [renderedArgs, hmarked]
  simp only [List.append_assoc]
  -- Clause by clause, in the order of the rendering.
  refine .bind (renderCtes_writes _ hctes) fun ctes ps hc => ?_
  refine .bind (hclause _ (by simp)) fun columns ps hcolumns => .check ?_
  refine .bind (hclause _ (by simp)) fun touches ps htouches => ?_
  refine .bind (.mapM fun e he => hfrom e (mem_rendered_iff.mp he).1) fun tables ps htables => ?_
  refine .bind (hclause _ (by simp)) fun conditions ps hconditions => ?_
  refine .bind (hclause _ (by simp)) fun groupBys ps hgroupBys => ?_
  refine .bind (hclause _ (by simp)) fun orders ps horders => ?_
  rw [← List.flatMap_def, List.mapM_map, ← List.append_nil (q.unions.flatMap args)]
  refine .bind (.mapM hunions) fun unions ps hunions => ?_
  -- The text has the placeholders of the clauses in the same order.
  cases hc
  cases hcolumns
  cases htouches
  cases htables
  cases hconditions
  cases hgroupBys
  cases horders
  cases hunions
  have hlimit : ∀ (n : Nat) (s : String),
      (if n = 0 then [] else Output.ofString s : Output).placeholders = [] := by
    intro n s
    split <;> simp
  rw [← Output.flatMap_placeholders_filter unions]
  split
  · rename_i hnone
    refine .pure ?_
    simp [Output.Has, hlimit, hnone]
  · refine .pure ?_
    simp [Output.Has, hlimit]

end QueryOf

/-- What is nested in a query goes on with the numbers, at any depth. -/
theorem Builder.render_writes {registry : Registry} (hr : registry.HasBuiltins) {b : Builder}
    (h : b.UsesBuiltins) : Writes (b.render registry) b.renderedArgs Output.Has := by
  induction h with
  | segment h => exact Segment.render_writes hr h
  | query clauses _ _ ctes unions =>
      rw [Builder.render, Builder.renderedArgs, cteBodies_eq_map, bodies_eq_map, cteArgs_eq_map,
        unionArgs_eq_map]
      exact QueryOf.compose_writes hr clauses ctes unions

/-- **A statement is numbered from left to right and gains what its rendered parts declare.** In
indexed style each placeholder has a number that was written before or the next one, from one
above the arguments that the session holds up to the last that it gains. It gains the arguments
of the parts that are rendered, each once, and no others. -/
theorem renderWith_goesOn {registry : Registry} (hr : registry.HasBuiltins) {q : Query}
    {selects : Segment} (hclauses : ∀ seg ∈ q.shown q.froms selects, seg.UsesBuiltins)
    (hctes : ∀ cte ∈ q.ctes, cte.body.UsesBuiltins) (hunions : ∀ b ∈ q.unions, b.UsesBuiltins)
    {s s' : Session} {out : Output} (h : renderWith q registry selects s = .ok out s')
    (hstyle : s.style = some .indexed) :
    ∃ vs slots, s'.args = s.args ++ vs ∧ out.placeholders = slots.map (Prod.mk .indexed) ∧
      (∀ n ∈ slots, n ≤ s.args.length + vs.length) ∧ GoesOn s.args.length slots vs.length ∧
      vs.Perm (q.renderedArgs (Builder.cteArgs q.ctes) (Builder.unionArgs q.unions) selects) := by
  rw [renderWith, Builder.cteBodies_eq_map, Builder.bodies_eq_map] at h
  rw [Builder.cteArgs_eq_map, Builder.unionArgs_eq_map]
  have hwrites := QueryOf.compose_writes hr hclauses
    (fun cte hcte => Builder.render_writes hr (hctes cte hcte))
    (fun b hb => Builder.render_writes hr (hunions b hb))
  obtain ⟨_, rfl, _, vs, slots, hargs, hvs, hout, hslots⟩ := hwrites h hstyle
  exact ⟨vs, slots, hargs, hout, hslots.le, hslots, hvs⟩

/-- A query for a union. -/
def unionSample : Query :=
  (QueryOf.ofSettings {}).applyAll
    [.anchor ⟨"c", ""⟩, .select [Table.column ⟨"c", ""⟩ "id"],
      .compare (Table.column ⟨"c", ""⟩ "y") " > " (.int 7)]

/-- The join of `b` is left out and no table is the named query `spare`; their arguments are 2
and 4. -/
def goesOnSample : Query :=
  (QueryOf.ofSettings {}).applyAll
    [.cte "recent" (.segment { raw := "SELECT id FROM log WHERE at > $1", args := [.int 1] }),
      .cte "spare" (.segment { raw := "SELECT $1", args := [.int 2] }),
      .anchor ⟨"recent", "r"⟩,
      .join .left ⟨"a", ""⟩ (some { raw := "#c1=#c2 AND #c1 < $1", args := [.int 3], columns :=
        [Table.column ⟨"a", ""⟩ "id", Table.column ⟨"r", ""⟩ "id"] }) false,
      .join .left ⟨"b", ""⟩ (some { raw := "#c1 = $1", args := [.int 4], columns :=
        [Table.column ⟨"b", ""⟩ "id"] }) true,
      .select [Table.column ⟨"r", ""⟩ "id"],
      .testMember (Table.column ⟨"a", ""⟩ "x") [.int 5, .int 6] false,
      .union (.query unionSample), .union (.segment { raw := "SELECT $1 + $1", args := [.int 8] }),
      .distinct]

theorem needed_goesOnSample : goesOnSample.needed goesOnSample.selects = .ok ["a", "r"] := by
  cbv

theorem needed_unionSample : unionSample.needed unionSample.selects = .ok ["c"] := by
  cbv

theorem renderWith_goesOn_sample : ∃ out s' vs slots,
    renderWith goesOnSample .standard goesOnSample.selects
      { args := [.null], choice := .configured .indexed } = .ok out s' ∧
    out.text = "WITH recent AS (SELECT id FROM log WHERE at > $2) SELECT DISTINCT r.id " ++
      "FROM recent AS r LEFT JOIN a ON a.id=r.id AND a.id < $3 WHERE a.x IN ($4, $5) " ++
      "UNION (SELECT c.id FROM c WHERE c.y > $6) UNION (SELECT $7 + $7)" ∧
    s'.args = [.null] ++ vs ∧ out.placeholders = slots.map (Prod.mk .indexed) ∧
    GoesOn 1 slots vs.length ∧
    vs.Perm [.int 1, .int 3, .int 5, .int 6, .int 7, .int 8] := by
  obtain ⟨out, s', h, hcheck⟩ := exists_ok_of_check
    (x := renderWith goesOnSample .standard goesOnSample.selects)
    (s := { args := [.null], choice := .configured .indexed })
    (fun out _ => out.text == "WITH recent AS (SELECT id FROM log WHERE at > $2) " ++
      "SELECT DISTINCT r.id " ++
      "FROM recent AS r LEFT JOIN a ON a.id=r.id AND a.id < $3 WHERE a.x IN ($4, $5) " ++
      "UNION (SELECT c.id FROM c WHERE c.y > $6) UNION (SELECT $7 + $7)") (by
        have hbodies : Builder.bodies .standard goesOnSample.unions =
            [unionSample.compose .standard [] [] unionSample.selects,
              Segment.render .standard { raw := "SELECT $1 + $1", args := [.int 8] }] := rfl
        unfold renderWith
        rw [hbodies]
        unfold QueryOf.compose
        rw [needed_goesOnSample, needed_unionSample]
        decide +kernel)
  have hargs : goesOnSample.renderedArgs (Builder.cteArgs goesOnSample.ctes)
      (Builder.unionArgs goesOnSample.unions) goesOnSample.selects =
      [.int 1, .int 3, .int 5, .int 6, .int 7, .int 8] := by
    have hunions : Builder.unionArgs goesOnSample.unions =
        [unionSample.renderedArgs [] [] unionSample.selects, [.int 8]] := rfl
    rw [hunions, QueryOf.renderedArgs, QueryOf.renderedArgs, needed_goesOnSample,
      needed_unionSample]
    rfl
  have hbuiltins : ∀ seg : Segment, (seg.templates.all fun raw =>
      ((Template.parse raw).toOption.map (Template.Clause.checkBuiltins 1)).getD true) →
      (Builder.segment seg).UsesBuiltins :=
    fun _ hall => .segment (Segment.usesBuiltins_of_check 1 hall)
  have hclauses : ∀ seg ∈ goesOnSample.shown goesOnSample.froms goesOnSample.selects,
      seg.UsesBuiltins := Segment.usesBuiltins_of_checkAll 2 (by decide +kernel)
  obtain ⟨vs, slots, hgained, hout, _, hslots, hvs⟩ := renderWith_goesOn
    Registry.hasBuiltins_standard hclauses
    (List.forall_mem_cons.mpr ⟨hbuiltins _ (by decide +kernel),
      List.forall_mem_cons.mpr ⟨hbuiltins _ (by decide +kernel), nofun⟩⟩)
    (List.forall_mem_cons.mpr ⟨.query (Segment.usesBuiltins_of_checkAll 2 (by decide +kernel))
      nofun nofun, List.forall_mem_cons.mpr ⟨hbuiltins _ (by decide +kernel), nofun⟩⟩) h rfl
  exact ⟨out, s', vs, slots, h, eq_of_beq hcheck, hgained, hout, hslots, hargs ▸ hvs⟩

end Query

end SqlTemplate
