import Mathlib.Data.List.Dedup
import Mathlib.Data.List.Perm.Subperm
import SqlTemplate.Proofs.Simulation
import SqlTemplate.Registry.Recipe

/-!
# Conservation of arguments

No argument of a tree is lost, whatever functions its templates call, as long as
they do not go on after an error: a reference that failed may have appended
arguments, and may do so again. In indexed
style the arguments that a tree declares come into the session once each, in
positional style at least once. Two things work together for this: a template is
only built if it has referred to each declaration, and what the memo knows is
what has been referred to. The invariant counts the references that have been
made, each once, and says that the session has gained what they bring.
-/

namespace SqlTemplate

/-! ## What success keeps -/

/-- If the computation succeeds, `I` holds afterwards if it held before. -/
def Keeps {ε σ α : Type} (I : σ → Prop) (x : EStateM ε σ α) : Prop :=
  ∀ ⦃s s' : σ⦄ ⦃a : α⦄, x s = .ok a s' → I s → I s'

namespace Keeps

variable {ε σ α β : Type} {I : σ → Prop}

theorem pure (a : α) : Keeps I (pure a : EStateM ε σ α) := by
  intro s s' b h hI
  obtain ⟨_, rfl⟩ := pure_eq_ok.mp h
  exact hI

theorem throw (e : ε) : Keeps I (throw e : EStateM ε σ α) :=
  fun _ _ _ h => absurd h throw_ne_ok

theorem bind {x : EStateM ε σ α} {f : α → EStateM ε σ β} (hx : Keeps I x)
    (hf : ∀ a, Keeps I (f a)) : Keeps I (x >>= f) := by
  intro s s'' b h hI
  obtain ⟨a, s', h₁, h₂⟩ := bind_eq_ok.mp h
  exact hf a h₂ (hx h₁ hI)

theorem map {x : EStateM ε σ α} (g : α → β) (hx : Keeps I x) : Keeps I (g <$> x) := by
  intro s s' b h hI
  obtain ⟨a, h₁, _⟩ := map_eq_ok.mp h
  exact hx h₁ hI

theorem within {raw : String} {x : EStateM Error σ α} (hx : Keeps I x) :
    Keeps I (SqlTemplate.within raw x) :=
  fun _ _ _ h => hx (within_eq_ok.mp h)

end Keeps

namespace Render

open ScopeM

theorem ScopeM.style_keeps {I : Frame → Prop} : Keeps I ScopeM.style := by
  intro f f' st h hI
  obtain ⟨_, _, hget, h⟩ := bind_eq_ok.mp h
  cases hget
  obtain ⟨_, rfl⟩ := pure_eq_ok.mp h
  exact hI

/-- What every reference to a declaration keeps, every template keeps. A reference to an argument
in the style of the session is a placeholder of that style. -/
theorem Scope.closed_keeps {scope : Scope} {I : Frame → Prop}
    (hbind : ∀ marker index, Keeps I (scope.bind marker index))
    (hresolve : ∀ kind index, kind ≠ .arg → Keeps I (scope.resolve index kind)) :
    scope.Closed fun _ => Keeps I where
  pure := .pure
  throw := .throw
  map g _ := .map g
  bind := .bind
  within := .within
  style := style_keeps
  placeholder := hbind
  resolve kind index := by
    by_cases hkind : kind = .arg
    · subst hkind
      exact .bind style_keeps fun _ => hbind _ index
    · exact hresolve kind index hkind

end Render

/-! ## Accounts -/

/-- The values account for the declared ones. In indexed style they are the same but for their
order; in positional style there may be more of them. -/
def Style.Accounts : Style → List Value → List Value → Prop
  | .indexed, declared, vs => vs.Perm declared
  | .positional, declared, vs => declared.Subperm vs

namespace Style.Accounts

variable {st : Style} {ds ds' vs vs' : List Value}

theorem nil : st.Accounts [] [] := by
  cases st with
  | indexed => exact .nil
  | positional => exact .refl []

theorem append (h : st.Accounts ds vs) (h' : st.Accounts ds' vs') :
    st.Accounts (ds' ++ ds) (vs ++ vs') := by
  cases st with
  | indexed => exact (List.Perm.append h h').trans List.perm_append_comm
  | positional => exact (List.Subperm.append h' h).trans List.perm_append_comm.subperm

theorem of_perm (h : st.Accounts ds vs) (hperm : ds.Perm ds') : st.Accounts ds' vs := by
  cases st with
  | indexed => exact List.Perm.trans h hperm
  | positional => exact hperm.symm.subperm.trans h

end Style.Accounts

/-- Rendering in style `st` gains what accounts for the declared values. -/
def Gains (st : Style) (x : RenderM Output) (declared : List Value) : Prop :=
  ∀ ⦃s s' : Session⦄ ⦃out : Output⦄, x s = .ok out s' → s'.OpenTo st →
    ∃ vs, s'.args = s.args ++ vs ∧ st.Accounts declared vs

namespace Render

/-! ## What references bring in -/

theorem references_nodup (kind : DeclKind) (count : Nat) :
    (Scope.references kind count).Nodup := by
  refine List.Nodup.map ?_ List.nodup_range
  intro i j h
  simpa using h

theorem mem_references_iff {kind : DeclKind} {count : Nat} {r : Reference} :
    r ∈ Scope.references kind count ↔ r.kind = kind ∧ 0 < r.index ∧ r.index ≤ count := by
  obtain ⟨kind', index⟩ := r
  simp only [Scope.references, List.mem_map, List.mem_range, Reference.mk.injEq]
  constructor
  · rintro ⟨i, hi, rfl, rfl⟩
    exact ⟨rfl, by omega, by omega⟩
  · rintro ⟨rfl, hpos, hle⟩
    exact ⟨index - 1, by omega, rfl, by omega⟩

theorem declaration?_eq_none {α : Type} {xs : List α} {index : Nat}
    (h : ¬ (0 < index ∧ index ≤ xs.length)) : declaration? xs index = none := by
  unfold declaration?
  split
  · rfl
  · exact List.getElem?_eq_none (by omega)

/-- All references of a kind bring in what the declarations hold. -/
theorem flatMap_references {α β : Type} {kind : DeclKind} {xs : List α} {g : Reference → List β}
    {f : α → List β}
    (h : ∀ {index a}, declaration? xs index = some a → g ⟨kind, index⟩ = f a) :
    (Scope.references kind xs.length).flatMap g = xs.flatMap f := by
  have hmap : (Scope.references kind xs.length).map g = xs.map f := by
    refine List.ext_getElem (by simp [Scope.references]) ?_
    intro i hi _
    have hlt : i < xs.length := by simpa [Scope.references] using hi
    simp only [Scope.references, List.map_map, List.getElem_map, List.getElem_range,
      Function.comp_apply]
    exact h (by simp [declaration?, hlt])
  rw [List.flatMap_def, List.flatMap_def, hmap]

namespace Scope

/-- What a reference brings into a session, given what the columns and the segments hold. -/
def owned (scope : Scope) (columns segments : List (List Value)) : Reference → List Value
  | ⟨.arg, index⟩ => (declaration? scope.args index).toList
  | ⟨.column, index⟩ => (declaration? columns index).getD []
  | ⟨.table, _⟩ => []
  | ⟨.segment, index⟩ => (declaration? segments index).getD []

/-- The columns and segments of the scope gain what the lists say. -/
structure Owns (scope : Scope) (st : Style) (columns segments : List (List Value)) : Prop where
  columns_length : columns.length = scope.columns.length
  segments_length : segments.length = scope.segments.length
  column : ∀ {index c}, declaration? scope.columns index = some c →
    Gains st c.render ((declaration? columns index).getD [])
  segment : ∀ {index c}, declaration? scope.segments index = some c →
    Gains st c.render ((declaration? segments index).getD [])

theorem required_nodup (scope : Scope) : scope.required.Nodup := by
  have hdisjoint : ∀ {kind kind' : DeclKind} {m n : Nat}, kind ≠ kind' →
      List.Disjoint (references kind m) (references kind' n) := by
    intro kind kind' m n hne r hr hr'
    exact hne ((mem_references_iff.mp hr).1.symm.trans (mem_references_iff.mp hr').1)
  unfold required
  split <;> simp [List.nodup_append', references_nodup, hdisjoint]

/-- Only declarations that have to be referred to bring in anything. -/
theorem mem_required_of_owned {scope : Scope} {st : Style} {columns segments : List (List Value)}
    (h : scope.Owns st columns segments) {r : Reference}
    (hr : scope.owned columns segments r ≠ []) : r ∈ scope.required := by
  have hindex : ∀ {α : Type} {xs : List α} {index : Nat}, declaration? xs index ≠ none →
      0 < index ∧ index ≤ xs.length :=
    fun hne => not_imp_comm.mp declaration?_eq_none hne
  obtain ⟨kind, index⟩ := r
  rw [required, List.mem_append, List.mem_append, List.mem_append]
  cases kind with
  | arg =>
      refine .inl (.inl (.inl (mem_references_iff.mpr ⟨rfl, hindex ?_⟩)))
      intro hnone
      simp [owned, hnone] at hr
  | column =>
      refine .inl (.inl (.inr (mem_references_iff.mpr ⟨rfl, ?_⟩)))
      rw [← h.columns_length]
      refine hindex fun hnone => ?_
      simp [owned, hnone] at hr
  | table => exact absurd rfl hr
  | segment =>
      refine .inr (mem_references_iff.mpr ⟨rfl, ?_⟩)
      rw [← h.segments_length]
      refine hindex fun hnone => ?_
      simp [owned, hnone] at hr

/-- All that has to be referred to brings in everything. -/
theorem required_flatMap_owned {scope : Scope} {st : Style} {columns segments : List (List Value)}
    (h : scope.Owns st columns segments) :
    scope.required.flatMap (scope.owned columns segments) =
      scope.args ++ columns.flatten ++ segments.flatten := by
  have hargs : (references .arg scope.args.length).flatMap (scope.owned columns segments) =
      scope.args.flatMap fun v => [v] :=
    flatMap_references fun hv => by simp [owned, hv]
  have hcolumns : (references .column columns.length).flatMap (scope.owned columns segments) =
      columns.flatMap id :=
    flatMap_references fun hc => by simp [owned, hc]
  have hsegments : (references .segment segments.length).flatMap (scope.owned columns segments) =
      segments.flatMap id :=
    flatMap_references fun hs => by simp [owned, hs]
  have htables : (if scope.tablesOptional then [] else
      references .table scope.tables.length).flatMap (scope.owned columns segments) = [] := by
    rw [List.flatMap_eq_nil_iff]
    intro r hr
    split at hr
    · cases hr
    · obtain ⟨kind, index⟩ := r
      obtain rfl : kind = .table := (mem_references_iff.mp hr).1
      rfl
  rw [required, List.flatMap_append, List.flatMap_append, List.flatMap_append, hargs, htables,
    ← h.columns_length, ← h.segments_length, hcolumns, hsegments, List.append_nil]
  simp

end Scope

/-- What references bring in does not depend on those that bring in nothing, nor on how often
one is made. -/
theorem flatMap_dedup_perm {α β : Type} [DecidableEq α] {g : α → List β} {used required : List α}
    (hnodup : required.Nodup) (hsub : required ⊆ used)
    (hrest : ∀ r ∈ used, g r ≠ [] → r ∈ required) :
    (used.dedup.flatMap g).Perm (required.flatMap g) := by
  -- What was used is what had to be, and references that bring in nothing.
  have hsplit := List.filter_append_perm (· ∈ required) used.dedup
  have hkept : (used.dedup.filter (· ∈ required)).Perm required := by
    rw [List.perm_ext_iff_of_nodup ((List.nodup_dedup used).filter _) hnodup]
    intro r
    simp only [List.mem_filter, List.mem_dedup, decide_eq_true_eq]
    exact ⟨fun hr => hr.2, fun hr => ⟨hsub hr, hr⟩⟩
  have hdropped : (used.dedup.filter fun r => !decide (r ∈ required)).flatMap g = [] := by
    rw [List.flatMap_eq_nil_iff]
    intro r hr
    simp only [List.mem_filter, List.mem_dedup, Bool.not_eq_true', decide_eq_false_iff_not] at hr
    by_contra hne
    exact hr.2 (hrest r hr.1 hne)
  have hall := (hsplit.symm.flatMap_right g)
  rw [List.flatMap_append, hdropped, List.append_nil] at hall
  exact hall.trans (hkept.flatMap_right g)

/-! ## The invariant -/

theorem isSome_lookup_cons {α β : Type} [BEq α] [LawfulBEq α] {a a' : α} {b : β}
    {l : List (α × β)} :
    (((a, b) :: l).lookup a').isSome ↔ a' = a ∨ (l.lookup a').isSome := by
  rw [List.lookup_cons]
  by_cases h : a' = a
  · simp [h]
  · rw [beq_false_of_ne h]
    simp only [h, false_or]

/-- The frame of a template that began with the arguments `base`: what the memo knows has been
referred to, and the session has gained what the references bring in. -/
structure Tally (st : Style) (owned : Reference → List Value) (base : List Value) (f : Frame) :
    Prop where
  args : ∃ vs, f.session.args = base ++ vs ∧ st.Accounts (f.memo.used.dedup.flatMap owned) vs
  slots : st = .indexed → ∀ index,
    ⟨.arg, index⟩ ∈ f.memo.used ↔ (f.memo.slots.lookup index).isSome
  texts : ∀ r : Reference, r.kind = .column ∨ r.kind = .segment →
    (r ∈ f.memo.used ↔ (f.memo.texts.lookup r).isSome)

namespace Tally

variable {st : Style} {owned : Reference → List Value} {base : List Value} {f : Frame}

theorem start (s : Session) : Tally st owned s.args { session := s } where
  args := ⟨[], by simp, .nil⟩
  slots _ _ := by simp
  texts _ _ := by simp

/-- A reference adds what it brings in, unless it was made before. -/
theorem refer (h : Tally st owned base f) {r : Reference} {vs : List Value} {f' : Frame}
    (hused : f'.memo.used = r :: f.memo.used) (hargs : f'.session.args = f.session.args ++ vs)
    (hvs : st.Accounts (if r ∈ f.memo.used then [] else owned r) vs)
    (hslots : st = .indexed → ∀ index, (f'.memo.slots.lookup index).isSome ↔
      ⟨.arg, index⟩ = r ∨ (f.memo.slots.lookup index).isSome)
    (htexts : ∀ r' : Reference, r'.kind = .column ∨ r'.kind = .segment →
      ((f'.memo.texts.lookup r').isSome ↔ r' = r ∨ (f.memo.texts.lookup r').isSome)) :
    Tally st owned base f' where
  args := by
    obtain ⟨ws, hbase, hws⟩ := h.args
    refine ⟨ws ++ vs, by rw [hargs, hbase, List.append_assoc], ?_⟩
    have hall := hws.append hvs
    -- Without repetitions the list of what was used grows only by a first reference.
    by_cases hr : r ∈ f.memo.used
    · rw [hused, List.dedup_cons_of_mem hr]
      simpa [hr] using hall
    · rw [hused, List.dedup_cons_of_notMem hr, List.flatMap_cons]
      simpa [hr] using hall
  slots hst index := by rw [hused, List.mem_cons, hslots hst, h.slots hst]
  texts r' hkind := by rw [hused, List.mem_cons, htexts r' hkind, h.texts r' hkind]

/-- A reference for which nothing is done but to take note of it. -/
theorem again (h : Tally st owned base f) {r : Reference} {f' : Frame}
    (hr : r ∈ f.memo.used ∨ r.kind = .table ∧ owned r = [])
    (hused : f'.memo.used = r :: f.memo.used) (hargs : f'.session.args = f.session.args)
    (hslots : f'.memo.slots = f.memo.slots) (htexts : f'.memo.texts = f.memo.texts) :
    Tally st owned base f' := by
  refine h.refer hused (hargs.trans (List.append_nil _).symm) ?_ ?_ ?_
  · rcases hr with hr | ⟨_, hnothing⟩
    · rw [if_pos hr]
      exact .nil
    · rw [hnothing, ite_self]
      exact .nil
  · intro hst index
    rw [hslots, iff_or_self]
    rintro rfl
    rcases hr with hr | ⟨hkind, _⟩
    · exact (h.slots hst index).mp hr
    · cases hkind
  · intro r' hkind
    rw [htexts, iff_or_self]
    rintro rfl
    rcases hr with hr | ⟨htable, _⟩
    · exact (h.texts r' hkind).mp hr
    · simp [htable] at hkind

/-- A placeholder appends its argument, in indexed style only the first time. -/
theorem bind {scope : Scope} {columns segments : List (List Value)}
    (h : Tally st (scope.owned columns segments) base f) {marker : Style} {index : Nat}
    {out : Output} {f' : Frame} (hrun : scope.bind marker index f = .ok out f')
    (ho : f'.session.OpenTo st) : Tally st (scope.owned columns segments) base f' := by
  obtain ⟨st', choice, v, hobs, hv, n, _, hcase⟩ := Scope.bind_ok hrun
  have hstyle := StyleChoice.style_of_observe hobs
  have howned : scope.owned columns segments ⟨.arg, index⟩ = [v] := by simp [Scope.owned, hv]
  have htexts : ∀ r' : Reference, r'.kind = .column ∨ r'.kind = .segment →
      ((f.memo.texts.lookup r').isSome ↔
        r' = ⟨.arg, index⟩ ∨ (f.memo.texts.lookup r').isSome) := by
    intro r' hkind
    rw [iff_or_self]
    rintro rfl
    simp at hkind
  cases st' with
  | indexed =>
      rcases ScopeM.slot_ok hcase with ⟨hl, rfl⟩ | ⟨hl, _, rfl⟩
      · obtain rfl : Style.indexed = st := ho _ hstyle
        rw [Frame.refer_slots] at hl
        exact h.again (.inl ((h.slots rfl index).mpr (by simp [hl]))) rfl rfl rfl rfl
      · obtain rfl : Style.indexed = st := ho _ hstyle
        rw [Frame.refer_slots] at hl
        -- An argument without a slot has not been referred to, so its value is new.
        have hnew : ⟨.arg, index⟩ ∉ f.memo.used := by simp [h.slots rfl index, hl]
        refine h.refer rfl rfl ?_ ?_ htexts
        · rw [if_neg hnew, howned]
          exact List.Perm.refl [v]
        · intro _ index'
          rw [isSome_lookup_cons]
          simp
  | positional =>
      obtain ⟨_, rfl⟩ := hcase
      obtain rfl : Style.positional = st := ho _ hstyle
      refine h.refer rfl rfl ?_ nofun htexts
      split
      · exact List.nil_subperm
      · rw [howned]
        exact List.Subperm.refl [v]

/-- A child is rendered at the first reference to it, and in positional style maybe again. -/
theorem child {children : List Child} {kind : DeclKind} (hkind : kind = .column ∨ kind = .segment)
    (hgains : ∀ {index c}, declaration? children index = some c →
      Gains st c.render (owned ⟨kind, index⟩))
    (h : Tally st owned base f) {index : Nat} {out : Output} {f' : Frame}
    (hrun : Scope.child kind children index f = .ok out f') (hbefore : f.session.OpenTo st)
    (ho : f'.session.OpenTo st) : Tally st owned base f' := by
  obtain ⟨c, hc, ⟨hl, _, rfl⟩ | ⟨hagain, s', hrender, rfl⟩⟩ := Scope.child_ok hrun
  · exact h.again (.inl ((h.texts _ hkind).mpr (by simp [hl]))) rfl rfl rfl rfl
  · obtain ⟨vs, hargs, hvs⟩ := hgains hc hrender ho
    refine h.refer (r := ⟨kind, index⟩) rfl hargs ?_ ?_ ?_
    · split
      · rename_i hr
        -- What was referred to has a text, so only the style can be the reason to render.
        have hknown := (h.texts _ hkind).mp hr
        rcases hagain with ⟨hpositional, _⟩ | hnone
        · obtain rfl : Style.positional = st := hbefore _ hpositional
          exact List.nil_subperm
        · simp [hnone] at hknown
      · exact hvs
    · intro _ index'
      rw [Frame.refer_slots, iff_or_self]
      intro heq
      simp only [Reference.mk.injEq] at heq
      simp [← heq.1] at hkind
    · exact fun r' _ => isSome_lookup_cons

end Tally

/-- **Every reference keeps the tally**, as long as no placeholder settles another style. -/
theorem Scope.closed_tally {scope : Scope} (hchildren : scope.ChildrenMove Session.Extends)
    {st : Style} {columns segments : List (List Value)} (h : scope.Owns st columns segments)
    (base : List Value) :
    scope.Closed fun _ => Keeps fun f =>
      f.session.OpenTo st → Tally st (scope.owned columns segments) base f := by
  refine Scope.closed_keeps ?_ ?_
  · intro marker index f f' out hrun htally ho
    have hext := (Scope.bind_moves Session.admits_extends scope marker index).ok hrun
    exact (htally (ho.before hext)).bind hrun ho
  · intro kind index hkind f f' out hrun htally ho
    have hext := (Scope.resolve_moves Session.admits_extends hchildren index kind).ok hrun
    have hbefore : f.session.OpenTo st := ho.before hext
    cases kind with
    | arg => exact absurd rfl hkind
    | column => exact (htally hbefore).child (.inl rfl) h.column hrun hbefore ho
    | table =>
        obtain ⟨t, _, _, rfl⟩ := Scope.table_ok hrun
        exact (htally hbefore).again (.inr ⟨rfl, rfl⟩) rfl rfl rfl rfl
    | segment => exact (htally hbefore).child (.inr rfl) h.segment hrun hbefore ho

/-! ## Templates and trees -/

theorem Scope.checkUse_ok {scope : Scope} {used : List Reference}
    (h : scope.checkUse used = .ok ()) : scope.required ⊆ used := by
  unfold checkUse at h
  split at h
  · cases h
  · rename_i hnone
    intro r hr
    simpa using List.find?_eq_none.mp hnone r hr

/-- A template gains what its declarations hold. -/
theorem Scope.render_gains {scope : Scope} (hchildren : scope.ChildrenMove Session.Extends)
    {st : Style} {columns segments : List (List Value)} (h : scope.Owns st columns segments)
    {registry : Registry} (hr : registry.All Action.Propagates) :
    Gains st (scope.render registry) (scope.args ++ columns.flatten ++ segments.flatten) := by
  intro s s' out hrun ho
  obtain ⟨c, memo, _, heval, huse⟩ := Scope.render_ok hrun
  have hclosed := scope.closed_tally hchildren h s.args
  have hkeeps := hclosed.evaluate
    (fun _ _ hf args => hclosed.follow_of_propagates (hr.action hf args)) c
  have htally : Tally st (scope.owned columns segments) s.args ⟨s', memo⟩ :=
    hkeeps heval (fun _ => .start s) ho
  obtain ⟨vs, hargs, hvs⟩ := htally.args
  refine ⟨vs, hargs, hvs.of_perm ?_⟩
  rw [← Scope.required_flatMap_owned h]
  exact flatMap_dedup_perm scope.required_nodup (Scope.checkUse_ok huse)
    fun r _ hr => Scope.mem_required_of_owned h hr

end Render

open Render

theorem Column.render_gains {registry : Registry} (hr : registry.All Action.Propagates)
    (st : Style) (c : Column) : Gains st (c.render registry) c.args := by
  intro s s' out hrun ho
  obtain ⟨body, hbody, _⟩ := map_eq_ok.mp hrun
  have howns : c.scope.Owns st [] [] :=
    { columns_length := rfl, segments_length := rfl,
      column := fun hc => absurd (mem_of_declaration? hc) List.not_mem_nil,
      segment := fun hc => absurd (mem_of_declaration? hc) List.not_mem_nil }
  obtain ⟨vs, hargs, hvs⟩ := Scope.render_gains c.childrenMove howns hr hbody ho
  exact ⟨vs, hargs, by simpa [scope] using hvs⟩

namespace Segment

/-- The arguments that a segment, its columns and its descendants declare. -/
def allArgs (s : Segment) : List Value :=
  s.subtree.flatMap fun t => t.args ++ t.columns.flatMap Column.args

theorem allArgs_eq (s : Segment) :
    s.allArgs = s.args ++ s.columns.flatMap Column.args ++ s.segments.flatMap allArgs := by
  unfold allArgs
  rw [subtree_eq, List.flatMap_cons, List.flatMap_assoc]

/-- **A tree gains the arguments that it declares**, at every session and with any functions that
pass errors on. -/
theorem render_gains {registry : Registry} (hr : registry.All Action.Propagates) (st : Style)
    (s : Segment) : Gains st (s.render registry) s.allArgs := by
  induction s using Segment.induction with
  | step s ih =>
      intro s₀ s' out hrun ho
      rw [render_eq] at hrun
      obtain ⟨body, hbody, _⟩ := map_eq_ok.mp hrun
      have howns : (s.scope registry).Owns st (s.columns.map Column.args)
          (s.segments.map allArgs) := by
        refine ⟨by simp [scope], by simp [scope], ?_, ?_⟩
        · intro index child hchild
          obtain ⟨c, hc, rfl⟩ := Option.map_eq_some_iff.mp (declaration?_map _ _ _ ▸ hchild)
          rw [declaration?_map, hc]
          exact c.render_gains hr st
        · intro index child hchild
          obtain ⟨c, hc, rfl⟩ := Option.map_eq_some_iff.mp (declaration?_map _ _ _ ▸ hchild)
          rw [declaration?_map, hc]
          exact ih c (mem_of_declaration? hc)
      obtain ⟨vs, hargs, hvs⟩ := Scope.render_gains
        (s.childrenMove Session.admits_extends registry) howns hr hbody ho
      rw [← List.flatMap_def, ← List.flatMap_def] at hvs
      rw [allArgs_eq]
      exact ⟨vs, hargs, hvs⟩

/-- **No argument is lost or duplicated.** A build in indexed style appends a permutation of the
arguments declared in the tree; a build in positional style appends each of them at least once. -/
theorem render_conserves {registry : Registry} (hr : registry.All Action.Propagates)
    {seg : Segment} {s s' : Session} {out : Output} (h : seg.render registry s = .ok out s') :
    ∃ vs, s'.args = s.args ++ vs ∧
      (s'.style = some .indexed → vs.Perm seg.allArgs) ∧
      (s'.style = some .positional → seg.allArgs.Subperm vs) := by
  have hopen : ∀ st, s'.style = some st → s'.OpenTo st :=
    fun st hst _ hst' => Option.some.inj (hst'.symm.trans hst)
  obtain ⟨vs, hvs⟩ := (render_extends h).args
  have haccounts : ∀ st, s'.style = some st → st.Accounts seg.allArgs vs := by
    intro st hst
    obtain ⟨vs', hvs', haccounts⟩ := seg.render_gains hr st h (hopen st hst)
    rwa [List.append_cancel_left (hvs.trans hvs')]
  exact ⟨vs, hvs.symm, haccounts .indexed, haccounts .positional⟩

/-- A custom function that refers to two columns and to a segment. -/
def pairSample : Recipe :=
  [.resolve .column (.given 0), .literal " = ", .resolve .column (.fixed 1), .literal " OR ",
    .resolve .segment (.given 0)]

/-- The child is referred to by the custom function alone, its first column in a join too. -/
def conservationSample : Segment where
  raw := "#pair('1') AND $2 IN (#join('#c', ', ')) AND $1"
  args := [.int 1, .int 2]
  columns := [⟨⟨"t", ""⟩, "#t1.x + $1", [.int 5]⟩, ⟨⟨"t", ""⟩, "#t1.y", []⟩]
  segments := [{ raw := "#s1", segments := [{ raw := "$1 = $1", args := [.int 7] }] }]

theorem render_conserves_sample : ∃ registry,
    Registry.ofRecipes [("pair", pairSample)] = .ok registry ∧
    (∃ out s' vs, conservationSample.render registry { args := [.null] } = .ok out s' ∧
      out.text = "t.x + $2 = t.x + $2 OR $3 = $3 AND $4 IN (t.x + $2, t.y) AND $5" ∧
      s'.args = [.null] ++ vs ∧ vs.Perm conservationSample.allArgs) ∧
    ∃ out s' vs, conservationSample.render registry
        { args := [.null], choice := .configured .positional } = .ok out s' ∧
      out.text = "t.x + ? = t.x + ? OR ? = ? AND ? IN (t.x + ?, t.y) AND ?" ∧
      s'.args = [.null] ++ vs ∧ conservationSample.allArgs.Subperm vs := by
  have hr : Registry.All Action.Propagates
      ⟨Registry.insert "pair" (.custom pairSample.toFunction) Function.builtins⟩ :=
    .register .standard (fun args => pairSample.propagates_run args []) (if_pos (by decide))
  refine ⟨⟨Registry.insert "pair" (.custom pairSample.toFunction) Function.builtins⟩, rfl, ?_, ?_⟩
  · obtain ⟨out, s', h, hcheck⟩ := exists_ok_of_check
      (x := conservationSample.render
        ⟨Registry.insert "pair" (.custom pairSample.toFunction) Function.builtins⟩)
      (s := { args := [.null] })
      (fun out s' => decide (out.text =
        "t.x + $2 = t.x + $2 OR $3 = $3 AND $4 IN (t.x + $2, t.y) AND $5" ∧
        s'.style = some .indexed)) (by decide +kernel)
    obtain ⟨htext, hstyle⟩ := of_decide_eq_true hcheck
    obtain ⟨vs, hargs, hindexed, _⟩ := render_conserves hr h
    exact ⟨out, s', vs, h, htext, hargs, hindexed hstyle⟩
  · obtain ⟨out, s', h, hcheck⟩ := exists_ok_of_check
      (x := conservationSample.render
        ⟨Registry.insert "pair" (.custom pairSample.toFunction) Function.builtins⟩)
      (s := { args := [.null], choice := .configured .positional })
      (fun out s' => decide (out.text =
        "t.x + ? = t.x + ? OR ? = ? AND ? IN (t.x + ?, t.y) AND ?" ∧
        s'.style = some .positional)) (by decide +kernel)
    obtain ⟨htext, hstyle⟩ := of_decide_eq_true hcheck
    obtain ⟨vs, hargs, _, hpositional⟩ := render_conserves hr h
    exact ⟨out, s', vs, h, htext, hargs, hpositional hstyle⟩

end Segment

end SqlTemplate
