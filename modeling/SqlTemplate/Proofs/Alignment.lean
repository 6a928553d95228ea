import SqlTemplate.Proofs.Simulation

/-!
# Alignment

In positional style each `?` of a text takes the next argument of the session,
so the two have to come in step. A reference appends what it refers to each time
it is made, with one exception: a child without arguments of its own is rendered
once, and a second reference repeats its text and appends nothing. The invariant
says what the references so far have appended, and that a text of the memo shows
the expansion. Only while the style is open may a child with arguments have a
text that is used again; it has bound none of them then.
-/

namespace SqlTemplate

open Render

/-- The sites whose arguments the references append, after those of `seen`. What `reuses`
holds of is rendered once. -/
def emitted (reuses : Reference → Bool) (emits : Reference → List Site) :
    List Reference → List Reference → List Site
  | _, [] => []
  | seen, r :: rest =>
    (if reuses r ∧ r ∈ seen then [] else emits r) ++ emitted reuses emits (r :: seen) rest

namespace Segment

/-- The reference is to a segment without arguments of its own. -/
def reuses (s : Segment) : Reference → Bool
  | ⟨.segment, index⟩ => (declaration? s.segments index).any fun child => child.args.isEmpty
  | _ => false

/-- What a reference appends when it is rendered, given what the segments do. -/
def emits (s : Segment) (segments : List (List Site)) : Reference → List Site
  | ⟨.segment, index⟩ =>
    ((declaration? segments index).getD []).map (Site.under ⟨.segment, index⟩)
  | r => sitesAt s.refer r

mutual

/-- The sites whose arguments a segment appends in positional style. -/
def appended : Segment → List Site
  | ⟨raw, args, columns, tables, segments, lead, trail⟩ =>
    let s : Segment := ⟨raw, args, columns, tables, segments, lead, trail⟩
    emitted s.reuses (s.emits (appendedEach segments)) [] s.references

def appendedEach : List Segment → List (List Site)
  | [] => []
  | s :: rest => s.appended :: appendedEach rest

end

theorem appendedEach_eq_map (segments : List Segment) :
    appendedEach segments = segments.map appended := by
  induction segments with
  | nil => rfl
  | cons s rest ih => rw [appendedEach, ih, List.map_cons]

theorem appended_eq (s : Segment) :
    s.appended = emitted s.reuses (s.emits (s.segments.map appended)) [] s.references := by
  obtain ⟨raw, args, columns, tables, segments, lead, trail⟩ := s
  rw [appended, appendedEach_eq_map]

end Segment

section Emitted

variable {reuses : Reference → Bool} {emits : Reference → List Site}

/-- A last reference appends unless it was made before. -/
theorem emitted_concat (seen refs : List Reference) (r : Reference) :
    emitted reuses emits seen (refs ++ [r]) = emitted reuses emits seen refs ++
      if reuses r ∧ (r ∈ seen ∨ r ∈ refs) then [] else emits r := by
  induction refs generalizing seen with
  | nil => simp [emitted]
  | cons r' rest ih =>
      have hseen : (r ∈ r' :: seen ∨ r ∈ rest) ↔ (r ∈ seen ∨ r ∈ r' :: rest) := by
        rw [List.mem_cons, List.mem_cons, or_left_comm, or_assoc]
      simp only [List.cons_append, emitted, ih, List.append_assoc, hseen]

theorem emitted_eq_nil {refs : List Reference} (h : ∀ r ∈ refs, emits r = [])
    (seen : List Reference) : emitted reuses emits seen refs = [] := by
  induction refs generalizing seen with
  | nil => rfl
  | cons r rest ih =>
      rw [emitted, ih (fun r' hr' => h r' (List.mem_cons_of_mem _ hr')), List.append_nil,
        h r (List.mem_cons_self ..), ite_self]

theorem emitted_of_not_reuses (h : ∀ r, reuses r = false) (seen refs : List Reference) :
    emitted reuses emits seen refs = refs.flatMap emits := by
  induction refs generalizing seen with
  | nil => rfl
  | cons r rest ih =>
      rw [emitted, ih, List.flatMap_cons, if_neg (by simp [h r])]

end Emitted

/-! ## The invariant -/

/-- What a rendering does in positional style: its output shows the expansion, and the session
gains the values of the sites in their order. A style that is still open has seen no site. -/
def Emits (x : RenderM Output) (e? : Option Expansion) (sites : List Site)
    (value : Site → Option Value) : Prop :=
  ∀ ⦃s s' : Session⦄ ⦃out : Output⦄, x s = .ok out s' → s'.OpenTo .positional →
    ∃ e vs, e? = some e ∧ out.Shows Positional e ∧ s'.args = s.args ++ vs ∧
      vs.map some = sites.map value ∧ (s'.style = none → sites = [])

/-- The same of a child: it emits the sites below the reference to it. If it has arguments it is
not reused, and if it has none there is nothing to append where it is not. -/
structure EmitsAt (reuses : Reference → Bool) (emits : Reference → List Site)
    (value : Site → Option Value) (r : Reference) (c : Child) (e? : Option Expansion) : Prop where
  render : ∃ sites, emits r = sites.map (Site.under r) ∧
    Emits c.render e? sites fun site => value (site.under r)
  owns : c.hasArgs = true → reuses r = false
  shares : c.hasArgs = false → reuses r = true ∨ emits r = []

/-- References to anything but a segment append each time what is below them. -/
def EmitsSites (refer : Reference → Option Expansion) (reuses : Reference → Bool)
    (emits : Reference → List Site) : Prop :=
  ∀ {r : Reference}, r.kind ≠ .segment → reuses r = false ∧ emits r = sitesAt refer r

/-- The frame after the references `refs`, when the template began with the arguments
`base`. -/
structure Emission (refer : Reference → Option Expansion) (reuses : Reference → Bool)
    (emits : Reference → List Site) (value : Site → Option Value) (base : List Value)
    (refs : List Reference) (f : Frame) : Prop where
  args : ∃ vs, f.session.args = base ++ vs ∧
    vs.map some = (emitted reuses emits [] refs).map value
  text : ∀ {r out}, f.memo.texts.lookup r = some out →
    r ∈ refs ∧ ∃ e, refer r = some e ∧ out.Shows Positional e
  no_text : ∀ {r}, f.memo.texts.lookup r = none → reuses r = true → r ∉ refs
  unsettled : f.session.style = none → ∀ r ∈ refs, emits r = []

namespace Emission

variable {refer : Reference → Option Expansion} {reuses : Reference → Bool}
  {emits : Reference → List Site} {value : Site → Option Value} {base : List Value}
  {refs : List Reference} {f : Frame}

theorem start (base : List Value) (s : Session) (h : s.args = base) :
    Emission refer reuses emits value base [] { session := s } where
  args := ⟨[], by rw [h, List.append_nil], rfl⟩
  text h := by cases h
  no_text _ _ := by simp
  unsettled _ r hr := by cases hr

/-- A reference that appends nothing, although it leads to sites or because it does not. -/
theorem again (h : Emission refer reuses emits value base refs f) {r : Reference}
    (hnothing : (reuses r ∧ r ∈ refs) ∨ emits r = [])
    (hunsettled : f.session.style = none → emits r = []) (hmemo : reuses r = true → r ∈ refs) :
    Emission refer reuses emits value base (refs ++ [r]) (f.refer r) where
  args := by
    obtain ⟨vs, hargs, hvs⟩ := h.args
    refine ⟨vs, hargs, ?_⟩
    have hlast : (if reuses r ∧ (r ∈ [] ∨ r ∈ refs) then [] else emits r) = [] := by
      rcases hnothing with ⟨hr, hmem⟩ | hr
      · rw [if_pos ⟨hr, .inr hmem⟩]
      · rw [hr, ite_self]
    rw [emitted_concat, hlast, List.append_nil, hvs]
  text hl := by
    obtain ⟨hmem, hshows⟩ := h.text hl
    exact ⟨List.mem_append_left _ hmem, hshows⟩
  no_text hl hr hmem := by
    rcases List.mem_append.mp hmem with hmem | hlast
    · exact h.no_text hl hr hmem
    · rw [List.mem_singleton.mp hlast] at hl hr
      exact h.no_text hl hr (hmemo hr)
  unsettled hst r' hr' := by
    rcases List.mem_append.mp hr' with hmem | hlast
    · exact h.unsettled hst r' hmem
    · rw [List.mem_singleton.mp hlast]
      exact hunsettled hst

/-- A positional placeholder appends its argument. -/
theorem newArgument (h : Emission refer reuses emits value base refs f) {r : Reference}
    {v : Value} (hr : reuses r = false) (hv : [some v] = (emits r).map value) {f' : Frame}
    (hargs : f'.session.args = f.session.args ++ [v]) (htexts : f'.memo.texts = f.memo.texts)
    (hstyle : f'.session.style = some .positional) :
    Emission refer reuses emits value base (refs ++ [r]) f' where
  args := by
    obtain ⟨vs, hbase, hvs⟩ := h.args
    refine ⟨vs ++ [v], by rw [hargs, hbase, List.append_assoc], ?_⟩
    rw [emitted_concat, if_neg (by simp [hr]), List.map_append, List.map_append, hvs,
      List.map_singleton, hv]
  text hl := by
    obtain ⟨hmem, hshows⟩ := h.text (htexts ▸ hl)
    exact ⟨List.mem_append_left _ hmem, hshows⟩
  no_text hl hr' hmem := by
    rcases List.mem_append.mp hmem with hmem | hlast
    · exact h.no_text (htexts ▸ hl) hr' hmem
    · rw [List.mem_singleton.mp hlast, hr] at hr'
      cases hr'
  unsettled hst := by
    rw [hstyle] at hst
    cases hst

/-- A child that is rendered appends what it emits. -/
theorem newText (h : Emission refer reuses emits value base refs f) {r : Reference}
    {e : Expansion} {out : Output} {vs : List Value} (he : refer r = some e)
    (hnew : reuses r = true → r ∉ refs) (hshows : out.Shows Positional e)
    (hvs : vs.map some = (emits r).map value) {f' : Frame}
    (hargs : f'.session.args = f.session.args ++ vs)
    (htexts : f'.memo.texts = (r, out) :: f.memo.texts)
    (hstyle : f'.session.style = none → f.session.style = none ∧ emits r = []) :
    Emission refer reuses emits value base (refs ++ [r]) f' where
  args := by
    obtain ⟨ws, hbase, hws⟩ := h.args
    refine ⟨ws ++ vs, by rw [hargs, hbase, List.append_assoc], ?_⟩
    have hlast : ¬ (reuses r = true ∧ (r ∈ [] ∨ r ∈ refs)) := by
      rintro ⟨hr, hnil | hmem⟩
      · cases hnil
      · exact hnew hr hmem
    rw [emitted_concat, if_neg hlast, List.map_append, List.map_append, hws, hvs]
  text {r' out'} hl := by
    rw [htexts, List.lookup_cons] at hl
    split at hl
    · rename_i hr'
      cases hl
      rw [eq_of_beq hr']
      exact ⟨by simp, e, he, hshows⟩
    · obtain ⟨hmem, hshows'⟩ := h.text hl
      exact ⟨List.mem_append_left _ hmem, hshows'⟩
  no_text {r'} hl hr hmem := by
    rw [htexts, List.lookup_cons] at hl
    split at hl
    · cases hl
    · rename_i hne
      rcases List.mem_append.mp hmem with hmem | hlast
      · exact h.no_text hl hr hmem
      · rw [List.mem_singleton.mp hlast, beq_self_eq_true] at hne
        cases hne
  unsettled hst r' hr' := by
    obtain ⟨hbefore, hr⟩ := hstyle hst
    rcases List.mem_append.mp hr' with hmem | hlast
    · exact h.unsettled hbefore r' hmem
    · rwa [List.mem_singleton.mp hlast]

/-- An argument in positional style shows its site and appends its value. -/
theorem bind {scope : Scope} (hargs : ∀ index, value ⟨[], index⟩ = declaration? scope.args index)
    (hrefer : ∀ {index v}, declaration? scope.args index = some v →
      refer ⟨.arg, index⟩ = some [.argument ⟨[], index⟩])
    (hemits : EmitsSites refer reuses emits)
    (h : Emission refer reuses emits value base refs f) {marker : Style} {index : Nat}
    {out : Output} {f' : Frame} (hrun : scope.bind marker index f = .ok out f')
    (ho : f'.session.OpenTo .positional) :
    ∃ e, refer ⟨.arg, index⟩ = some e ∧
      Emission refer reuses emits value base (refs ++ [⟨.arg, index⟩]) f' ∧
      out.Shows Positional e := by
  obtain ⟨st, choice, v, hobs, hv, n, rfl, hcase⟩ := Scope.bind_ok hrun
  have hstyle := StyleChoice.style_of_observe hobs
  have he := hrefer hv
  obtain ⟨hreuses, hsites⟩ := hemits (r := ⟨.arg, index⟩) (by simp)
  cases st with
  | indexed =>
      -- The placeholder would have settled the session in the wrong style.
      have hstyle' : f'.session.style = some .indexed := by
        rcases ScopeM.slot_ok hcase with ⟨_, rfl⟩ | ⟨_, _, rfl⟩ <;> exact hstyle
      cases ho .indexed hstyle'
  | positional =>
      obtain ⟨_, rfl⟩ := hcase
      refine ⟨_, he, h.newArgument hreuses ?_ rfl rfl hstyle, .cons (.placeholder rfl) .nil⟩
      rw [hsites, sitesAt, he]
      exact congrArg (fun v => [v]) ((hargs index).trans hv).symm

/-- Any other reference in positional style shows what is declared, and appends what that
emits unless its text is reused. -/
theorem resolve {scope : Scope} (hchildren : scope.ChildrenMove Session.Extends)
    (hemits : EmitsSites refer reuses emits)
    (hrefers : scope.Refers refer (EmitsAt reuses emits value))
    (h : Emission refer reuses emits value base refs f) {kind : DeclKind} {index : Nat}
    {out : Output} {f' : Frame} (hkind : kind ≠ .arg)
    (hrun : scope.resolve index kind f = .ok out f') (ho : f'.session.OpenTo .positional) :
    ∃ e, refer ⟨kind, index⟩ = some e ∧
      Emission refer reuses emits value base (refs ++ [⟨kind, index⟩]) f' ∧
      out.Shows Positional e := by
  have hext := (Scope.resolve_moves Session.admits_extends hchildren index kind).ok hrun
  rcases hrefers.resolve_cases hkind hrun with
    ⟨name, rfl, hrefer, rfl, rfl⟩ | ⟨c, e?, _, hrefer, ⟨hrender, howns, hshares⟩, hcase⟩
  · obtain ⟨hreuses, hnothing⟩ := hemits (r := ⟨.table, index⟩) (by simp)
    rw [sitesAt, hrefer, Option.map_some, Option.getD_some, Expansion.sites_ofString] at hnothing
    refine ⟨_, hrefer, h.again (.inr hnothing) (fun _ => hnothing) ?_, .ofString name⟩
    rw [hreuses]
    intro hr
    cases hr
  · rcases hcase with ⟨hl, hkept, rfl⟩ | ⟨hnew, s', hok, rfl⟩
    · obtain ⟨hmem, e, he, hshows⟩ := h.text hl
      have hunsettled := fun hst => h.unsettled hst _ hmem
      refine ⟨e, he, h.again ?_ hunsettled fun _ => hmem, hshows⟩
      cases howned : c.hasArgs with
      | false => exact (hshares howned).imp_left fun hr => ⟨hr, hmem⟩
      | true =>
          -- The text of a child with arguments is kept only while the style is open.
          refine .inr (hunsettled ?_)
          cases hst : f.session.style with
          | none => rfl
          | some st =>
              rw [(ho.before hext) st hst] at hst
              exact absurd ⟨hst, howned⟩ hkept
    · obtain ⟨sites, hsites, hemit⟩ := hrender
      obtain ⟨e, vs, rfl, hshows, hargs, hvs, hopen⟩ := hemit hok ho
      have hfirst : reuses ⟨kind, index⟩ = true → ⟨kind, index⟩ ∉ refs := by
        intro hr
        rcases hnew with ⟨_, howned⟩ | hnone
        · rw [howns howned] at hr
          cases hr
        · exact h.no_text hnone hr
      have hshown : out.Shows Positional (e.under ⟨kind, index⟩) := hshows.under fun _ _ _ hm => hm
      have hvalues : vs.map some = (emits ⟨kind, index⟩).map value := by
        rw [hvs, hsites, List.map_map]
        rfl
      refine ⟨_, hrefer, h.newText hrefer hfirst hshown hvalues hargs rfl ?_, hshown⟩
      intro hst
      refine ⟨?_, by rw [hsites, hopen hst, List.map_nil]⟩
      cases hbefore : f.session.style with
      | none => rfl
      | some st =>
          have hafter : s'.style = some st := hext.style_eq hbefore
          rw [hst] at hafter
          cases hafter

end Emission

/-! ## Templates and trees -/

theorem Render.Scope.render_emits {scope : Scope} {refer : Reference → Option Expansion}
    (reuses : Reference → Bool) (emits : Reference → List Site) {value : Site → Option Value}
    (hchildren : scope.ChildrenMove Session.Extends)
    (hargs : ∀ index, value ⟨[], index⟩ = declaration? scope.args index)
    (hemits : EmitsSites refer reuses emits)
    (hrefers : scope.Refers refer (EmitsAt reuses emits value)) :
    Emits (scope.render .standard) (scope.parts.bind (Part.expandAll refer))
      (emitted reuses emits [] ((scope.parts.map Part.referencesAll).getD [])) value := by
  intro s s' out hrun ho
  have hsim : Simulates scope .positional refer (Emission refer reuses emits value s.args)
      fun _ => Positional :=
    { children := hchildren
      mono := fun _ _ _ _ hm => hm
      bind := fun h hbind ho => h.bind hargs hrefers.arg hemits hbind ho
      resolve := fun hkind h hresolve ho => h.resolve hchildren hemits hrefers hkind hresolve ho }
  obtain ⟨parts, e, memo, hparts, he, hI, hshows, _⟩ :=
    hsim.render (.start s.args s rfl) hrun ho
  obtain ⟨vs, hvs, hmap⟩ := hI.args
  rw [hparts]
  exact ⟨e, vs, he, hshows, hvs, hmap, fun hst => emitted_eq_nil (hI.unsettled hst) []⟩

theorem Column.render_emits (c : Column) {value : Site → Option Value}
    (hargs : ∀ index, value ⟨[], index⟩ = declaration? c.args index) :
    Emits (c.render .standard) c.expand ((c.expand.map Expansion.sites).getD []) value := by
  intro s s' out hrun ho
  obtain ⟨body, hbody, rfl⟩ := map_eq_ok.mp hrun
  obtain ⟨e, vs, he, hshows, hvs, hmap, hopen⟩ :=
    Scope.render_emits (fun _ => false) (sitesAt (c.scope.refer [] []))
      c.childrenMove hargs (fun _ => ⟨rfl, rfl⟩) (c.refers _) hbody ho
  rw [emitted_of_not_reuses (fun _ => rfl), ← Scope.sites_of_expand he] at hmap hopen
  have hexpand : c.expand = some e.trim := by rw [expand, Scope.expand, he, Option.map_some]
  rw [hexpand, Option.map_some, Option.getD_some, Expansion.sites_trim]
  exact ⟨e.trim, vs, rfl, hshows.trim, hvs, hmap, hopen⟩

/-- A column without arguments has no sites. -/
theorem Column.sites_of_isEmpty {c : Column} (h : c.args.isEmpty) :
    (c.expand.map Expansion.sites).getD [] = [] := by
  cases he : c.expand with
  | none => rfl
  | some e =>
      obtain ⟨body, hbody, rfl⟩ := Option.map_eq_some_iff.mp he
      rw [Option.map_some, Option.getD_some, Expansion.sites_trim, Scope.sites_of_expand hbody,
        List.flatMap_eq_nil_iff]
      rintro ⟨kind, index⟩ _
      cases kind with
      | arg => simp [sitesAt, Scope.refer, scope, List.isEmpty_iff.mp h, declaration?]
      | column => simp [sitesAt, Scope.refer, declaration?]
      | table =>
          cases ht : declaration? c.scope.tables index <;> simp [sitesAt, Scope.refer, ht]
      | segment => simp [sitesAt, Scope.refer, declaration?]

namespace Segment

/-- The sites that a segment appends at a reference to something else are those below it. -/
theorem emits_of_ne_segment (s : Segment) (segments : List (List Site)) {r : Reference}
    (h : r.kind ≠ .segment) : s.reuses r = false ∧ s.emits segments r = sitesAt s.refer r := by
  obtain ⟨kind, index⟩ := r
  cases kind with
  | arg => exact ⟨rfl, rfl⟩
  | column => exact ⟨rfl, rfl⟩
  | table => exact ⟨rfl, rfl⟩
  | segment => exact absurd rfl h

theorem emits_segment {s : Segment} {index : Nat} {child : Segment}
    (h : declaration? s.segments index = some child) :
    s.emits (s.segments.map appended) ⟨.segment, index⟩ =
      child.appended.map (Site.under ⟨.segment, index⟩) := by
  rw [emits, declaration?_map, h]
  rfl

theorem reuses_segment {s : Segment} {index : Nat} {child : Segment}
    (h : declaration? s.segments index = some child) :
    s.reuses ⟨.segment, index⟩ = child.args.isEmpty := by
  rw [reuses, h]
  rfl

theorem render_emits (s : Segment) :
    Emits (s.render .standard) s.expand s.appended s.argument? := by
  induction s using Segment.induction with
  | step s ih =>
      intro s₀ s' out hrun ho
      rw [render_eq] at hrun
      obtain ⟨body, hbody, rfl⟩ := map_eq_ok.mp hrun
      have hrefers : (s.scope .standard).Refers s.refer
          (EmitsAt s.reuses (s.emits (s.segments.map appended)) s.argument?) := by
        refine Segment.refers ?_ ?_
        · intro index c hc
          have hsites := (emits_of_ne_segment s (s.segments.map appended)
            (r := ⟨.column, index⟩) (by simp)).2.trans (sitesAt_under (refer_column hc))
          refine ⟨⟨_, hsites, Column.render_emits c fun i => ?_⟩, fun _ => rfl, fun hargs => ?_⟩
          · simp [argument?, Site.under, ownerArgs?, hc]
          · rw [hsites, Column.sites_of_isEmpty (by simpa [Column.child] using hargs)]
            exact .inr rfl
        · intro index child hchild
          have hvalue : (fun site => s.argument? (site.under ⟨.segment, index⟩)) =
              child.argument? := by
            funext site
            simp [argument?, Site.under, ownerArgs?, hchild]
          refine ⟨⟨_, emits_segment hchild, ?_⟩, ?_, ?_⟩
          · rw [hvalue]
            exact ih child (mem_of_declaration? hchild)
          · simp [Segment.child, reuses_segment hchild]
          · intro hargs
            exact .inl (by simpa [Segment.child, reuses_segment hchild] using hargs)
      obtain ⟨e, vs, he, hshows, hvs, hmap, hopen⟩ :=
        Scope.render_emits s.reuses (s.emits (s.segments.map appended))
          (s.childrenMove Session.admits_extends .standard) (fun _ => rfl)
          (fun h => s.emits_of_ne_segment (s.segments.map appended) h) hrefers hbody ho
      rw [appended_eq]
      refine ⟨.wrap s.lead s.trail e, vs, ?_, hshows.wrap s.lead s.trail, hvs, hmap, hopen⟩
      rw [expand_eq, he, Option.map_some]

end Segment

end SqlTemplate
