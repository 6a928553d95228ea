import SqlTemplate.Proofs.Alignment
import SqlTemplate.Proofs.Verbatim

/-!
# Reuse

Where the text of a child is reused, a positional session may fall behind the
text: the `?` of the child are repeated and its arguments are not. This happens
exactly at a template that refers more than once to a segment without arguments
of its own whose expansion has some. The `?` of the text and the arguments of
the session are counted by way of the sites: there is a `?` for each site of the
expansion, and an argument for each that is appended.
-/

namespace SqlTemplate

open Render
open Template (parse)

/-! ## Appending everything -/

section Emitted

variable {reuses : Reference → Bool} {emits sites : Reference → List Site}

theorem length_emitted_le {refs : List Reference}
    (h : ∀ r ∈ refs, (emits r).length ≤ (sites r).length) (seen : List Reference) :
    (emitted reuses emits seen refs).length ≤ (refs.flatMap sites).length := by
  induction refs generalizing seen with
  | nil => exact Nat.le_refl _
  | cons r rest ih =>
      have hhead := h r (List.mem_cons_self ..)
      have htail := ih (fun r' hr' => h r' (List.mem_cons_of_mem _ hr')) (r :: seen)
      rw [emitted, List.flatMap_cons, List.length_append, List.length_append]
      split
      · rw [List.length_nil]
        omega
      · omega

/-- Everything is appended if what is reused has no sites. -/
theorem emitted_eq_flatMap {refs seen : List Reference} (h : ∀ r ∈ refs, emits r = sites r)
    (hreuse : ∀ r ∈ refs, reuses r = true → r ∈ seen ∨ 1 < refs.count r → sites r = []) :
    emitted reuses emits seen refs = refs.flatMap sites := by
  induction refs generalizing seen with
  | nil => rfl
  | cons r rest ih =>
      have hhead : (if reuses r ∧ r ∈ seen then [] else emits r) = sites r := by
        split
        · rename_i hr
          exact (hreuse r (List.mem_cons_self ..) hr.1 (.inl hr.2)).symm
        · exact h r (List.mem_cons_self ..)
      rw [emitted, List.flatMap_cons, hhead, ih fun r' hr' => h r' (List.mem_cons_of_mem _ hr')]
      intro r' hr' hreuses hagain
      -- What is seen again in the rest is there more than once in the whole list.
      refine hreuse r' (List.mem_cons_of_mem _ hr') hreuses ?_
      rcases hagain with hseen | hcount
      · rcases List.mem_cons.mp hseen with rfl | hseen
        · have := List.count_pos_iff.mpr hr'
          rw [List.count_cons_self]
          exact .inr (by omega)
        · exact .inl hseen
      · have := List.count_le_count_cons (a := r') (b := r) (l := rest)
        exact .inr (by omega)

/-- If as much is appended as there are sites, then what is reused has none. -/
theorem of_length_emitted_eq {refs seen : List Reference}
    (hle : ∀ r ∈ refs, (emits r).length ≤ (sites r).length)
    (heq : (emitted reuses emits seen refs).length = (refs.flatMap sites).length) :
    ∀ r ∈ refs, (¬ (reuses r = true ∧ r ∈ seen) → (emits r).length = (sites r).length) ∧
      (reuses r = true → r ∈ seen ∨ 1 < refs.count r → sites r = []) := by
  induction refs generalizing seen with
  | nil => simp
  | cons r rest ih =>
      have hrest := fun r' hr' => hle r' (List.mem_cons_of_mem r hr')
      have htail : (emitted reuses emits (r :: seen) rest).length ≤ (rest.flatMap sites).length :=
        length_emitted_le hrest (r :: seen)
      have hhead := hle r (List.mem_cons_self ..)
      rw [emitted, List.flatMap_cons, List.length_append, List.length_append] at heq
      -- Neither the head nor the rest can exceed its share, so both reach it.
      have hfirst : (¬ (reuses r = true ∧ r ∈ seen) → (emits r).length = (sites r).length) ∧
          (reuses r = true → r ∈ seen → (sites r).length = 0) ∧
          (emitted reuses emits (r :: seen) rest).length = (rest.flatMap sites).length := by
        split at heq
        · rename_i hr
          rw [List.length_nil] at heq
          exact ⟨fun hnot => absurd hr hnot, fun _ _ => by omega, by omega⟩
        · rename_i hr
          exact ⟨fun _ => by omega, fun hreuses hmem => absurd ⟨hreuses, hmem⟩ hr, by omega⟩
      obtain ⟨hnew, hold, htaileq⟩ := hfirst
      have ih := ih hrest htaileq
      intro r' hr'
      by_cases hsame : r' = r
      · subst hsame
        refine ⟨hnew, fun hreuses hagain => ?_⟩
        rcases hagain with hseen | hcount
        · exact List.length_eq_zero_iff.mp (hold hreuses hseen)
        · rw [List.count_cons_self] at hcount
          have hmem := List.count_pos_iff.mp (show 0 < rest.count r' by omega)
          exact (ih r' hmem).2 hreuses (.inl (List.mem_cons_self ..))
      · have hmem := (List.mem_cons.mp hr').resolve_left hsame
        have hseen : r' ∈ r :: seen ↔ r' ∈ seen := by simp [hsame]
        have hcount : (r :: rest).count r' = rest.count r' :=
          List.count_cons_of_ne fun h => hsame h.symm
        rw [hcount, ← hseen]
        exact ih r' hmem

end Emitted

namespace Segment

/-- A template that rendering a segment renders: its own, or one below a reference. -/
inductive Renders : Segment → Segment → Prop
  | refl (s : Segment) : Renders s s
  | child {s child t : Segment} {index : Nat}
      (hmem : (⟨.segment, index⟩ : Reference) ∈ s.references)
      (hchild : declaration? s.segments index = some child) (h : Renders child t) : Renders s t

/-- The template refers more than once to a segment that has no arguments of its own, but
some further down. -/
def RepeatsArguments (s : Segment) : Prop :=
  ∃ index child e, declaration? s.segments index = some child ∧ child.args = [] ∧
    child.expand = some e ∧ e.sites ≠ [] ∧ 1 < s.references.count ⟨.segment, index⟩

/-- No template that is rendered repeats arguments. -/
def Aligned (s : Segment) : Prop := ∀ t, s.Renders t → ¬ t.RepeatsArguments

end Segment

namespace Render.Part

variable {refer : Reference → Option Expansion}

mutual

/-- What has an expansion refers to nothing without. -/
theorem refer_of_expand : ∀ (p : Part) {e : Expansion}, p.expand refer = some e →
    ∀ r ∈ p.references, ∃ e', refer r = some e'
  | .text _, _, _, _, hr => by cases hr
  | .bind _ _, e, h, _, hr => ⟨e, List.mem_singleton.mp hr ▸ h⟩
  | .refer _ _, e, h, _, hr => ⟨e, List.mem_singleton.mp hr ▸ h⟩
  | .fail _, _, h, _, _ => by cases h
  | .follow _, _, h, _, _ => by cases h
  | .join _ _ iterations, _, h, r, hr => by
      obtain ⟨es, hes, _⟩ := Option.map_eq_some_iff.mp h
      exact refer_of_expandEach iterations hes r hr

theorem refer_of_expandAll : ∀ (parts : List Part) {e : Expansion},
    expandAll refer parts = some e → ∀ r ∈ referencesAll parts, ∃ e', refer r = some e'
  | [], _, _, _, hr => by cases hr
  | p :: rest, _, h, r, hr => by
      obtain ⟨_, hp, h⟩ := Option.bind_eq_some_iff.mp h
      obtain ⟨_, hrest, _⟩ := Option.bind_eq_some_iff.mp h
      rcases List.mem_append.mp hr with hr | hr
      · exact refer_of_expand p hp r hr
      · exact refer_of_expandAll rest hrest r hr

theorem refer_of_expandEach : ∀ (iterations : List (List Part)) {es : List Expansion},
    expandEach refer iterations = some es →
    ∀ r ∈ referencesEach iterations, ∃ e', refer r = some e'
  | [], _, _, _, hr => by cases hr
  | parts :: rest, _, h, r, hr => by
      obtain ⟨_, hparts, h⟩ := Option.bind_eq_some_iff.mp h
      obtain ⟨_, hrest, _⟩ := Option.bind_eq_some_iff.mp h
      rcases List.mem_append.mp hr with hr | hr
      · exact refer_of_expandAll parts hparts r hr
      · exact refer_of_expandEach rest hrest r hr

end

end Render.Part

namespace Segment

theorem parts_of_expand {s : Segment} {e : Expansion} (h : s.expand = some e) :
    ∃ body, (s.scope .standard).parts.bind (Part.expandAll s.refer) = some body ∧
      e = .wrap s.lead s.trail body := by
  rw [expand_eq] at h
  obtain ⟨body, hbody, rfl⟩ := Option.map_eq_some_iff.mp h
  exact ⟨body, hbody, rfl⟩

theorem sites_of_expand {s : Segment} {e : Expansion} (h : s.expand = some e) :
    e.sites = s.references.flatMap (sitesAt s.refer) := by
  obtain ⟨body, hbody, rfl⟩ := parts_of_expand h
  rw [Expansion.sites_wrap, Scope.sites_of_expand hbody]
  rfl

theorem refer_of_mem_references {s : Segment} {e : Expansion} (h : s.expand = some e)
    {r : Reference} (hr : r ∈ s.references) : ∃ e', s.refer r = some e' := by
  obtain ⟨_, hbody, _⟩ := parts_of_expand h
  obtain ⟨parts, hparts, he⟩ := Option.bind_eq_some_iff.mp hbody
  rw [references, hparts] at hr
  exact Part.refer_of_expandAll parts he r hr

/-- A segment that is referred to in an expansion has an expansion itself. -/
theorem segment_of_mem_references {s : Segment} {e : Expansion} (h : s.expand = some e)
    {index : Nat} (hr : (⟨.segment, index⟩ : Reference) ∈ s.references) :
    ∃ child e', declaration? s.segments index = some child ∧ child.expand = some e' ∧
      sitesAt s.refer ⟨.segment, index⟩ = e'.sites.map (Site.under ⟨.segment, index⟩) := by
  obtain ⟨e', he'⟩ := refer_of_mem_references h hr
  cases hchild : declaration? s.segments index with
  | none =>
      rw [refer, Scope.refer, declaration?_map, hchild] at he'
      cases he'
  | some child =>
      rw [refer_segment hchild] at he'
      obtain ⟨body, hbody, _⟩ := Option.map_eq_some_iff.mp he'
      refine ⟨child, body, rfl, hbody, ?_⟩
      rw [sitesAt_under (refer_segment hchild), hbody]
      rfl

/-- What holds of references to something else and of those to segments holds of all that an
expansion makes. -/
theorem forall_mem_references {s : Segment} {e : Expansion} (h : s.expand = some e)
    {P : Reference → Prop} (hother : ∀ r ∈ s.references, r.kind ≠ .segment → P r)
    (hsegment : ∀ index child e', (⟨.segment, index⟩ : Reference) ∈ s.references →
      declaration? s.segments index = some child → child.expand = some e' →
      sitesAt s.refer ⟨.segment, index⟩ = e'.sites.map (Site.under ⟨.segment, index⟩) →
      P ⟨.segment, index⟩) : ∀ r ∈ s.references, P r := by
  intro r hr
  by_cases hkind : r.kind = .segment
  · obtain ⟨kind, index⟩ := r
    subst hkind
    obtain ⟨child, e', hchild, he', hsites⟩ := segment_of_mem_references h hr
    exact hsegment index child e' hr hchild he' hsites
  · exact hother r hr hkind

/-- At no reference more is appended than there are sites, if this holds of the segments. -/
theorem length_emits_le {s : Segment} {e : Expansion} (he : s.expand = some e)
    (h : ∀ child ∈ s.segments, ∀ {e' : Expansion}, child.expand = some e' →
      child.appended.length ≤ e'.sites.length) :
    ∀ r ∈ s.references,
      (s.emits (s.segments.map appended) r).length ≤ (sitesAt s.refer r).length := by
  refine forall_mem_references he ?_ ?_
  · intro r _ hkind
    exact Nat.le_of_eq (congrArg List.length (emits_of_ne_segment s _ hkind).2)
  · intro index child e' _ hchild he' hsites
    rw [emits_segment hchild, hsites, List.length_map, List.length_map]
    exact h child (mem_of_declaration? hchild) he'

/-- No more is appended than there are sites. -/
theorem length_appended_le (s : Segment) :
    ∀ {e : Expansion}, s.expand = some e → s.appended.length ≤ e.sites.length := by
  induction s using Segment.induction with
  | step s ih =>
      intro e he
      rw [appended_eq, sites_of_expand he]
      exact length_emitted_le (length_emits_le he ih) []

/-- Where as much is appended as there are sites, no template repeats arguments. -/
theorem aligned_of_length_eq (s : Segment) :
    ∀ {e : Expansion}, s.expand = some e → s.appended.length = e.sites.length → s.Aligned := by
  induction s using Segment.induction with
  | step s ih =>
      intro e he heq
      rw [appended_eq, sites_of_expand he] at heq
      have hparts := of_length_emitted_eq
        (length_emits_le he fun child _ => child.length_appended_le) heq
      intro t ht
      cases ht with
      | refl =>
          rintro ⟨index, child, e', hchild, hargs, he', hne, hcount⟩
          have hmem : (⟨.segment, index⟩ : Reference) ∈ s.references :=
            List.count_pos_iff.mp (by omega)
          have hreuses : s.reuses ⟨.segment, index⟩ = true := by
            rw [reuses_segment hchild, hargs]
            rfl
          have hnone := (hparts _ hmem).2 hreuses (.inr hcount)
          rw [sitesAt_under (refer_segment hchild), he'] at hnone
          exact hne (List.map_eq_nil_iff.mp hnone)
      | @child _ child _ index hmem hchild ht =>
          obtain ⟨child', e', hchild', he', hsites⟩ := segment_of_mem_references he hmem
          obtain rfl : child = child' := Option.some.inj (hchild.symm.trans hchild')
          have hlength := (hparts _ hmem).1 (by simp)
          rw [emits_segment hchild, hsites, List.length_map, List.length_map] at hlength
          exact ih child (mem_of_declaration? hchild) he' hlength t ht

/-- Where no template repeats arguments, all sites are appended in their order. -/
theorem Aligned.appended_eq_sites (s : Segment) :
    ∀ {e : Expansion}, s.expand = some e → s.Aligned → s.appended = e.sites := by
  induction s using Segment.induction with
  | step s ih =>
      intro e he haligned
      rw [appended_eq, sites_of_expand he]
      refine emitted_eq_flatMap (forall_mem_references he ?_ ?_) (forall_mem_references he ?_ ?_)
      · intro r _ hkind
        exact (emits_of_ne_segment s _ hkind).2
      · intro index child e' hmem hchild he' hsites
        have hbelow : child.Aligned := fun t ht => haligned t (.child hmem hchild ht)
        rw [emits_segment hchild, hsites, ih child (mem_of_declaration? hchild) he' hbelow]
      · intro r _ hkind hreuses
        rw [(emits_of_ne_segment s [] hkind).1] at hreuses
        cases hreuses
      · intro index child e' _ hchild he' hsites hreuses hagain
        have hcount := hagain.resolve_left List.not_mem_nil
        rw [reuses_segment hchild] at hreuses
        by_contra hne
        refine haligned s (.refl s) ⟨index, child, e', hchild, List.isEmpty_iff.mp hreuses,
          he', ?_, hcount⟩
        intro hnone
        rw [hsites, hnone] at hne
        exact hne rfl

/-- **Positional builds expand everything, and append all but what is reused.** In a text
whose verbatim parts have no `?` there is one `?` for each site of the expansion. The session
has the arguments of the appended sites; these are all sites, in the order of the text, exactly
if no template that is rendered repeats arguments. -/
theorem render_positional {registry : Registry} (hr : registry.HasBuiltins) {seg : Segment}
    (hb : seg.UsesBuiltins) (htexts : ∀ t ∈ seg.texts, '?' ∉ t.toList) {s s' : Session}
    {out : Output} (hs : s.args = []) (h : seg.render registry s = .ok out s')
    (hstyle : s.style = some .positional ∨ s'.style ≠ some .indexed) :
    ∃ e, seg.expand = some e ∧ out.Shows Positional e ∧
      out.text.toList.count '?' = e.sites.length ∧
      s'.args.map some = seg.appended.map seg.argument? ∧
      (s'.args.length = e.sites.length ↔ seg.Aligned) ∧
      (seg.Aligned → s'.args.map some = e.sites.map seg.argument?) := by
  have hopen : s'.OpenTo .positional := by
    intro st hst
    rcases hstyle with hs | hs'
    · exact Option.some.inj (hst.symm.trans ((render_extends h).style_eq hs))
    · cases st with
      | positional => rfl
      | indexed => exact absurd hst hs'
  rw [render_eq_standard hr hb] at h
  obtain ⟨e, vs, he, hshows, hargs, hvs, _⟩ := seg.render_emits h hopen
  rw [hs, List.nil_append] at hargs
  rw [← hargs] at hvs
  have hlength : s'.args.length = seg.appended.length := by
    simpa using congrArg List.length hvs
  have hcount := hshows.count_text (seg.avoids_of_expand (by decide) he htexts)
  refine ⟨e, he, hshows, hcount, hvs, ⟨?_, ?_⟩, ?_⟩
  · intro heq
    exact seg.aligned_of_length_eq he (hlength.symm.trans heq)
  · intro haligned
    rw [hlength, haligned.appended_eq_sites seg he]
  · intro haligned
    rw [hvs, haligned.appended_eq_sites seg he]

/-- A child with arguments of its own, in a column and below it, that is referred to twice. -/
def alignedSample : Segment where
  raw := "#s1 OR #s1"
  segments := [
    { raw := "#c1 = ? AND #s1"
      args := [.int 7]
      columns := [⟨⟨"t", ""⟩, "#t1.x + ?", [.int 5]⟩]
      segments := [{ raw := "y < ?", args := [.int 9] }] }]

theorem render_positional_sample : ∃ out s' e,
    alignedSample.render .standard {} = .ok out s' ∧
    out.text = "t.x + ? = ? AND y < ? OR t.x + ? = ? AND y < ?" ∧ alignedSample.expand = some e ∧
    alignedSample.Aligned ∧ s'.args.map some = e.sites.map alignedSample.argument? := by
  obtain ⟨out, s', h, hcheck⟩ := exists_ok_of_check (x := alignedSample.render .standard)
    (s := {})
    (fun out s' => out.text == "t.x + ? = ? AND y < ? OR t.x + ? = ? AND y < ?" &&
      s'.style != some .indexed && s'.args.length == out.text.toList.count '?')
    (by decide +kernel)
  obtain ⟨hfirst, hlength⟩ := Bool.and_eq_true_iff.mp hcheck
  obtain ⟨htext, hstyle⟩ := Bool.and_eq_true_iff.mp hfirst
  obtain ⟨e, he, _, hcount, _, haligned, hargs⟩ :=
    render_positional Registry.hasBuiltins_standard (usesBuiltins_of_check 2 (by decide +kernel))
      (by decide +kernel) rfl h (.inr (bne_iff_ne.mp hstyle))
  have ha := haligned.mp ((eq_of_beq hlength).trans hcount)
  exact ⟨out, s', e, h, eq_of_beq htext, he, ha, hargs ha⟩

/-- A child without arguments of its own that is referred to twice, with one below. -/
def reuseSample : Segment where
  raw := "#s1 | #s1"
  segments := [{ raw := "#s1", segments := [{ raw := "x = ?", args := [.int 1] }] }]

/-- Where a child is reused, the text may have more `?` than the session has arguments. -/
theorem render_reuseSample : reuseSample.UsesBuiltins ∧
    (∀ t ∈ reuseSample.texts, '?' ∉ t.toList) ∧
    ∃ out s', reuseSample.render .standard {} = .ok out s' ∧ s'.style = some .positional ∧
      out.text.toList.count '?' = 2 ∧ s'.args.length = 1 := by
  refine ⟨usesBuiltins_of_check 2 (by decide +kernel), by decide +kernel, ?_⟩
  obtain ⟨out, s', h, hcheck⟩ := exists_ok_of_check (x := reuseSample.render .standard)
    (s := {})
    (fun out s' => decide (s'.style = some .positional ∧ out.text.toList.count '?' = 2 ∧
      s'.args.length = 1))
    (by decide +kernel)
  exact ⟨out, s', h, of_decide_eq_true hcheck⟩

end Segment

end SqlTemplate
