import SqlTemplate.Proofs.Simulation

/-!
# Numbering

In indexed style a rendered segment is its full expansion, with the arguments
numbered in the order in which they first occur, and these arguments are what
the session gains. So what the memo remembers cannot be told from rendering
everything anew. The invariant ties the memo to the sites that have occurred:
an argument has the slot of its rank, and a remembered text shows the expansion
with ranks that no later reference changes.
-/

namespace SqlTemplate

open Render

/-- The sites of an expansion in the order of first occurrence. -/
def Expansion.firstSites (e : Expansion) : List Site := e.sites.eraseDups

/-- The expansion with its arguments numbered in the order of first occurrence, from one above
`base`. -/
def Expansion.number (base : Nat) (e : Expansion) : Output :=
  e.write fun site => .placeholder .indexed (base + (e.firstSites.idxOf site + 1))

/-! ## Ranks -/

section Ranks

variable {α : Type} [DecidableEq α]

theorem eraseDups_append_of_subset {xs ys : List α} (h : ∀ y ∈ ys, y ∈ xs) :
    (xs ++ ys).eraseDups = xs.eraseDups := by
  have hnil : ys.removeAll xs = [] := by
    rw [List.removeAll, List.filter_eq_nil_iff]
    intro y hy
    simp [h y hy]
  rw [List.eraseDups_append, hnil, List.eraseDups_nil, List.append_nil]

theorem eraseDups_append_of_disjoint {xs ys : List α} (h : ∀ y ∈ ys, y ∉ xs) :
    (xs ++ ys).eraseDups = xs.eraseDups ++ ys.eraseDups := by
  have hself : ys.removeAll xs = ys := by
    rw [List.removeAll, List.filter_eq_self]
    intro y hy
    simp [h y hy]
  rw [List.eraseDups_append, hself]

theorem eraseDups_map {β : Type} [DecidableEq β] {g : α → β} (hg : Function.Injective g)
    (xs : List α) : (xs.map g).eraseDups = xs.eraseDups.map g := by
  induction h : xs.length using Nat.strongRecOn generalizing xs with
  | _ n ih =>
      subst h
      cases xs with
      | nil => rfl
      | cons x xs =>
          have hfilter : (xs.map g).filter (fun b => !b == g x) =
              (xs.filter fun b => !b == x).map g := by
            rw [List.filter_map]
            congr 2
            funext y
            simp [hg.eq_iff]
          rw [List.map_cons, List.eraseDups_cons, List.eraseDups_cons, hfilter, List.map_cons,
            ih _ (Nat.lt_succ_of_le (List.length_filter_le _ _)) _ rfl]

theorem idxOf_map {β : Type} [DecidableEq β] {g : α → β} (hg : Function.Injective g)
    (x : α) (xs : List α) : (xs.map g).idxOf (g x) = xs.idxOf x := by
  induction xs with
  | nil => rfl
  | cons y xs ih =>
      have hbeq : (g y == g x) = (y == x) := by simp [hg.eq_iff]
      rw [List.map_cons, List.idxOf_cons, List.idxOf_cons, ih, hbeq]

end Ranks

/-- The placeholder is indexed and its slot is the rank of the site among `occurred`. -/
def Ranked (base : Nat) (occurred : List Site) (st : Style) (slot : Nat) (site : Site) : Prop :=
  st = .indexed ∧ site ∈ occurred ∧ slot = base + (occurred.eraseDups.idxOf site + 1)

/-- A rank stays when more sites occur. -/
theorem Ranked.append {base : Nat} {occurred : List Site} (more : List Site) {st : Style}
    {slot : Nat} {site : Site} (h : Ranked base occurred st slot site) :
    Ranked base (occurred ++ more) st slot site := by
  obtain ⟨hst, hmem, hslot⟩ := h
  refine ⟨hst, List.mem_append_left _ hmem, ?_⟩
  rw [hslot, List.eraseDups_append,
    List.idxOf_append_of_mem (List.mem_eraseDups.mpr hmem)]

/-- What a rendering does in indexed style: its output shows the expansion with every site
at its rank, and the session gains the values of the sites in the order of their ranks. -/
def Numbers (x : RenderM Output) (e? : Option Expansion) (value : Site → Option Value) : Prop :=
  ∀ ⦃s s' : Session⦄ ⦃out : Output⦄, x s = .ok out s' → s'.OpenTo .indexed →
    ∃ e vs, e? = some e ∧ out.Shows (Ranked s.args.length e.sites) e ∧
      s'.args = s.args ++ vs ∧ vs.map some = e.firstSites.map value

/-- The same of a child, whose sites are below the reference to it. -/
def NumbersAt (value : Site → Option Value) (r : Reference) (c : Child) (e? : Option Expansion) :
    Prop :=
  Numbers c.render e? fun site => value (site.under r)

/-! ## The invariant -/

/-- The sites that the references have led to. -/
def occurred (refer : Reference → Option Expansion) (refs : List Reference) : List Site :=
  refs.flatMap (sitesAt refer)

theorem occurred_concat (refer : Reference → Option Expansion) (refs : List Reference)
    {r : Reference} {e : Expansion} (h : refer r = some e) :
    occurred refer (refs ++ [r]) = occurred refer refs ++ e.sites := by
  simp [occurred, sitesAt, h]

/-- The frame after the references `refs`, when the template began with the arguments
`base`. -/
structure Numbering (refer : Reference → Option Expansion) (value : Site → Option Value)
    (base : List Value) (refs : List Reference) (f : Frame) : Prop where
  args : ∃ vs, f.session.args = base ++ vs ∧
    vs.map some = (occurred refer refs).eraseDups.map value
  slot : ∀ {index n}, f.memo.slots.lookup index = some n →
    Ranked base.length (occurred refer refs) .indexed n ⟨[], index⟩
  no_slot : ∀ {index}, f.memo.slots.lookup index = none →
    ⟨[], index⟩ ∉ occurred refer refs
  text : ∀ {r out}, f.memo.texts.lookup r = some out →
    ∃ e, refer r = some e ∧ out.Shows (Ranked base.length (occurred refer refs)) e
  no_text : ∀ {r}, f.memo.texts.lookup r = none →
    ∀ site : Site, site.under r ∉ occurred refer refs

namespace Numbering

variable {refer : Reference → Option Expansion} {value : Site → Option Value}
  {base : List Value} {refs : List Reference} {f : Frame}

theorem start (base : List Value) (s : Session) (h : s.args = base) :
    Numbering refer value base [] { session := s } where
  args := ⟨[], by rw [h, List.append_nil], rfl⟩
  slot h := by cases h
  no_slot _ := by simp [occurred]
  text h := by cases h
  no_text _ _ := by simp [occurred]

/-- The arguments in the session are as many as the sites that have occurred. -/
theorem length_args (h : Numbering refer value base refs f) :
    f.session.args.length = base.length + (occurred refer refs).eraseDups.length := by
  obtain ⟨vs, hargs, hvs⟩ := h.args
  have hlen : vs.length = (occurred refer refs).eraseDups.length := by
    simpa using congrArg List.length hvs
  rw [hargs, List.length_append, hlen]

/-- A reference that leads to nothing new leaves the ranks as they are. -/
theorem again (h : Numbering refer value base refs f) {r : Reference} {e : Expansion}
    (he : refer r = some e) (hold : ∀ site ∈ e.sites, site ∈ occurred refer refs) (f' : Frame)
    (hargs : f'.session.args = f.session.args) (hslots : f'.memo.slots = f.memo.slots)
    (htexts : f'.memo.texts = f.memo.texts) : Numbering refer value base (refs ++ [r]) f' where
  args := by
    rw [hargs, occurred_concat refer refs he, eraseDups_append_of_subset hold]
    exact h.args
  slot hl := by
    rw [occurred_concat refer refs he]
    exact (h.slot (hslots ▸ hl)).append _
  no_slot hl := by
    rw [occurred_concat refer refs he, List.mem_append, not_or]
    have hnone := h.no_slot (hslots ▸ hl)
    exact ⟨hnone, fun hmem => hnone (hold _ hmem)⟩
  text hl := by
    obtain ⟨e', he', hshows⟩ := h.text (htexts ▸ hl)
    rw [occurred_concat refer refs he]
    exact ⟨e', he', hshows.mono fun _ _ _ hm => hm.append _⟩
  no_text hl site := by
    rw [occurred_concat refer refs he, List.mem_append, not_or]
    have hnone := h.no_text (htexts ▸ hl) site
    exact ⟨hnone, fun hmem => hnone (hold _ hmem)⟩

/-- An argument that occurs for the first time gets the next slot. -/
theorem newSlot (h : Numbering refer value base refs f) {index : Nat} {v : Value}
    (he : refer ⟨.arg, index⟩ = some [.argument ⟨[], index⟩])
    (hnone : f.memo.slots.lookup index = none) (hv : value ⟨[], index⟩ = some v) (f' : Frame)
    (hargs : f'.session.args = f.session.args ++ [v])
    (hslots : f'.memo.slots = (index, f.session.args.length + 1) :: f.memo.slots)
    (htexts : f'.memo.texts = f.memo.texts) :
    Numbering refer value base (refs ++ [⟨.arg, index⟩]) f' := by
  let site : Site := ⟨[], index⟩
  have hocc : occurred refer (refs ++ [⟨.arg, index⟩]) = occurred refer refs ++ [site] :=
    occurred_concat refer refs he
  have hnew : site ∉ occurred refer refs := h.no_slot hnone
  have hfirst : (occurred refer refs ++ [site]).eraseDups =
      (occurred refer refs).eraseDups ++ [site] :=
    eraseDups_append_of_disjoint fun y hy => List.mem_singleton.mp hy ▸ hnew
  refine ⟨?_, ?_, ?_, ?_, ?_⟩
  · obtain ⟨vs, hbase, hvs⟩ := h.args
    refine ⟨vs ++ [v], by rw [hargs, hbase, List.append_assoc], ?_⟩
    rw [hocc, hfirst, List.map_append, List.map_append, hvs, List.map_singleton,
      List.map_singleton, hv]
  · intro i n hl
    rw [hslots, List.lookup_cons] at hl
    rw [hocc]
    split at hl
    · rename_i hi
      cases hl
      rw [eq_of_beq hi]
      -- The rank of the new site is the number of those before it, as its slot is.
      refine ⟨rfl, by simp [site], ?_⟩
      rw [hfirst, List.idxOf_append_of_notMem (fun hmem => hnew (List.mem_eraseDups.mp hmem)),
        List.idxOf_cons_self, h.length_args]
      omega
    · exact (h.slot hl).append _
  · intro i hl
    rw [hslots, List.lookup_cons] at hl
    rw [hocc, List.mem_append, not_or]
    split at hl
    · cases hl
    · rename_i hi
      refine ⟨h.no_slot hl, ?_⟩
      simpa [site] using hi
  · intro r out hl
    obtain ⟨e, hre, hshows⟩ := h.text (htexts ▸ hl)
    rw [hocc]
    exact ⟨e, hre, hshows.mono fun _ _ _ hm => hm.append _⟩
  · intro r hl site'
    rw [hocc, List.mem_append, not_or]
    exact ⟨h.no_text (htexts ▸ hl) _, by simp [site, Site.under]⟩

/-- A child that has no text yet has led to none of its sites. -/
theorem not_mem_of_under (h : Numbering refer value base refs f) {r : Reference}
    (hnone : f.memo.texts.lookup r = none) (e : Expansion) :
    ∀ site ∈ (e.under r).sites, site ∉ occurred refer refs := by
  rw [Expansion.sites_under]
  intro site hsite
  obtain ⟨site', _, rfl⟩ := List.mem_map.mp hsite
  exact h.no_text hnone site'

/-- The ranks within a child that is rendered for the first time come after those that there
were. -/
theorem ranked_under (h : Numbering refer value base refs f) {r : Reference} {e : Expansion}
    (hnone : f.memo.texts.lookup r = none) {st : Style} {slot : Nat} {site : Site}
    (hm : Ranked f.session.args.length e.sites st slot site) :
    Ranked base.length (occurred refer refs ++ (e.under r).sites) st slot (site.under r) := by
  obtain ⟨hst, hmem, hslot⟩ := hm
  refine ⟨hst, ?_, ?_⟩
  · rw [Expansion.sites_under]
    exact List.mem_append_right _ (List.mem_map_of_mem hmem)
  · have hold : site.under r ∉ (occurred refer refs).eraseDups := fun hmem =>
      h.no_text hnone site (List.mem_eraseDups.mp hmem)
    rw [eraseDups_append_of_disjoint (h.not_mem_of_under hnone e),
      List.idxOf_append_of_notMem hold,
      Expansion.sites_under, eraseDups_map (Site.under_injective r),
      idxOf_map (Site.under_injective r), hslot, h.length_args]
    omega

/-- A child that is rendered for the first time adds its sites behind those that there
were. -/
theorem newText (h : Numbering refer value base refs f) {r : Reference} {e : Expansion}
    {out : Output} {vs : List Value} (he : refer r = some (e.under r))
    (hnone : f.memo.texts.lookup r = none)
    (hshows : out.Shows (Ranked f.session.args.length e.sites) e)
    (hvs : vs.map some = e.firstSites.map fun site => value (site.under r)) (f' : Frame)
    (hargs : f'.session.args = f.session.args ++ vs)
    (hslots : f'.memo.slots = f.memo.slots)
    (htexts : f'.memo.texts = (r, out) :: f.memo.texts) :
    Numbering refer value base (refs ++ [r]) f' := by
  have hocc := occurred_concat refer refs he
  refine ⟨?_, ?_, ?_, ?_, ?_⟩
  · obtain ⟨ws, hbase, hws⟩ := h.args
    refine ⟨ws ++ vs, by rw [hargs, hbase, List.append_assoc], ?_⟩
    rw [hocc, eraseDups_append_of_disjoint (h.not_mem_of_under hnone e), List.map_append,
      List.map_append, hws, hvs, Expansion.sites_under, eraseDups_map (Site.under_injective r),
      List.map_map]
    rfl
  · intro i n hl
    rw [hocc]
    exact (h.slot (hslots ▸ hl)).append _
  · intro i hl
    rw [hocc, List.mem_append, not_or, Expansion.sites_under]
    exact ⟨h.no_slot (hslots ▸ hl), by simp [Site.under]⟩
  · intro r' out' hl
    rw [htexts, List.lookup_cons] at hl
    rw [hocc]
    split at hl
    · rename_i hr'
      cases hl
      rw [eq_of_beq hr']
      exact ⟨e.under r, he, hshows.under fun _ _ _ hm => h.ranked_under hnone hm⟩
    · obtain ⟨e', hre, hshows'⟩ := h.text hl
      exact ⟨e', hre, hshows'.mono fun _ _ _ hm => hm.append _⟩
  · intro r' hl site
    rw [htexts, List.lookup_cons] at hl
    rw [hocc, List.mem_append, not_or, Expansion.sites_under]
    split at hl
    · cases hl
    · rename_i hr'
      refine ⟨h.no_text hl site, ?_⟩
      intro hmem
      obtain ⟨site', _, hsite⟩ := List.mem_map.mp hmem
      simp only [Site.under, Site.mk.injEq, List.cons.injEq] at hsite
      rw [hsite.1.1, beq_self_eq_true] at hr'
      cases hr'

/-- A placeholder in indexed style shows its argument at its rank. -/
theorem bind {scope : Scope} (hargs : ∀ index, value ⟨[], index⟩ = declaration? scope.args index)
    (hrefer : ∀ {index v}, declaration? scope.args index = some v →
      refer ⟨.arg, index⟩ = some [.argument ⟨[], index⟩])
    (h : Numbering refer value base refs f) {marker : Style} {index : Nat} {out : Output}
    {f' : Frame} (hrun : scope.bind marker index f = .ok out f')
    (ho : f'.session.OpenTo .indexed) :
    ∃ e, refer ⟨.arg, index⟩ = some e ∧ Numbering refer value base (refs ++ [⟨.arg, index⟩]) f' ∧
      out.Shows (Ranked base.length (occurred refer (refs ++ [⟨.arg, index⟩]))) e := by
  obtain ⟨st, choice, v, hobs, hv, n, rfl, hcase⟩ := Scope.bind_ok hrun
  have hstyle := StyleChoice.style_of_observe hobs
  have he := hrefer hv
  refine ⟨_, he, ?_⟩
  have hshows : Numbering refer value base (refs ++ [⟨.arg, index⟩]) f' →
      f'.memo.slots.lookup index = some n → st = .indexed →
      Output.Shows (Ranked base.length (occurred refer (refs ++ [⟨.arg, index⟩])))
        [.placeholder st n] [.argument ⟨[], index⟩] := by
    rintro h' hl rfl
    exact .cons (.placeholder (h'.slot hl)) .nil
  cases st with
  | positional =>
      -- The placeholder would have settled the session in the wrong style.
      obtain ⟨_, rfl⟩ := hcase
      cases ho .positional hstyle
  | indexed =>
      rcases ScopeM.slot_ok hcase with ⟨hl, rfl⟩ | ⟨hl, hn, rfl⟩
      · have hmem : (⟨[], index⟩ : Site) ∈ occurred refer refs := (h.slot hl).2.1
        have h' := h.again he (fun site hsite => List.mem_singleton.mp hsite ▸ hmem)
          (Frame.refer { f with session := { f.session with choice } } ⟨.arg, index⟩)
          rfl rfl rfl
        exact ⟨h', hshows h' hl rfl⟩
      · have h' := h.newSlot he hl ((hargs index).trans hv)
          ⟨{ f.session with args := f.session.args ++ [v], choice },
            { (f.refer ⟨.arg, index⟩).memo with slots := (index, n) :: f.memo.slots }⟩
          rfl (by rw [hn]; rfl) rfl
        exact ⟨h', hshows h' (List.lookup_cons_self ..) rfl⟩

/-- Any other reference in indexed style shows what is declared at the ranks of its sites. -/
theorem resolve {scope : Scope} (hchildren : scope.ChildrenMove Session.Extends)
    (hrefers : scope.Refers refer (NumbersAt value))
    (h : Numbering refer value base refs f) {kind : DeclKind} {index : Nat} {out : Output}
    {f' : Frame} (hkind : kind ≠ .arg) (hrun : scope.resolve index kind f = .ok out f')
    (ho : f'.session.OpenTo .indexed) :
    ∃ e, refer ⟨kind, index⟩ = some e ∧ Numbering refer value base (refs ++ [⟨kind, index⟩]) f' ∧
      out.Shows (Ranked base.length (occurred refer (refs ++ [⟨kind, index⟩]))) e := by
  have hext := (Scope.resolve_moves Session.admits_extends hchildren index kind).ok hrun
  rcases hrefers.resolve_cases hkind hrun with
    ⟨name, _, hrefer, rfl, rfl⟩ | ⟨c, e?, _, hrefer, hnumbers, hcase⟩
  · refine ⟨_, hrefer, h.again hrefer ?_ _ rfl rfl rfl, .ofString name⟩
    intro site hsite
    rw [Expansion.sites_ofString] at hsite
    cases hsite
  · rcases hcase with ⟨hl, _, rfl⟩ | ⟨hnew, s', hrender, rfl⟩
    · -- The text is known, and with it all its sites.
      obtain ⟨e, he, hshows⟩ := h.text hl
      have hold : ∀ site ∈ e.sites, site ∈ occurred refer refs := by
        intro site hsite
        obtain ⟨_, _, hm⟩ := hshows.of_mem_sites hsite
        exact hm.2.1
      have h' := h.again he hold (f.refer ⟨kind, index⟩) rfl rfl rfl
      refine ⟨e, he, h', hshows.mono ?_⟩
      intro _ _ _ hm
      rw [occurred_concat refer refs he]
      exact hm.append _
    · -- Only with positional placeholders is a known text rendered anew.
      have hnone : f.memo.texts.lookup ⟨kind, index⟩ = none := by
        rcases hnew with ⟨hpos, _⟩ | hnone
        · cases ho.before hext .positional hpos
        · exact hnone
      obtain ⟨e, vs, rfl, hshows, hargs, hvs⟩ := hnumbers hrender ho
      have h' := h.newText hrefer hnone hshows hvs
        ⟨s', { (f.refer ⟨kind, index⟩).memo with
          texts := (⟨kind, index⟩, out) :: f.memo.texts }⟩ hargs rfl rfl
      refine ⟨_, hrefer, h', hshows.under ?_⟩
      intro _ _ _ hm
      rw [occurred_concat refer refs hrefer]
      exact h.ranked_under hnone hm

end Numbering

/-! ## Templates and trees -/

theorem Render.Scope.render_numbers {scope : Scope} {refer : Reference → Option Expansion}
    {value : Site → Option Value} (hchildren : scope.ChildrenMove Session.Extends)
    (hargs : ∀ index, value ⟨[], index⟩ = declaration? scope.args index)
    (hrefers : scope.Refers refer (NumbersAt value)) :
    Numbers (scope.render .standard) (scope.parts.bind (Part.expandAll refer)) value := by
  intro s s' out hrun ho
  have hsim : Simulates scope .indexed refer (Numbering refer value s.args)
      fun refs => Ranked s.args.length (occurred refer refs) :=
    { children := hchildren
      mono := fun more st slot site hm => by
        rw [occurred, List.flatMap_append]
        exact hm.append _
      bind := fun h hbind ho => h.bind hargs hrefers.arg hbind ho
      resolve := fun hkind h hresolve ho => h.resolve hchildren hrefers hkind hresolve ho }
  obtain ⟨parts, e, memo, hparts, he, hI, hshows, _⟩ :=
    hsim.render (.start s.args s rfl) hrun ho
  have hsites : e.sites = occurred refer (Part.referencesAll parts) :=
    Part.sites_of_expandAll parts he
  obtain ⟨vs, hvs, hmap⟩ := hI.args
  rw [← hsites] at hmap hshows
  exact ⟨e, vs, by rw [hparts, Option.bind_some, he], hshows, hvs, hmap⟩

theorem Column.render_numbers (c : Column) {value : Site → Option Value}
    (hargs : ∀ index, value ⟨[], index⟩ = declaration? c.args index) :
    Numbers (c.render .standard) c.expand value := by
  intro s s' out hrun ho
  obtain ⟨body, hbody, rfl⟩ := map_eq_ok.mp hrun
  obtain ⟨e, vs, he, hshows, hvs, hmap⟩ :=
    Scope.render_numbers c.childrenMove hargs (c.refers _) hbody ho
  refine ⟨e.trim, vs, ?_, ?_, hvs, ?_⟩
  · rw [expand, Scope.expand, he, Option.map_some]
  · rw [Expansion.sites_trim]
    exact hshows.trim
  · rwa [Expansion.firstSites, Expansion.sites_trim]

/-- **Rendering numbers the expansion**, in any tree and at any session. -/
theorem Segment.render_numbers (s : Segment) :
    Numbers (s.render .standard) s.expand s.argument? := by
  induction s using Segment.induction with
  | step s ih =>
      intro s₀ s' out hrun ho
      rw [render_eq] at hrun
      obtain ⟨body, hbody, rfl⟩ := map_eq_ok.mp hrun
      have hrefers : (s.scope .standard).Refers s.refer (NumbersAt s.argument?) := by
        refine Segment.refers ?_ ?_
        · intro index c hc
          refine Column.render_numbers c fun i => ?_
          simp [argument?, Site.under, ownerArgs?, hc]
        · intro index child hchild
          have hvalue : (fun site => s.argument? (site.under ⟨.segment, index⟩)) =
              child.argument? := by
            funext site
            simp [argument?, Site.under, ownerArgs?, hchild]
          rw [NumbersAt, hvalue]
          exact ih child (mem_of_declaration? hchild)
      obtain ⟨e, vs, he, hshows, hvs, hmap⟩ :=
        Scope.render_numbers (s.childrenMove Session.admits_extends .standard) (fun _ => rfl)
          hrefers hbody ho
      refine ⟨.wrap s.lead s.trail e, vs, ?_, ?_, hvs, ?_⟩
      · rw [expand_eq, he, Option.map_some]
      · rw [Expansion.sites_wrap]
        exact hshows.wrap s.lead s.trail
      · rwa [Expansion.firstSites, Expansion.sites_wrap]

/-- **Indexed builds expand everything, then number.** The text is that of the full expansion
with the arguments numbered in the order of first occurrence, above those that the session
holds; the session gains the values of these arguments in this order, one each. -/
theorem Segment.render_indexed {registry : Registry} (hr : registry.HasBuiltins) {seg : Segment}
    (hb : seg.UsesBuiltins) {s s' : Session} {out : Output}
    (h : seg.render registry s = .ok out s')
    (hstyle : s.style = some .indexed ∨ s'.style ≠ some .positional) :
    ∃ e vs, seg.expand = some e ∧ out = e.number s.args.length ∧ s'.args = s.args ++ vs ∧
      vs.map some = e.firstSites.map seg.argument? := by
  have hopen : s'.OpenTo .indexed := by
    intro st hst
    rcases hstyle with hs | hs'
    · exact Option.some.inj (hst.symm.trans ((render_extends h).style_eq hs))
    · cases st with
      | indexed => rfl
      | positional => exact absurd hst hs'
  rw [render_eq_standard hr hb] at h
  obtain ⟨e, vs, he, hshows, hvs, hmap⟩ := seg.render_numbers h hopen
  refine ⟨e, vs, he, hshows.eq_write ?_, hvs, hmap⟩
  rintro st slot site ⟨rfl, _, rfl⟩
  rfl

/-- A segment that refers to a child with a column of its own twice, beside arguments in an
order of their own. -/
def Segment.numberingSample : Segment where
  raw := "$2 IN (#join('#$', ', ')) AND #join('#s', ' OR ') AND #s1 AND $1"
  args := [.int 1, .int 2]
  segments := [
    { raw := "#c1 > $1 OR #c1 < $1"
      args := [.int 7]
      columns := [⟨⟨"t", ""⟩, "#t1.x + $1", [.int 5]⟩] }]

theorem Segment.render_indexed_sample : ∃ out s' e vs,
    numberingSample.render .standard { args := [.null] } = .ok out s' ∧
    out.text = "$2 IN ($3, $2) AND t.x + $4 > $5 OR t.x + $4 < $5 AND " ++
      "t.x + $4 > $5 OR t.x + $4 < $5 AND $3" ∧
    numberingSample.expand = some e ∧ out = e.number 1 ∧ s'.args = [.null] ++ vs ∧
    vs.map some = e.firstSites.map numberingSample.argument? := by
  obtain ⟨out, s', h, hcheck⟩ := exists_ok_of_check (x := numberingSample.render .standard)
    (s := { args := [.null] })
    (fun out s' => out.text == "$2 IN ($3, $2) AND t.x + $4 > $5 OR t.x + $4 < $5 AND " ++
      "t.x + $4 > $5 OR t.x + $4 < $5 AND $3" && s'.style != some .positional)
    (by decide +kernel)
  obtain ⟨htext, hstyle⟩ := Bool.and_eq_true_iff.mp hcheck
  obtain ⟨e, vs, hrest⟩ := render_indexed Registry.hasBuiltins_standard
    (usesBuiltins_of_check 3 (by decide +kernel)) h (.inr (bne_iff_ne.mp hstyle))
  exact ⟨out, s', e, vs, h, eq_of_beq htext, hrest⟩

end SqlTemplate
