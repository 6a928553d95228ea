import SqlTemplate.Proofs.Expansion

/-!
# Verbatim text

The characters of an expansion are those that its templates write verbatim: plain
text, separators, names of tables, leads and trails, and the blanks that put a
lead and a trail apart. Where none of them is a `?`, the `?` of a rendered text
are its positional placeholders.
-/

namespace SqlTemplate

open Render

/-! ## Texts -/

namespace Render.Part

mutual

/-- The texts that a part writes itself. -/
def texts : Part → List String
  | .text s => [s]
  | .bind _ _ => []
  | .refer _ _ => []
  | .fail _ => []
  | .follow _ => []
  | .join _ separator iterations => separator :: textsEach iterations

def textsAll : List Part → List String
  | [] => []
  | p :: rest => p.texts ++ textsAll rest

def textsEach : List (List Part) → List String
  | [] => []
  | parts :: rest => textsAll parts ++ textsEach rest

end

end Render.Part

/-- The texts of a template and the names of its tables. -/
def Render.Scope.texts (scope : Scope) : List String :=
  (scope.parts.map Part.textsAll).getD [] ++ scope.tables.map Table.appliedName

namespace Segment

mutual

/-- All that the templates of a tree write verbatim. -/
def texts : Segment → List String
  | ⟨raw, args, columns, tables, segments, lead, trail⟩ =>
    (scope .standard ⟨raw, args, columns, tables, segments, lead, trail⟩).texts ++
      columns.flatMap (fun c => c.scope.texts) ++ textsOf segments ++ [lead, trail]

def textsOf : List Segment → List String
  | [] => []
  | s :: rest => s.texts ++ textsOf rest

end

theorem textsOf_eq_flatMap (segments : List Segment) :
    textsOf segments = segments.flatMap texts := by
  induction segments with
  | nil => rfl
  | cons s rest ih => rw [textsOf, ih, List.flatMap_cons]

theorem texts_eq (s : Segment) :
    s.texts = (s.scope .standard).texts ++ s.columns.flatMap (fun c => c.scope.texts) ++
      s.segments.flatMap texts ++ [s.lead, s.trail] := by
  obtain ⟨raw, args, columns, tables, segments, lead, trail⟩ := s
  rw [texts, textsOf_eq_flatMap]

end Segment

/-! ## Characters -/

/-- The expansion does not write the character. -/
def Expansion.Avoids (c : Char) (e : Expansion) : Prop := .char c ∉ e

namespace Expansion

variable {c : Char}

theorem avoids_ofString {s : String} : (ofString s).Avoids c ↔ c ∉ s.toList := by
  simp [Avoids, ofString]

theorem avoids_append {e e' : Expansion} :
    Avoids c (e ++ e') ↔ e.Avoids c ∧ e'.Avoids c := by
  simp [Avoids]

theorem Avoids.trim {e : Expansion} (h : e.Avoids c) : e.trim.Avoids c := by
  intro hmem
  -- Trimming only drops symbols.
  have hback : .char c ∈ (e.dropWhile Piece.isBlank) := by
    simpa using (List.dropWhile_sublist _).subset (List.mem_reverse.mp hmem)
  exact h ((List.dropWhile_sublist _).subset hback)

theorem avoids_under {r : Reference} {e : Expansion} : (e.under r).Avoids c ↔ e.Avoids c := by
  have hpiece : ∀ piece : Piece, piece.under r = .char c ↔ piece = .char c := by
    rintro (c' | site) <;> simp [Piece.under]
  simp [Avoids, under, hpiece]

theorem avoids_intercalate {separator : Expansion} (hs : separator.Avoids c)
    {parts : List Expansion} (h : ∀ e ∈ parts, Expansion.Avoids c e) :
    Avoids c (separator.intercalate parts) := by
  induction parts with
  | nil => simp [Avoids]
  | cons e rest ih =>
      have hrest := ih fun e' he' => h e' (List.mem_cons_of_mem _ he')
      cases rest with
      | nil => simpa using h e (List.mem_cons_self ..)
      | cons e' rest =>
          rw [List.intercalate_cons_cons, avoids_append, avoids_append]
          exact ⟨⟨h e (List.mem_cons_self ..), hs⟩, hrest⟩

theorem avoids_joinParts {separator : String} (hs : c ∉ separator.toList)
    {parts : List Expansion} (h : ∀ e ∈ parts, Expansion.Avoids c e) :
    (joinParts separator parts).Avoids c :=
  avoids_intercalate (avoids_ofString.mpr hs) fun e he => h e (List.mem_filter.mp he).1

theorem Avoids.wrap {lead trail : String} {e : Expansion} (h : e.Avoids c) (hblank : c ≠ ' ')
    (hlead : c ∉ lead.toList) (htrail : c ∉ trail.toList) : (wrap lead trail e).Avoids c := by
  have htrim := h.trim
  have hspace : Avoids c [.char ' '] := by simpa [Avoids] using hblank
  unfold Expansion.wrap
  split
  · simp [Avoids]
  · rw [avoids_append, avoids_append]
    refine ⟨⟨?_, htrim⟩, ?_⟩
    · split
      · simp [Avoids]
      · exact avoids_append.mpr ⟨avoids_ofString.mpr hlead, hspace⟩
    · split
      · simp [Avoids]
      · exact avoids_append.mpr ⟨hspace, avoids_ofString.mpr htrail⟩

end Expansion

namespace Render.Part

variable {refer : Reference → Option Expansion} {c : Char}

mutual

/-- A part writes a character only in its texts or where it refers to something. -/
theorem avoids_of_expand (hrefer : ∀ r e, refer r = some e → e.Avoids c) :
    ∀ (p : Part) {e : Expansion}, p.expand refer = some e →
    (∀ t ∈ p.texts, c ∉ t.toList) → e.Avoids c
  | .text s, _, h, htexts => by
      cases h
      exact Expansion.avoids_ofString.mpr (htexts s (by simp [texts]))
  | .bind _ _, e, h, _ => hrefer _ e h
  | .refer _ _, e, h, _ => hrefer _ e h
  | .fail _, _, h, _ => by cases h
  | .follow _, _, h, _ => by cases h
  | .join _ separator iterations, _, h, htexts => by
      obtain ⟨es, hes, rfl⟩ := Option.map_eq_some_iff.mp h
      rw [texts, List.forall_mem_cons] at htexts
      exact Expansion.avoids_joinParts htexts.1
        (avoids_of_expandEach hrefer iterations hes htexts.2)

theorem avoids_of_expandAll (hrefer : ∀ r e, refer r = some e → e.Avoids c) :
    ∀ (parts : List Part) {e : Expansion}, expandAll refer parts = some e →
    (∀ t ∈ textsAll parts, c ∉ t.toList) → e.Avoids c
  | [], _, h, _ => by
      cases h
      simp [Expansion.Avoids]
  | p :: rest, _, h, htexts => by
      obtain ⟨e₁, hp, h⟩ := Option.bind_eq_some_iff.mp h
      obtain ⟨e₂, hrest, h⟩ := Option.bind_eq_some_iff.mp h
      cases h
      rw [textsAll, List.forall_mem_append] at htexts
      exact Expansion.avoids_append.mpr
        ⟨avoids_of_expand hrefer p hp htexts.1, avoids_of_expandAll hrefer rest hrest htexts.2⟩

theorem avoids_of_expandEach (hrefer : ∀ r e, refer r = some e → e.Avoids c) :
    ∀ (iterations : List (List Part)) {es : List Expansion},
    expandEach refer iterations = some es → (∀ t ∈ textsEach iterations, c ∉ t.toList) →
    ∀ e ∈ es, Expansion.Avoids c e
  | [], _, h, _ => by
      cases h
      simp
  | parts :: rest, _, h, htexts => by
      obtain ⟨e₁, hparts, h⟩ := Option.bind_eq_some_iff.mp h
      obtain ⟨es₂, hrest, h⟩ := Option.bind_eq_some_iff.mp h
      cases h
      rw [textsEach, List.forall_mem_append] at htexts
      rw [List.forall_mem_cons]
      exact ⟨avoids_of_expandAll hrefer parts hparts htexts.1,
        avoids_of_expandEach hrefer rest hrest htexts.2⟩

end

end Render.Part

theorem Render.Scope.avoids_of_refer {scope : Scope} {columns segments : List (Option Expansion)}
    {c : Char} (hcolumns : ∀ e, some e ∈ columns → e.Avoids c)
    (hsegments : ∀ e, some e ∈ segments → e.Avoids c)
    (htables : ∀ t ∈ scope.tables, c ∉ t.appliedName.toList) :
    ∀ r e, scope.refer columns segments r = some e → e.Avoids c := by
  rintro ⟨kind, index⟩ e he
  cases kind with
  | arg =>
      obtain ⟨_, _, rfl⟩ := Option.map_eq_some_iff.mp he
      simp [Expansion.Avoids]
  | column =>
      obtain ⟨body, hbody, rfl⟩ := Option.map_eq_some_iff.mp he
      exact Expansion.avoids_under.mpr
        (hcolumns body (mem_of_declaration? (Option.join_eq_some_iff.mp hbody)))
  | table =>
      obtain ⟨t, ht, rfl⟩ := Option.map_eq_some_iff.mp he
      exact Expansion.avoids_ofString.mpr (htables t (mem_of_declaration? ht))
  | segment =>
      obtain ⟨body, hbody, rfl⟩ := Option.map_eq_some_iff.mp he
      exact Expansion.avoids_under.mpr
        (hsegments body (mem_of_declaration? (Option.join_eq_some_iff.mp hbody)))

theorem Render.Scope.avoids_of_expand {scope : Scope} {refer : Reference → Option Expansion}
    {c : Char} {e : Expansion} (he : scope.parts.bind (Part.expandAll refer) = some e)
    (htexts : ∀ t ∈ scope.texts, c ∉ t.toList)
    (hrefer : ∀ r e, refer r = some e → e.Avoids c) : e.Avoids c := by
  obtain ⟨parts, hparts, hbody⟩ := Option.bind_eq_some_iff.mp he
  refine Part.avoids_of_expandAll hrefer parts hbody ?_
  intro t ht
  refine htexts t (List.mem_append_left _ ?_)
  rwa [hparts]

theorem Render.Scope.avoids_of_tables {scope : Scope} {c : Char}
    (htexts : ∀ t ∈ scope.texts, c ∉ t.toList) :
    ∀ t ∈ scope.tables, c ∉ t.appliedName.toList :=
  fun _ ht => htexts _ (List.mem_append_right _ (List.mem_map_of_mem ht))

theorem Column.avoids_of_expand {col : Column} {c : Char} {e : Expansion}
    (he : col.expand = some e) (htexts : ∀ t ∈ col.scope.texts, c ∉ t.toList) : e.Avoids c := by
  obtain ⟨body, hbody, rfl⟩ := Option.map_eq_some_iff.mp he
  exact (Scope.avoids_of_expand hbody htexts
    (Scope.avoids_of_refer (by simp) (by simp) (Scope.avoids_of_tables htexts))).trim

/-- **An expansion writes verbatim text only**, and blanks around it. -/
theorem Segment.avoids_of_expand {c : Char} (hblank : c ≠ ' ') (s : Segment) :
    ∀ {e : Expansion}, s.expand = some e → (∀ t ∈ s.texts, c ∉ t.toList) → e.Avoids c := by
  induction s using Segment.induction with
  | step s ih =>
      intro e he htexts
      rw [texts_eq, List.forall_mem_append, List.forall_mem_append, List.forall_mem_append]
        at htexts
      obtain ⟨⟨⟨hscope, hcolumns⟩, hsegments⟩, hends⟩ := htexts
      rw [expand_eq] at he
      obtain ⟨body, hbody, rfl⟩ := Option.map_eq_some_iff.mp he
      have hrefer : ∀ r e, s.refer r = some e → e.Avoids c := by
        refine Scope.avoids_of_refer ?_ ?_ (Scope.avoids_of_tables hscope)
        · intro e hmem
          obtain ⟨col, hcol, hexpand⟩ := List.mem_map.mp hmem
          exact col.avoids_of_expand hexpand fun t ht =>
            hcolumns t (List.mem_flatMap.mpr ⟨col, hcol, ht⟩)
        · intro e hmem
          obtain ⟨child, hchild, hexpand⟩ := List.mem_map.mp hmem
          exact ih child hchild hexpand fun t ht =>
            hsegments t (List.mem_flatMap.mpr ⟨child, hchild, ht⟩)
      exact (Scope.avoids_of_expand hbody hscope hrefer).wrap hblank
        (hends s.lead (by simp)) (hends s.trail (by simp))

/-- Where no text has a `?`, there is one for each site. -/
theorem Output.Shows.count_text {o : Output} {e : Expansion}
    (h : o.Shows Positional e) (he : e.Avoids '?') :
    o.text.toList.count '?' = e.sites.length := by
  rw [Output.text, String.toList_ofList]
  induction h with
  | nil => rfl
  | @cons symbol piece o e hpiece _ ih =>
      have hsplit : Output.chars (symbol :: o) = symbol.chars ++ Output.chars o := rfl
      obtain ⟨hfirst, hrest⟩ : Piece.char '?' ≠ piece ∧ Expansion.Avoids '?' e := by
        simpa [Expansion.Avoids] using he
      rw [hsplit, List.count_append, ih hrest]
      cases hpiece with
      | char c =>
          have hc : c ≠ '?' := fun hc => hfirst (hc ▸ rfl)
          rw [Expansion.sites_char]
          simp [Symbol.chars, hc]
      | placeholder hst =>
          cases hst
          rw [Expansion.sites_argument, List.length_cons, Nat.add_comm]
          rfl

end SqlTemplate
