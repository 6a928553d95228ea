import Mathlib.Data.List.Forall2
import SqlTemplate.Proofs.Extension

/-!
# Expansions

The text of a segment with everything written out and nothing remembered: each
reference stands for the whole expansion of what it refers to. An argument is
left as the site it comes from, the way from the root to its owner and its index
there, so an expansion says which argument stands where and not what number it
has. `Output.Shows` ties rendered output to an expansion: the same characters,
and placeholders exactly where the arguments are.
-/

namespace SqlTemplate

open Render

/-- The place of an argument in a tree: the references that lead from the root to its owner,
and its index among the arguments of the owner. -/
structure Site where
  owner : List Reference
  index : Nat
deriving DecidableEq, Repr

/-- The site as seen one level further up. -/
def Site.under (r : Reference) (site : Site) : Site := ⟨r :: site.owner, site.index⟩

theorem Site.under_injective (r : Reference) : Function.Injective (Site.under r) := by
  rintro ⟨owner, index⟩ ⟨owner', index'⟩ h
  simp only [under, Site.mk.injEq, List.cons.injEq, true_and] at h
  rw [h.1, h.2]

inductive Piece
  | char (c : Char)
  | argument (site : Site)
deriving DecidableEq, Repr

/-- An argument is never blank. -/
def Piece.isBlank : Piece → Bool
  | .char c => Text.isBlank c
  | .argument _ => false

def Piece.under (r : Reference) : Piece → Piece
  | .char c => .char c
  | .argument site => .argument (site.under r)

def Piece.site? : Piece → Option Site
  | .char _ => none
  | .argument site => some site

abbrev Expansion := List Piece

namespace Expansion

def ofString (s : String) : Expansion := s.toList.map .char

def trim (e : Expansion) : Expansion := Text.trim Piece.isBlank e

def isBlank (e : Expansion) : Bool := e.all Piece.isBlank

/-- The iterations of a join, separated, without those that are blank. -/
def joinParts (separator : String) (parts : List Expansion) : Expansion :=
  (ofString separator).intercalate (parts.filter fun (part : Expansion) => !part.isBlank)

/-- A body between lead and trail; nothing if the body is blank. -/
def wrap (lead trail : String) (body : Expansion) : Expansion :=
  match body.trim with
  | [] => []
  | body =>
    (if lead = "" then [] else ofString lead ++ [.char ' ']) ++ body ++
      (if trail = "" then [] else .char ' ' :: ofString trail)

/-- The sites of the arguments, one for each occurrence. -/
def sites (e : Expansion) : List Site := e.filterMap Piece.site?

/-- The expansion of a declaration as part of that of its owner. -/
def under (r : Reference) (e : Expansion) : Expansion := e.map (Piece.under r)

/-- The output in which every argument is written as `mark` has it. -/
def write (mark : Site → Symbol) (e : Expansion) : Output :=
  e.map fun
    | .char c => .char c
    | .argument site => mark site

end Expansion

/-! ## What the expansion of a tree is -/

namespace Render.Part

mutual

/-- The expansion of a part, given those of the declarations. A call of a custom function has
none. -/
def expand (refer : Reference → Option Expansion) : Part → Option Expansion
  | .text s => some (.ofString s)
  | .bind _ index => refer ⟨.arg, index⟩
  | .refer kind index => refer ⟨kind, index⟩
  | .fail _ => none
  | .follow _ => none
  | .join _ separator iterations => (expandEach refer iterations).map (.joinParts separator)

def expandAll (refer : Reference → Option Expansion) : List Part → Option Expansion
  | [] => some []
  | p :: rest => do
    let e ← p.expand refer
    let others ← expandAll refer rest
    return e ++ others

def expandEach (refer : Reference → Option Expansion) :
    List (List Part) → Option (List Expansion)
  | [] => some []
  | parts :: rest => do
    let e ← expandAll refer parts
    let others ← expandEach refer rest
    return e :: others

end

mutual

/-- The references that running a part makes, in order. -/
def references : Part → List Reference
  | .text _ => []
  | .bind _ index => [⟨.arg, index⟩]
  | .refer kind index => [⟨kind, index⟩]
  | .fail _ => []
  | .follow _ => []
  | .join _ _ iterations => referencesEach iterations

def referencesAll : List Part → List Reference
  | [] => []
  | p :: rest => p.references ++ referencesAll rest

def referencesEach : List (List Part) → List Reference
  | [] => []
  | parts :: rest => referencesAll parts ++ referencesEach rest

end

end Render.Part

namespace Render.Scope

/-- The expansion of a declaration, given those of the columns and the segments. -/
def refer (scope : Scope) (columns segments : List (Option Expansion)) :
    Reference → Option Expansion
  | ⟨.arg, index⟩ => (declaration? scope.args index).map fun _ => [.argument ⟨[], index⟩]
  | ⟨.column, index⟩ => (declaration? columns index).join.map (.under ⟨.column, index⟩)
  | ⟨.table, index⟩ => (declaration? scope.tables index).map fun t => .ofString t.appliedName
  | ⟨.segment, index⟩ => (declaration? segments index).join.map (.under ⟨.segment, index⟩)

/-- The parts of the template of a scope, with the built-in functions. -/
def parts (scope : Scope) : Option (List Part) :=
  (Template.parse scope.raw).toOption.map (unroll .standard scope)

/-- The expansion of the template of a scope. -/
def expand (scope : Scope) (columns segments : List (Option Expansion)) : Option Expansion :=
  scope.parts.bind (Part.expandAll (scope.refer columns segments))

end Render.Scope

def Column.expand (c : Column) : Option Expansion :=
  (c.scope.expand [] []).map .trim

namespace Segment

mutual

/-- **The full expansion of a segment**: no text is ever used twice. -/
def expand : Segment → Option Expansion
  | ⟨raw, args, columns, tables, segments, lead, trail⟩ =>
    ((scope .standard ⟨raw, args, columns, tables, segments, lead, trail⟩).expand
      (columns.map Column.expand) (expandEach segments)).map (.wrap lead trail)

def expandEach : List Segment → List (Option Expansion)
  | [] => []
  | s :: rest => s.expand :: expandEach rest

end

theorem expandEach_eq_map (segments : List Segment) :
    expandEach segments = segments.map expand := by
  induction segments with
  | nil => rfl
  | cons s rest ih => rw [expandEach, ih, List.map_cons]

/-- The expansions of the declarations of a segment. -/
def refer (s : Segment) : Reference → Option Expansion :=
  (s.scope .standard).refer (s.columns.map Column.expand) (s.segments.map expand)

theorem refer_column {s : Segment} {index : Nat} {c : Column}
    (h : declaration? s.columns index = some c) :
    s.refer ⟨.column, index⟩ = c.expand.map (.under ⟨.column, index⟩) := by
  rw [refer, Scope.refer, declaration?_map, h]
  rfl

theorem refer_segment {s : Segment} {index : Nat} {child : Segment}
    (h : declaration? s.segments index = some child) :
    s.refer ⟨.segment, index⟩ = child.expand.map (.under ⟨.segment, index⟩) := by
  rw [refer, Scope.refer, declaration?_map, h]
  rfl

theorem expand_eq (s : Segment) :
    s.expand =
      ((s.scope .standard).parts.bind (Part.expandAll s.refer)).map (.wrap s.lead s.trail) := by
  obtain ⟨raw, args, columns, tables, segments, lead, trail⟩ := s
  rw [expand, expandEach_eq_map]
  rfl

/-- The references that rendering the template of a segment makes, in order. -/
def references (s : Segment) : List Reference :=
  ((s.scope .standard).parts.map Part.referencesAll).getD []

/-- The arguments of the owner that the references lead to. -/
def ownerArgs? : List Reference → Segment → Option (List Value)
  | [], s => some s.args
  | ⟨.column, index⟩ :: [], s => (declaration? s.columns index).map Column.args
  | ⟨.segment, index⟩ :: path, s => (declaration? s.segments index).bind (ownerArgs? path)
  | _, _ => none

/-- The argument at a site of the tree. -/
def argument? (s : Segment) (site : Site) : Option Value :=
  (ownerArgs? site.owner s).bind (declaration? · site.index)

end Segment

/-! ## Sites -/

section Lists

variable {α β : Type}

theorem filterMap_dropWhile {p : α → Bool} {g : α → Option β} (h : ∀ x, p x → g x = none)
    (xs : List α) : (xs.dropWhile p).filterMap g = xs.filterMap g := by
  induction xs with
  | nil => rfl
  | cons x xs ih =>
      rw [List.dropWhile_cons]
      split
      · rename_i hx
        rw [ih, List.filterMap_cons_none (h x hx)]
      · rfl

theorem filterMap_trim {p : α → Bool} {g : α → Option β} (h : ∀ x, p x → g x = none)
    (xs : List α) : (Text.trim p xs).filterMap g = xs.filterMap g := by
  rw [Text.trim, Text.trimEnd, List.filterMap_reverse, filterMap_dropWhile h,
    List.filterMap_reverse, List.reverse_reverse, filterMap_dropWhile h]

theorem filterMap_intercalate {separator : List α} {g : α → Option β}
    (hs : separator.filterMap g = []) (parts : List (List α)) :
    (separator.intercalate parts).filterMap g = parts.flatMap (List.filterMap g) := by
  induction parts with
  | nil => rfl
  | cons xs rest ih =>
      cases rest with
      | nil => simp
      | cons ys rest =>
          rw [List.intercalate_cons_cons, List.filterMap_append, List.filterMap_append, hs, ih,
            List.append_nil]
          rfl

end Lists

namespace Expansion

@[simp] theorem sites_nil : sites [] = [] := rfl

@[simp] theorem sites_char (c : Char) (e : Expansion) : sites (.char c :: e) = e.sites := rfl

@[simp] theorem sites_argument (site : Site) (e : Expansion) :
    sites (.argument site :: e) = site :: e.sites := rfl

@[simp] theorem sites_append (e e' : Expansion) : sites (e ++ e') = e.sites ++ e'.sites :=
  List.filterMap_append

@[simp] theorem sites_ofString (s : String) : (ofString s).sites = [] := by
  simp [sites, ofString, List.filterMap_map, Function.comp_def, Piece.site?]

theorem site?_of_isBlank (piece : Piece) (h : piece.isBlank = true) : piece.site? = none := by
  cases piece with
  | char c => rfl
  | argument site => cases h

@[simp] theorem sites_trim (e : Expansion) : e.trim.sites = e.sites :=
  filterMap_trim site?_of_isBlank e

theorem sites_eq_nil_of_isBlank {e : Expansion} (h : e.isBlank = true) : e.sites = [] := by
  rw [sites, List.filterMap_eq_nil_iff]
  intro piece hpiece
  exact site?_of_isBlank piece (List.all_eq_true.mp h piece hpiece)

@[simp] theorem sites_under (r : Reference) (e : Expansion) :
    (e.under r).sites = e.sites.map (Site.under r) := by
  rw [sites, sites, under, List.filterMap_map, List.map_filterMap]
  congr 1
  funext piece
  cases piece <;> rfl

@[simp] theorem sites_wrap (lead trail : String) (e : Expansion) :
    (wrap lead trail e).sites = e.sites := by
  unfold wrap
  rw [← sites_trim e]
  split
  · rename_i hnil
    rw [hnil]
  · have hlead : sites (if lead = "" then [] else ofString lead ++ [.char ' ']) = [] := by
      split
      · rfl
      · rw [sites_append, sites_ofString]
        rfl
    have htrail : sites (if trail = "" then [] else .char ' ' :: ofString trail) = [] := by
      split
      · rfl
      · exact sites_ofString trail
    rw [sites_append, sites_append, hlead, htrail, List.nil_append, List.append_nil]

theorem sites_joinParts (separator : String) (parts : List Expansion) :
    (joinParts separator parts).sites = parts.flatMap sites := by
  refine (filterMap_intercalate (sites_ofString separator) _).trans ?_
  show List.flatMap sites _ = _
  induction parts with
  | nil => rfl
  | cons e rest ih =>
      rw [List.filter_cons]
      cases h : e.isBlank with
      | true => simp [ih, sites_eq_nil_of_isBlank h]
      | false => simp [ih]

end Expansion

/-- The sites in the expansion of a declaration. -/
def sitesAt (refer : Reference → Option Expansion) (r : Reference) : List Site :=
  ((refer r).map Expansion.sites).getD []

namespace Render.Part

variable {refer : Reference → Option Expansion}

mutual

/-- The sites of a part are those that its references lead to, in order. -/
theorem sites_of_expand : ∀ (p : Part) {e : Expansion}, p.expand refer = some e →
    e.sites = p.references.flatMap (sitesAt refer)
  | .text s, e, h => by
      cases h
      exact Expansion.sites_ofString s
  | .bind _ index, e, h => by
      have hrefer : refer ⟨.arg, index⟩ = some e := h
      simp [references, sitesAt, hrefer]
  | .refer kind index, e, h => by
      have hrefer : refer ⟨kind, index⟩ = some e := h
      simp [references, sitesAt, hrefer]
  | .fail _, e, h => by cases h
  | .follow _, e, h => by cases h
  | .join _ separator iterations, e, h => by
      obtain ⟨es, hes, rfl⟩ := Option.map_eq_some_iff.mp h
      rw [Expansion.sites_joinParts, references]
      exact sites_of_expandEach iterations hes

theorem sites_of_expandAll : ∀ (parts : List Part) {e : Expansion},
    expandAll refer parts = some e → e.sites = (referencesAll parts).flatMap (sitesAt refer)
  | [], e, h => by
      cases h
      rfl
  | p :: rest, e, h => by
      obtain ⟨e₁, he₁, h⟩ := Option.bind_eq_some_iff.mp h
      obtain ⟨e₂, he₂, h⟩ := Option.bind_eq_some_iff.mp h
      cases h
      rw [Expansion.sites_append, referencesAll, List.flatMap_append, sites_of_expand p he₁,
        sites_of_expandAll rest he₂]

theorem sites_of_expandEach : ∀ (iterations : List (List Part)) {es : List Expansion},
    expandEach refer iterations = some es →
    es.flatMap Expansion.sites = (referencesEach iterations).flatMap (sitesAt refer)
  | [], es, h => by
      cases h
      rfl
  | parts :: rest, es, h => by
      obtain ⟨e₁, he₁, h⟩ := Option.bind_eq_some_iff.mp h
      obtain ⟨es₂, hes₂, h⟩ := Option.bind_eq_some_iff.mp h
      cases h
      rw [List.flatMap_cons, referencesEach, List.flatMap_append, sites_of_expandAll parts he₁,
        sites_of_expandEach rest hes₂]

end

end Render.Part

theorem Render.Scope.sites_of_expand {scope : Scope} {refer : Reference → Option Expansion}
    {e : Expansion} (h : scope.parts.bind (Part.expandAll refer) = some e) :
    e.sites = ((scope.parts.map Part.referencesAll).getD []).flatMap (sitesAt refer) := by
  obtain ⟨parts, hparts, he⟩ := Option.bind_eq_some_iff.mp h
  rw [hparts]
  exact Part.sites_of_expandAll parts he

theorem sitesAt_under {refer : Reference → Option Expansion} {r : Reference}
    {e? : Option Expansion} (h : refer r = e?.map (.under r)) :
    sitesAt refer r = ((e?.map Expansion.sites).getD []).map (Site.under r) := by
  rw [sitesAt, h]
  cases e? with
  | none => rfl
  | some e => exact Expansion.sites_under r e

/-! ## Output that shows an expansion -/

/-- The symbol stands for the piece; `M` relates a placeholder to the site of its argument. -/
inductive Symbol.Shows (M : Style → Nat → Site → Prop) : Symbol → Piece → Prop
  | char (c : Char) : Shows M (.char c) (.char c)
  | placeholder {st : Style} {slot : Nat} {site : Site} (h : M st slot site) :
    Shows M (.placeholder st slot) (.argument site)

/-- The output is the expansion with placeholders in the place of the arguments. -/
abbrev Output.Shows (M : Style → Nat → Site → Prop) (o : Output) (e : Expansion) : Prop :=
  List.Forall₂ (Symbol.Shows M) o e

/-- The placeholder is positional, whatever it stands for. -/
def Positional (st : Style) (_ : Nat) (_ : Site) : Prop := st = .positional

section Lists

variable {α β : Type} {R : α → β → Prop}

theorem forall₂_dropWhile {p : α → Bool} {q : β → Bool} (hpq : ∀ x y, R x y → p x = q y)
    {xs : List α} {ys : List β} (h : List.Forall₂ R xs ys) :
    List.Forall₂ R (xs.dropWhile p) (ys.dropWhile q) := by
  induction h with
  | nil => exact .nil
  | @cons x y xs ys hxy htail ih =>
      rw [List.dropWhile_cons, List.dropWhile_cons, hpq x y hxy]
      split
      · exact ih
      · exact .cons hxy htail

theorem forall₂_trim {p : α → Bool} {q : β → Bool} (hpq : ∀ x y, R x y → p x = q y)
    {xs : List α} {ys : List β} (h : List.Forall₂ R xs ys) :
    List.Forall₂ R (Text.trim p xs) (Text.trim q ys) := by
  -- The end is trimmed as the front of the reversed list.
  have hfront := forall₂_dropWhile hpq h
  exact List.rel_reverse (forall₂_dropWhile hpq (List.rel_reverse hfront))

theorem forall₂_all {p : α → Bool} {q : β → Bool} (hpq : ∀ x y, R x y → p x = q y)
    {xs : List α} {ys : List β} (h : List.Forall₂ R xs ys) : xs.all p = ys.all q := by
  induction h with
  | nil => rfl
  | @cons x y xs ys hxy htail ih => rw [List.all_cons, List.all_cons, hpq x y hxy, ih]

theorem forall₂_intercalate {separator : List α} {separator' : List β}
    (hs : List.Forall₂ R separator separator') {xs : List (List α)} {ys : List (List β)}
    (h : List.Forall₂ (List.Forall₂ R) xs ys) :
    List.Forall₂ R (separator.intercalate xs) (separator'.intercalate ys) := by
  induction h with
  | nil => exact .nil
  | @cons x y xs ys hxy htail ih =>
      cases htail with
      | nil => simpa using hxy
      | cons hxy' htail' =>
          rw [List.intercalate_cons_cons, List.intercalate_cons_cons]
          exact List.rel_append (List.rel_append hxy hs) ih

end Lists

namespace Output.Shows

variable {M M' : Style → Nat → Site → Prop} {o : Output} {e : Expansion}

theorem mono (h : o.Shows M e) (hM : ∀ st slot site, M st slot site → M' st slot site) :
    o.Shows M' e := by
  refine List.Forall₂.imp ?_ h
  intro symbol piece hshows
  cases hshows with
  | char c => exact .char c
  | placeholder h => exact .placeholder (hM _ _ _ h)

/-- Every argument of the expansion has a placeholder. -/
theorem of_mem_sites (h : o.Shows M e) {site : Site} (hsite : site ∈ e.sites) :
    ∃ st slot, M st slot site := by
  induction h with
  | nil => cases hsite
  | @cons symbol piece o e hpiece _ ih =>
      cases hpiece with
      | char c => exact ih hsite
      | @placeholder st slot site' hm =>
          rcases List.mem_cons.mp hsite with rfl | hsite
          · exact ⟨st, slot, hm⟩
          · exact ih hsite

theorem under {r : Reference} (h : o.Shows M e)
    (hM : ∀ st slot site, M st slot site → M' st slot (site.under r)) :
    o.Shows M' (e.under r) := by
  rw [Expansion.under, Output.Shows, List.forall₂_map_right_iff]
  refine List.Forall₂.imp ?_ h
  intro symbol piece hshows
  cases hshows with
  | char c => exact .char c
  | placeholder h => exact .placeholder (hM _ _ _ h)

theorem ofString (s : String) : (Output.ofString s).Shows M (Expansion.ofString s) := by
  rw [Output.ofString, Expansion.ofString, Output.Shows, List.forall₂_map_left_iff,
    List.forall₂_map_right_iff, List.forall₂_same]
  intro c _
  exact .char c

theorem isBlank_eq (symbol : Symbol) (piece : Piece) (h : symbol.Shows M piece) :
    symbol.isBlank = piece.isBlank := by
  cases h <;> rfl

theorem trim (h : o.Shows M e) : o.trim.Shows M e.trim :=
  forall₂_trim isBlank_eq h

theorem joinParts (separator : String) {os : List Output} {es : List Expansion}
    (h : List.Forall₂ (Output.Shows M) os es) :
    (Render.joinParts separator os).Shows M (Expansion.joinParts separator es) := by
  refine forall₂_intercalate (ofString separator) (List.rel_filter ?_ h)
  intro o e hoe
  have hblank : Output.isBlank o = Expansion.isBlank e := forall₂_all isBlank_eq hoe
  simp only [hblank]

theorem wrap (lead trail : String) (h : o.Shows M e) :
    (Segment.wrap lead trail o).Shows M (Expansion.wrap lead trail e) := by
  -- The bodies are blank together, so lead and trail are put around both or neither.
  have htrim := h.trim
  unfold Segment.wrap Expansion.wrap
  cases hbody : e.trim with
  | nil =>
      rw [hbody, Output.Shows, List.forall₂_nil_right_iff] at htrim
      rw [htrim]
      exact .nil
  | cons piece body =>
      rw [hbody] at htrim
      obtain ⟨symbol, rest, hpiece, hrest, ho⟩ := List.forall₂_cons_right_iff.mp htrim
      rw [ho]
      refine List.rel_append (List.rel_append ?_ (.cons hpiece hrest)) ?_
      · split
        · exact .nil
        · exact List.rel_append (ofString lead) (.cons (.char ' ') .nil)
      · split
        · exact .nil
        · exact .cons (.char ' ') (ofString trail)

/-- When `M` leaves no choice, the output is the expansion written out. -/
theorem eq_write {mark : Site → Symbol}
    (hM : ∀ st slot site, M st slot site → mark site = .placeholder st slot)
    (h : o.Shows M e) : o = e.write mark := by
  induction h with
  | nil => rfl
  | @cons symbol piece o e hpiece _ ih =>
      rw [ih]
      cases hpiece with
      | char c => rfl
      | placeholder hm =>
          show _ = mark _ :: Expansion.write mark e
          rw [hM _ _ _ hm]

end Output.Shows

end SqlTemplate
