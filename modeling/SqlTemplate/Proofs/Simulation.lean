import SqlTemplate.Proofs.Expansion

/-!
# Rendering simulates expanding

Running the parts of a template beside expanding them. A simulation says what a
single reference does: an invariant `I` of the frame, indexed by the references
made so far, goes on to hold, and the text shows the expansion of the
declaration, with a relation `M` between placeholders and sites. From that it
follows for whole templates (`Simulates.runAll`). The invariants of the proofs
about numbering and alignment are instances.
-/

namespace SqlTemplate

open Render
open Template (Clause Item Expr parse)

/-- No placeholder of another style than `st` has been rendered. -/
def Session.OpenTo (st : Style) (s : Session) : Prop := ∀ st', s.style = some st' → st' = st

theorem Session.OpenTo.before {st : Style} {s s' : Session} (h : s'.OpenTo st)
    (hext : s.Extends s') : s.OpenTo st :=
  fun st' hst => h st' (hext.style_eq hst)

namespace Render

/-! ## Parts without custom functions -/

namespace Part

mutual

def isPlain : Part → Bool
  | .text _ => true
  | .bind _ _ => true
  | .refer _ _ => true
  | .fail _ => true
  | .follow _ => false
  | .join _ _ iterations => isPlainEach iterations

def isPlainAll : List Part → Bool
  | [] => true
  | p :: rest => p.isPlain && isPlainAll rest

def isPlainEach : List (List Part) → Bool
  | [] => true
  | parts :: rest => isPlainAll parts && isPlainEach rest

end

theorem isPlainAll_of_forall {parts : List Part} (h : ∀ p ∈ parts, p.isPlain) :
    isPlainAll parts := by
  induction parts with
  | nil => rfl
  | cons p rest ih =>
      rw [isPlainAll, Bool.and_eq_true]
      exact ⟨h p (by simp), ih fun q hq => h q (by simp [hq])⟩

theorem isPlainEach_of_forall {iterations : List (List Part)}
    (h : ∀ parts ∈ iterations, isPlainAll parts) : isPlainEach iterations := by
  induction iterations with
  | nil => rfl
  | cons parts rest ih =>
      rw [isPlainEach, Bool.and_eq_true]
      exact ⟨h parts (by simp), ih fun q hq => h q (by simp [hq])⟩

end Part

/-- The standard registry has no custom functions. -/
theorem isPlainAll_unroll (scope : Scope) (c : Clause) :
    Part.isPlainAll (unroll .standard scope c) := by
  refine Part.isPlainAll_of_forall (unroll_induction (fun _ => rfl) (fun _ _ => rfl)
    (fun _ _ _ => rfl) (fun _ _ => rfl) ?_ (fun _ _ _ => rfl) ?_ c)
  · exact fun _ _ hf => absurd hf Function.not_custom_of_lookup
  intro template separator iterations hparts
  exact Part.isPlainEach_of_forall fun parts h => Part.isPlainAll_of_forall (hparts parts h)

/-! ## From one reference to a template -/

/-- What the references of a scope stand for: arguments for their sites, tables for their
names, columns and segments for expansions that `P` ties to them. -/
structure Scope.Refers (scope : Scope) (refer : Reference → Option Expansion)
    (P : Reference → Child → Option Expansion → Prop) : Prop where
  arg : ∀ {index v}, declaration? scope.args index = some v →
    refer ⟨.arg, index⟩ = some [.argument ⟨[], index⟩]
  table : ∀ {index t}, declaration? scope.tables index = some t →
    refer ⟨.table, index⟩ = some (.ofString t.appliedName)
  column : ∀ {index c}, declaration? scope.columns index = some c →
    ∃ e?, refer ⟨.column, index⟩ = e?.map (.under ⟨.column, index⟩) ∧ P ⟨.column, index⟩ c e?
  segment : ∀ {index c}, declaration? scope.segments index = some c →
    ∃ e?, refer ⟨.segment, index⟩ = e?.map (.under ⟨.segment, index⟩) ∧ P ⟨.segment, index⟩ c e?

end Render

theorem Column.refers (c : Column) (P : Reference → Child → Option Expansion → Prop) :
    c.scope.Refers (c.scope.refer [] []) P where
  arg hv := by rw [Scope.refer, hv, Option.map_some]
  table ht := by rw [Scope.refer, ht, Option.map_some]
  column hc := absurd (mem_of_declaration? hc) (by simp [scope])
  segment hc := absurd (mem_of_declaration? hc) (by simp [scope])

theorem Segment.refers {s : Segment} {P : Reference → Child → Option Expansion → Prop}
    (hcolumn : ∀ {index c}, declaration? s.columns index = some c →
      P ⟨.column, index⟩ (Column.child .standard c) c.expand)
    (hsegment : ∀ {index child}, declaration? s.segments index = some child →
      P ⟨.segment, index⟩ (Segment.child .standard child) child.expand) :
    (s.scope .standard).Refers s.refer P where
  arg hv := by rw [refer, Scope.refer, hv, Option.map_some]
  table ht := by rw [refer, Scope.refer, ht, Option.map_some]
  column hc := by
    obtain ⟨c, hdecl, rfl⟩ := Option.map_eq_some_iff.mp (declaration?_map _ _ _ ▸ hc)
    exact ⟨c.expand, refer_column hdecl, hcolumn hdecl⟩
  segment hc := by
    obtain ⟨child, hdecl, rfl⟩ := Option.map_eq_some_iff.mp (declaration?_map _ _ _ ▸ hc)
    exact ⟨child.expand, refer_segment hdecl, hsegment hdecl⟩

namespace Render

/-- A reference to anything but an argument is the name of a table, the text that the memo
knows, or the text of a child that is rendered. -/
theorem Scope.Refers.resolve_cases {scope : Scope} {refer : Reference → Option Expansion}
    {P : Reference → Child → Option Expansion → Prop} (hrefers : scope.Refers refer P)
    {kind : DeclKind} {index : Nat} {out : Output} {f f' : Frame} (hkind : kind ≠ .arg)
    (h : scope.resolve index kind f = .ok out f') :
    (∃ name, kind = .table ∧ refer ⟨kind, index⟩ = some (.ofString name) ∧
        out = .ofString name ∧ f' = f.refer ⟨kind, index⟩) ∨
      ∃ c e?, kind ≠ .table ∧ refer ⟨kind, index⟩ = e?.map (.under ⟨kind, index⟩) ∧
        P ⟨kind, index⟩ c e? ∧
        ((f.memo.texts.lookup ⟨kind, index⟩ = some out ∧
            ¬ (f.session.style = some .positional ∧ c.hasArgs) ∧
            f' = f.refer ⟨kind, index⟩) ∨
          (((f.session.style = some .positional ∧ c.hasArgs) ∨
              f.memo.texts.lookup ⟨kind, index⟩ = none) ∧
            ∃ s', c.render f.session = .ok out s' ∧
              f' = ⟨s', { (f.refer ⟨kind, index⟩).memo with
                texts := (⟨kind, index⟩, out) :: f.memo.texts }⟩)) := by
  cases kind with
  | arg => exact absurd rfl hkind
  | table =>
      obtain ⟨t, ht, hout, hf⟩ := table_ok h
      exact .inl ⟨t.appliedName, rfl, hrefers.table ht, hout, hf⟩
  | column =>
      obtain ⟨c, hc, hcases⟩ := child_ok h
      obtain ⟨e?, hrefer, hP⟩ := hrefers.column hc
      exact .inr ⟨c, e?, by simp, hrefer, hP, hcases⟩
  | segment =>
      obtain ⟨c, hc, hcases⟩ := child_ok h
      obtain ⟨e?, hrefer, hP⟩ := hrefers.segment hc
      exact .inr ⟨c, e?, by simp, hrefer, hP, hcases⟩

/-- What one reference does in a build that is settled in no other style than `st`. -/
structure Simulates (scope : Scope) (st : Style) (refer : Reference → Option Expansion)
    (I : List Reference → Frame → Prop) (M : List Reference → Style → Nat → Site → Prop) :
    Prop where
  children : scope.ChildrenMove Session.Extends
  mono : ∀ {refs : List Reference} (more : List Reference) style slot site,
    M refs style slot site → M (refs ++ more) style slot site
  bind : ∀ {refs f marker index out f'}, I refs f → scope.bind marker index f = .ok out f' →
    f'.session.OpenTo st → ∃ e, refer ⟨.arg, index⟩ = some e ∧
      I (refs ++ [⟨.arg, index⟩]) f' ∧ out.Shows (M (refs ++ [⟨.arg, index⟩])) e
  resolve : ∀ {refs f kind index out f'}, kind ≠ .arg → I refs f →
    scope.resolve index kind f = .ok out f' → f'.session.OpenTo st →
    ∃ e, refer ⟨kind, index⟩ = some e ∧
      I (refs ++ [⟨kind, index⟩]) f' ∧ out.Shows (M (refs ++ [⟨kind, index⟩])) e

namespace Simulates

variable {scope : Scope} {st : Style} {refer : Reference → Option Expansion}
  {I : List Reference → Frame → Prop} {M : List Reference → Style → Nat → Site → Prop}

/-- An argument in the style of the session is a placeholder of that style. -/
theorem argument (h : Simulates scope st refer I M) {refs : List Reference} {f f' : Frame}
    {index : Nat} {out : Output} (hI : I refs f) (hrun : scope.argument index f = .ok out f')
    (ho : f'.session.OpenTo st) :
    ∃ e, refer ⟨.arg, index⟩ = some e ∧
      I (refs ++ [⟨.arg, index⟩]) f' ∧ out.Shows (M (refs ++ [⟨.arg, index⟩])) e := by
  obtain ⟨style, f₁, hstyle, hbind⟩ := bind_eq_ok.mp hrun
  obtain ⟨_, _, hget, hpure⟩ := bind_eq_ok.mp hstyle
  cases hget
  obtain ⟨rfl, rfl⟩ := pure_eq_ok.mp hpure
  exact h.bind hI hbind ho

mutual

theorem run (h : Simulates scope st refer I M) : ∀ (p : Part), p.isPlain →
    ∀ {refs : List Reference} {f f' : Frame} {out : Output}, I refs f →
    p.run scope f = .ok out f' → f'.session.OpenTo st →
    ∃ e, p.expand refer = some e ∧ I (refs ++ p.references) f' ∧
      out.Shows (M (refs ++ p.references)) e
  | .text s, _ => by
      intro hI hrun _
      obtain ⟨rfl, rfl⟩ := pure_eq_ok.mp hrun
      refine ⟨.ofString s, rfl, ?_, .ofString s⟩
      rwa [Part.references, List.append_nil]
  | .bind marker index, _ => by
      intro hI hrun ho
      exact h.bind hI hrun ho
  | .refer kind index, _ => by
      intro hI hrun ho
      by_cases hkind : kind = .arg
      · subst hkind
        exact h.argument hI hrun ho
      · exact h.resolve hkind hI hrun ho
  | .fail e, _ => by
      intro _ hrun _
      exact absurd hrun throw_ne_ok
  | .follow a, hplain => by
      cases hplain
  | .join template separator iterations, hplain => by
      intro hI hrun ho
      obtain ⟨outs, heach, rfl⟩ := map_eq_ok.mp hrun
      obtain ⟨es, hes, hI', hshows⟩ := runEach h template iterations hplain hI heach ho
      refine ⟨.joinParts separator es, ?_, hI', .joinParts separator hshows⟩
      rw [Part.expand, hes, Option.map_some]

theorem runAll (h : Simulates scope st refer I M) : ∀ (parts : List Part),
    Part.isPlainAll parts →
    ∀ {refs : List Reference} {f f' : Frame} {out : Output}, I refs f →
    Part.runAll scope parts f = .ok out f' → f'.session.OpenTo st →
    ∃ e, Part.expandAll refer parts = some e ∧ I (refs ++ Part.referencesAll parts) f' ∧
      out.Shows (M (refs ++ Part.referencesAll parts)) e
  | [], _ => by
      intro hI hrun _
      obtain ⟨rfl, rfl⟩ := pure_eq_ok.mp hrun
      refine ⟨[], rfl, ?_, .nil⟩
      rwa [Part.referencesAll, List.append_nil]
  | p :: rest, hplain => by
      intro hI hrun ho
      obtain ⟨hp, hrest⟩ := Bool.and_eq_true_iff.mp hplain
      obtain ⟨o₁, f₁, hrun₁, hrun⟩ := bind_eq_ok.mp hrun
      obtain ⟨o₂, f₂, hrun₂, hpure⟩ := bind_eq_ok.mp hrun
      obtain ⟨rfl, rfl⟩ := pure_eq_ok.mp hpure
      -- A style that the first part settled would still be settled at the end.
      have hext : f₁.session.Extends f₂.session :=
        (Part.runAll_moves Session.admits_extends h.children rest).ok hrun₂
      obtain ⟨e₁, he₁, hI₁, hshows₁⟩ := run h p hp hI hrun₁ (ho.before hext)
      obtain ⟨e₂, he₂, hI₂, hshows₂⟩ := runAll h rest hrest hI₁ hrun₂ ho
      refine ⟨e₁ ++ e₂, ?_, ?_, ?_⟩
      · rw [Part.expandAll, he₁, he₂]
        rfl
      · rwa [Part.referencesAll, ← List.append_assoc]
      -- The first text goes on showing its expansion while the rest is run.
      · rw [Part.referencesAll, ← List.append_assoc]
        exact List.rel_append (hshows₁.mono (h.mono _)) hshows₂

theorem runEach (h : Simulates scope st refer I M) (template : String) :
    ∀ (iterations : List (List Part)), Part.isPlainEach iterations →
    ∀ {refs : List Reference} {f f' : Frame} {outs : List Output}, I refs f →
    Part.runEach scope template iterations f = .ok outs f' → f'.session.OpenTo st →
    ∃ es, Part.expandEach refer iterations = some es ∧
      I (refs ++ Part.referencesEach iterations) f' ∧
      List.Forall₂ (Output.Shows (M (refs ++ Part.referencesEach iterations))) outs es
  | [], _ => by
      intro hI hrun _
      obtain ⟨rfl, rfl⟩ := pure_eq_ok.mp hrun
      refine ⟨[], rfl, ?_, .nil⟩
      rwa [Part.referencesEach, List.append_nil]
  | parts :: rest, hplain => by
      intro hI hrun ho
      obtain ⟨hp, hrest⟩ := Bool.and_eq_true_iff.mp hplain
      obtain ⟨o₁, f₁, hrun₁, hrun⟩ := bind_eq_ok.mp hrun
      obtain ⟨os₂, f₂, hrun₂, hpure⟩ := bind_eq_ok.mp hrun
      obtain ⟨rfl, rfl⟩ := pure_eq_ok.mp hpure
      have hext : f₁.session.Extends f₂.session :=
        (Part.runEach_moves Session.admits_extends h.children template rest).ok hrun₂
      obtain ⟨e₁, he₁, hI₁, hshows₁⟩ :=
        runAll h parts hp hI (within_eq_ok.mp hrun₁) (ho.before hext)
      obtain ⟨es₂, hes₂, hI₂, hshows₂⟩ := runEach h template rest hrest hI₁ hrun₂ ho
      refine ⟨e₁ :: es₂, ?_, ?_, ?_⟩
      · rw [Part.expandEach, he₁, hes₂]
        rfl
      · rwa [Part.referencesEach, ← List.append_assoc]
      · rw [Part.referencesEach, ← List.append_assoc]
        exact .cons (hshows₁.mono (h.mono _)) hshows₂

end

/-- The build of a template from an empty memo. -/
theorem render (h : Simulates scope st refer I M) {s s' : Session} {out : Output}
    (hI : I [] { session := s }) (hrun : scope.render .standard s = .ok out s')
    (ho : s'.OpenTo st) :
    ∃ parts e memo, scope.parts = some parts ∧ Part.expandAll refer parts = some e ∧
      I (Part.referencesAll parts) ⟨s', memo⟩ ∧ out.Shows (M (Part.referencesAll parts)) e ∧
      scope.checkUse memo.used = .ok () := by
  obtain ⟨c, memo, hparse, heval, huse⟩ := Scope.render_ok hrun
  rw [evaluate_eq_runAll] at heval
  obtain ⟨e, he, hI', hshows⟩ := h.runAll _ (isPlainAll_unroll scope c) hI heval ho
  refine ⟨unroll .standard scope c, e, memo, ?_, he, hI', hshows, huse⟩
  rw [Scope.parts, hparse]
  rfl

end Simulates

end Render

end SqlTemplate
