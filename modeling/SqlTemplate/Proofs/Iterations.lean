import Mathlib.Data.List.TakeWhile
import SqlTemplate.Proofs.Parity

/-!
# Joins

A join repeats its template once for each declaration of the kind that its markers refer
to. `Scope.Unaligned` says, without an order of the markers, when there is no such number.
Then the join fails before anything is evaluated. Otherwise the iterations run one after
the other, and the text of the join is that of the iterations which are not blank.
-/

namespace SqlTemplate

open Render
open Template (Clause Item parse)

/-! ## Iterations -/

/-- What an item of the template is in an iteration: a marker is a call with the given argument,
and everything else stays. -/
inductive Template.Item.Becomes (arg : String) : Item → Item → Prop
  | marker (pos : Template.Position) (name : String) :
    Becomes arg ⟨pos, .marker name⟩ ⟨pos, .call name [arg]⟩
  | other {item : Item} (h : ∀ name, item.expr ≠ .marker name) : Becomes arg item item

theorem Template.Clause.becomes_instantiate (arg : String) (c : Clause) :
    List.Forall₂ (Item.Becomes arg) c (c.instantiate arg) := by
  induction c with
  | nil => exact .nil
  | cons item c ih =>
      refine .cons ?_ ih
      obtain ⟨pos, expr⟩ := item
      cases expr with
      | marker name => exact .marker pos name
      | _ => exact .other nofun

namespace Render

section Runs

variable {α β : Type}

/-- The computations run one after the other from the first frame to the last, with these
results. -/
inductive Runs (body : α → ScopeM β) : List α → Frame → List β → Frame → Prop
  | nil (f : Frame) : Runs body [] f [] f
  | cons {a : α} {as : List α} {b : β} {bs : List β} {f f' f'' : Frame}
    (h : body a f = .ok b f') (hrest : Runs body as f' bs f'') :
    Runs body (a :: as) f (b :: bs) f''

/-- One of the computations is the first to fail. The ones behind it do not run. -/
def FailsFirst (body : α → ScopeM β) (as : List α) (f : Frame) (e : Error) (f' : Frame) : Prop :=
  ∃ before a after bs g, as = before ++ a :: after ∧ Runs body before f bs g ∧
    body a g = .error e f'

variable {body : α → ScopeM β} {a : α} {as : List α} {b : β} {f f' f'' : Frame}

theorem FailsFirst.head {e : Error} (h : body a f = .error e f') :
    FailsFirst body (a :: as) f e f' :=
  ⟨[], a, as, [], f, rfl, .nil f, h⟩

theorem FailsFirst.tail {e : Error} (h : body a f = .ok b f')
    (hrest : FailsFirst body as f' e f'') : FailsFirst body (a :: as) f e f'' := by
  obtain ⟨before, a', after, bs, g, rfl, hruns, herror⟩ := hrest
  exact ⟨a :: before, a', after, b :: bs, g, rfl, .cons h hruns, herror⟩

/-- All of the computations run, or one of them fails first and its error leaves the build of the
template. -/
theorem mapM_within_cases (raw : String) (body : α → ScopeM β) (as : List α) (f : Frame) :
    (∃ bs f', Runs body as f bs f' ∧ as.mapM (fun a => within raw (body a)) f = .ok bs f') ∨
      ∃ e f', FailsFirst body as f e f' ∧
        as.mapM (fun a => within raw (body a)) f = .error (e.within raw) f' := by
  induction as generalizing f with
  | nil => exact .inl ⟨[], f, .nil f, rfl⟩
  | cons a as ih =>
      rw [List.mapM_cons]
      cases hbody : body a f with
      | error e f' =>
          have hwithin : within raw (body a) f = .error (e.within raw) f' := by
            unfold within
            rw [hbody]
          exact .inr ⟨e, f', .head hbody, bind_of_error hwithin _⟩
      | ok b f' =>
          rw [bind_of_ok (within_eq_ok.mpr hbody)]
          rcases ih f' with ⟨bs, f'', hruns, hok⟩ | ⟨e, f'', hfails, herror⟩
          · exact .inl ⟨b :: bs, f'', .cons hbody hruns, bind_of_ok hok _⟩
          · exact .inr ⟨e, f'', .tail hbody hfails, bind_of_error herror _⟩

end Runs

end Render

/-! ## Alignment -/

/-- Columns and tables can be repeated together. -/
def DeclKind.family : DeclKind → Family
  | .arg => .argument
  | .column | .table => .column
  | .segment => .segment

namespace Render

/-- There is no number of iterations for the markers: none refers to declarations, or two refer
to declarations of different families or in different numbers. -/
inductive Scope.Unaligned (scope : Scope) (markers : List String) : Prop
  | nothing (h : ∀ name ∈ markers, Function.referenceKind? name = none)
  | families {name name' : String} {kind kind' : DeclKind} (hname : name ∈ markers)
    (hname' : name' ∈ markers) (hkind : Function.referenceKind? name = some kind)
    (hkind' : Function.referenceKind? name' = some kind') (hne : kind.family ≠ kind'.family)
  | counts {name name' : String} {kind kind' : DeclKind} (hname : name ∈ markers)
    (hname' : name' ∈ markers) (hkind : Function.referenceKind? name = some kind)
    (hkind' : Function.referenceKind? name' = some kind') (heq : kind.family = kind'.family)
    (hne : scope.count kind ≠ scope.count kind')

theorem Scope.repeat?_eq (scope : Scope) (name : String) :
    scope.repeat? name =
      (Function.referenceKind? name).map fun kind => ⟨name, kind.family, scope.count kind⟩ := by
  unfold repeat?
  cases hf : Function.builtins.lookup name with
  | none =>
      rw [Function.referenceKind?_eq_none hf]
      rfl
  | some f =>
      rw [Function.referenceKind?_eq hf]
      cases f <;> rfl

theorem Scope.mem_repeats_iff {scope : Scope} {markers : List String} {r : Repeat} :
    r ∈ markers.filterMap scope.repeat? ↔ ∃ name ∈ markers, ∃ kind,
      Function.referenceKind? name = some kind ∧ r = ⟨name, kind.family, scope.count kind⟩ := by
  simp only [List.mem_filterMap, repeat?_eq, Option.map_eq_some_iff, eq_comm (b := r)]

theorem Repeat.fault?_eq_none_iff {template : String} {first other : Repeat} :
    first.fault? template other = none ↔
      first.family = other.family ∧ first.count = other.count := by
  unfold fault?
  split
  · simp_all
  · split <;> simp_all

theorem Scope.unaligned_of_repeats {scope : Scope} {template : String} {markers : List String}
    {fault : JoinFault} (h : scope.repeats template markers = .error fault) :
    scope.Unaligned markers := by
  unfold repeats at h
  split at h
  · rename_i hnone
    refine .nothing fun name hname => ?_
    rw [← Option.map_eq_none_iff, ← repeat?_eq]
    exact List.filterMap_eq_nil_iff.mp hnone name hname
  · rename_i first others hsome
    split at h
    · rename_i fault' hfind
      obtain ⟨other, hother, hfault⟩ := List.exists_of_findSome?_eq_some hfind
      obtain ⟨name, hname, kind, hkind, rfl⟩ :=
        mem_repeats_iff.mp (hsome ▸ List.mem_cons_self : first ∈ _)
      obtain ⟨name', hname', kind', hkind', rfl⟩ :=
        mem_repeats_iff.mp (hsome ▸ List.mem_cons_of_mem _ hother : other ∈ _)
      have hdiffer : ¬ (kind.family = kind'.family ∧ scope.count kind = scope.count kind') := by
        intro hagree
        rw [Repeat.fault?_eq_none_iff.mpr hagree] at hfault
        cases hfault
      by_cases hfamily : kind.family = kind'.family
      · exact .counts hname hname' hkind hkind' hfamily fun hcount => hdiffer ⟨hfamily, hcount⟩
      · exact .families hname hname' hkind hkind' hfamily
    · cases h

theorem Scope.aligned_of_repeats {scope : Scope} {template : String} {markers : List String}
    {n : Nat} (h : scope.repeats template markers = .ok n) :
    ¬ scope.Unaligned markers ∧ ∀ name ∈ markers, ∀ kind,
      Function.referenceKind? name = some kind → scope.count kind = n := by
  unfold repeats at h
  split at h
  · cases h
  · rename_i first others hsome
    split at h
    · cases h
    · rename_i hfind
      cases h
      -- Every marker that refers to declarations agrees with the first of them.
      have hagree : ∀ r ∈ markers.filterMap scope.repeat?,
          first.family = r.family ∧ first.count = r.count := by
        intro r hr
        rw [hsome] at hr
        rcases List.mem_cons.mp hr with rfl | hr
        · exact ⟨rfl, rfl⟩
        · exact Repeat.fault?_eq_none_iff.mp (List.findSome?_eq_none_iff.mp hfind r hr)
      have hmarker : ∀ name ∈ markers, ∀ kind, Function.referenceKind? name = some kind →
          first.family = kind.family ∧ first.count = scope.count kind :=
        fun name hname kind hkind =>
          hagree _ (mem_repeats_iff.mpr ⟨name, hname, kind, hkind, rfl⟩)
      refine ⟨fun h => ?_, fun name hname kind hkind => (hmarker name hname kind hkind).2.symm⟩
      cases h with
      | nothing hnone =>
          obtain ⟨name, hname, kind, hkind, -⟩ :=
            mem_repeats_iff.mp (hsome ▸ List.mem_cons_self : first ∈ _)
          rw [hnone name hname] at hkind
          cases hkind
      | families hname hname' hkind hkind' hne =>
          exact hne ((hmarker _ hname _ hkind).1.symm.trans (hmarker _ hname' _ hkind').1)
      | counts hname hname' hkind hkind' _ hne =>
          exact hne ((hmarker _ hname _ hkind).2.symm.trans (hmarker _ hname' _ hkind').2)

end Render

/-! ## Separated texts -/

theorem Text.trim_eq_nil_iff {α : Type} {p : α → Bool} {xs : List α} :
    trim p xs = [] ↔ ∀ x ∈ xs, p x = true := by
  constructor
  · intro h
    have hdrop : xs.dropWhile p = [] := by
      cases hxs : xs.dropWhile p with
      | nil => rfl
      | cons x rest =>
          have hx := List.head?_dropWhile_not p xs
          rw [hxs] at hx
          rw [trim, hxs] at h
          exact absurd h (trimEnd_cons_ne_nil (by simpa using hx))
    exact List.dropWhile_eq_nil_iff.mp hdrop
  · intro h
    rw [trim, List.dropWhile_eq_nil_iff.mpr h, trimEnd_nil]

theorem Text.trimmed_eq_empty_iff {s : String} :
    trimmed s = "" ↔ ∀ c ∈ s.toList, isBlank c = true := by
  rw [← trim_eq_nil_iff, trimmed, String.ofList_eq_empty_iff]

theorem Symbol.isBlank_iff {symbol : Symbol} :
    symbol.isBlank = true ↔ ∀ c ∈ symbol.chars, Text.isBlank c = true := by
  cases symbol with
  | char c => simp [isBlank, chars]
  | placeholder style slot =>
      refine iff_of_false nofun fun h => ?_
      cases style with
      | indexed => exact absurd (h '$' (by simp [chars])) (by decide)
      | positional => exact absurd (h '?' (by simp [chars])) (by decide)

namespace Output

theorem isBlank_iff {o : Output} : o.isBlank = true ↔ Text.trimmed o.text = "" := by
  rw [Text.trimmed_eq_empty_iff, text, String.toList_ofList, isBlank, List.all_eq_true]
  simp only [Symbol.isBlank_iff, chars, List.mem_flatMap]
  constructor
  · rintro h c ⟨symbol, hsymbol, hc⟩
    exact h symbol hsymbol c hc
  · intro h symbol hsymbol c hc
    exact h c ⟨symbol, hsymbol, hc⟩

/-- The outputs with more than blanks in their text. -/
def nonBlank (outs : List Output) : List Output :=
  outs.filter fun out => Text.trimmed out.text ≠ ""

theorem text_append (o o' : Output) : (o ++ o').text = o.text ++ o'.text := by
  simp [text]

theorem text_join (separator : String) (outs : List Output) :
    (join separator outs).text = separator.intercalate (outs.map text) := by
  unfold join
  induction outs with
  | nil => simp [text]
  | cons out outs ih =>
      cases outs with
      | nil => simp
      | cons out' outs =>
          rw [List.intercalate_cons_cons, text_append, text_append, ih, text_ofString,
            List.map_cons, List.map_cons, List.map_cons, String.intercalate_cons_cons]

end Output

namespace Render

theorem joinParts_eq (separator : String) (outs : List Output) :
    joinParts separator outs = .join separator (Output.nonBlank outs) := by
  have hblank : ∀ out : Output, (!out.isBlank) = decide (Text.trimmed out.text ≠ "") := by
    intro out
    rw [Bool.eq_iff_iff, decide_eq_true_iff, ne_eq, ← Output.isBlank_iff]
    simp
  rw [joinParts, Output.nonBlank]
  simp only [hblank]

/-! ## Joins -/

section Join

variable {registry : Registry} {scope : Scope}

variable (registry scope) in
theorem evaluate_singleton (item : Item) :
    evaluate registry scope [item] = evaluateItem registry scope item := by
  rw [evaluate_eq, List.mapM_cons, List.mapM_nil]
  simp

theorem evaluate_join (hr : registry.HasBuiltins) (pos : Template.Position)
    (template separator : String) :
    evaluate registry scope [⟨pos, .call "join" [template, separator]⟩] =
      join registry scope template separator := by
  have hfind : registry.find? "join" = some .join := hr "join" rfl
  rw [evaluate_singleton]
  simp only [evaluateItem, hfind]
  rfl

variable (registry scope) in
/-- A join fails at once, or its iterations run from the first to the last. -/
theorem join_cases (separator : String) {template : String} {c : Clause}
    (hparse : parse template = .ok c) (f : Frame) :
    (∃ fault, scope.repeats template c.markers = .error fault ∧
      join registry scope template separator f = .error (.ofCause (.unalignedJoin fault)) f) ∨
    ∃ n, scope.repeats template c.markers = .ok n ∧
      ((∃ outs f', Runs (fun i => evaluate registry scope (c.instantiate (Nat.repr i)))
            (List.range' 1 n) f outs f' ∧
          join registry scope template separator f =
            .ok (.join separator (Output.nonBlank outs)) f') ∨
        ∃ e f', FailsFirst (fun i => evaluate registry scope (c.instantiate (Nat.repr i)))
            (List.range' 1 n) f e f' ∧
          join registry scope template separator f = .error (e.within template) f') := by
  unfold join
  rw [hparse]
  dsimp only
  cases hrepeats : scope.repeats template c.markers with
  | error fault => exact .inl ⟨fault, rfl, rfl⟩
  | ok n =>
      refine .inr ⟨n, rfl, ?_⟩
      have hrange : (List.range n).mapM (fun i =>
            within template (evaluate registry scope (c.instantiate (Nat.repr (i + 1))))) =
          (List.range' 1 n).mapM fun i =>
            within template (evaluate registry scope (c.instantiate (Nat.repr i))) := by
        rw [List.range'_eq_map_range, List.mapM_map]
        simp only [Function.comp_def, Nat.add_comm]
      dsimp only
      rw [hrange]
      rcases mapM_within_cases template
        (fun i => evaluate registry scope (c.instantiate (Nat.repr i))) (List.range' 1 n) f with
        ⟨outs, f', hruns, hok⟩ | ⟨e, f', hfails, herror⟩
      · refine .inl ⟨outs, f', hruns, ?_⟩
        rw [map_of_ok hok, joinParts_eq]
      · exact .inr ⟨e, f', hfails, map_of_error herror _⟩

/-- **A join is the separated list of its iterations that are not blank**, or it is rejected before
anything is evaluated. It is rejected exactly when its markers are unaligned, and then what the
build remembers is what it was. Otherwise its iterations run one after the other for the indices
from one on, as many as the markers have declarations: in each the markers are calls with its
index. The first that fails has its error reported under the template; else the text is that of
the iterations with more than blanks, with the separator between each two, and what the others
did to the session stays as well. -/
theorem join_exact (hr : registry.HasBuiltins) (scope : Scope)
    {template : String} {c : Clause} (hparse : parse template = .ok c) (separator : String)
    (pos : Template.Position) (f : Frame) :
    let run := evaluate registry scope [⟨pos, .call "join" [template, separator]⟩] f
    let iteration i := evaluate registry scope (c.instantiate (Nat.repr i))
    (∀ i, List.Forall₂ (Item.Becomes (Nat.repr i)) c (c.instantiate (Nat.repr i))) ∧
    ((∃ fault f', run = .error (.ofCause (.unalignedJoin fault)) f') ↔
      scope.Unaligned c.markers) ∧
    (scope.Unaligned c.markers → ∃ fault, run = .error (.ofCause (.unalignedJoin fault)) f) ∧
    (¬ scope.Unaligned c.markers → ∃ n,
      (∀ name ∈ c.markers, ∀ kind,
        Function.referenceKind? name = some kind → scope.count kind = n) ∧
      ((∃ outs out f', Runs iteration (List.range' 1 n) f outs f' ∧ run = .ok out f' ∧
          out = .join separator (Output.nonBlank outs) ∧
          out.text = separator.intercalate ((outs.map Output.text).filter
            fun part => Text.trimmed part ≠ "")) ∨
        ∃ e f', FailsFirst iteration (List.range' 1 n) f e f' ∧
          run = .error (e.within template) f')) := by
  dsimp only
  refine ⟨fun i => c.becomes_instantiate _, ?_⟩
  rw [evaluate_join hr]
  rcases join_cases registry scope separator hparse f with
    ⟨fault, hrepeats, herror⟩ | ⟨n, hrepeats, hrun⟩
  · have hunaligned := Scope.unaligned_of_repeats hrepeats
    exact ⟨iff_of_true ⟨fault, f, herror⟩ hunaligned, fun _ => ⟨fault, herror⟩,
      fun haligned => absurd hunaligned haligned⟩
  · obtain ⟨haligned, hcount⟩ := Scope.aligned_of_repeats hrepeats
    refine ⟨iff_of_false ?_ haligned, fun hunaligned => absurd hunaligned haligned,
      fun _ => ⟨n, hcount, ?_⟩⟩
    · -- An error of an iteration lies in the build of the template.
      rintro ⟨fault, f', hrejected⟩
      rcases hrun with ⟨outs, f'', -, hok⟩ | ⟨e, f'', -, herror⟩
      · rw [hok] at hrejected
        cases hrejected
      · rw [herror] at hrejected
        cases hrejected
    · rcases hrun with ⟨outs, f', hruns, hok⟩ | ⟨e, f', hfails, herror⟩
      · refine .inl ⟨outs, _, f', hruns, hok, rfl, ?_⟩
        rw [Output.text_join, Output.nonBlank, List.filter_map, Function.comp_def]
      · exact .inr ⟨e, f', hfails, herror⟩

end Join

end Render

/-- The first and the third of the segments are blank; there are fewer columns than segments. -/
def Segment.joinSample : Segment where
  raw := ""
  columns := [⟨⟨"t", ""⟩, "x", []⟩]
  segments := [{ raw := " " }, { raw := "a" }, { raw := "" }, { raw := "b" }]

theorem Render.join_exact_sample :
    let scope := Segment.joinSample.scope .standard
    let f : Frame := { session := {} }
    (∃ inner outs out f', parse " #s" = .ok inner ∧
      Runs (fun i => evaluate .standard scope (inner.instantiate (Nat.repr i)))
        (List.range' 1 4) f outs f' ∧
      evaluate .standard scope [⟨.start, .call "join" [" #s", ";"]⟩] f = .ok out f' ∧
      out.text = " a; b") ∧
    ∃ fault, evaluate .standard scope [⟨.start, .call "join" ["#s#f#c", ";"]⟩] f =
      .error (.ofCause (.unalignedJoin fault)) f := by
  intro scope f
  constructor
  · obtain ⟨out, f', hrun, htext⟩ := exists_ok_of_check
      (x := evaluate .standard scope [⟨.start, .call "join" [" #s", ";"]⟩]) (s := f)
      (fun out _ => out.text == " a; b") (by decide +kernel)
    have hparse : parse " #s" = .ok [⟨.start, .text " "⟩, ⟨⟨1, 1, 2⟩, .marker "s"⟩] := by
      decide +kernel
    obtain ⟨-, hrejected, -, hiterations⟩ :=
      join_exact Registry.hasBuiltins_standard scope hparse ";" .start f
    have haligned : ¬ scope.Unaligned ["s"] := by
      intro h
      obtain ⟨_, _, herror⟩ := hrejected.mpr h
      rw [hrun] at herror
      cases herror
    obtain ⟨n, hcount, ⟨outs, _, _, hruns, hok, -⟩ | ⟨_, _, -, herror⟩⟩ := hiterations haligned
    · obtain rfl : 4 = n := hcount "s" List.mem_cons_self .segment rfl
      rw [hrun] at hok
      cases hok
      exact ⟨_, outs, out, f', hparse, hruns, hrun, eq_of_beq htext⟩
    · rw [hrun] at herror
      cases herror
  · have hparse : parse "#s#f#c" =
        .ok [⟨.start, .marker "s"⟩, ⟨⟨2, 1, 3⟩, .marker "f"⟩, ⟨⟨4, 1, 5⟩, .marker "c"⟩] := by
      decide +kernel
    have hsegment : "s" ∈ Clause.markers [⟨.start, .marker "s"⟩, ⟨⟨2, 1, 3⟩, .marker "f"⟩,
        ⟨⟨4, 1, 5⟩, .marker "c"⟩] := by simp [Clause.markers]
    have hcolumn : "c" ∈ Clause.markers [⟨.start, .marker "s"⟩, ⟨⟨2, 1, 3⟩, .marker "f"⟩,
        ⟨⟨4, 1, 5⟩, .marker "c"⟩] := by simp [Clause.markers]
    exact (join_exact Registry.hasBuiltins_standard scope hparse ";" .start f).2.2.1
      (.families hsegment hcolumn rfl rfl (by decide))

end SqlTemplate
