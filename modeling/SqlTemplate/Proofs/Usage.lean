import SqlTemplate.Proofs.Inference

/-!
# The use of declarations

A template is built only if it refers to each of its declarations. What a template
refers to can be read off its text and the numbers of its declarations: the indices
of its placeholders and calls, and those that its joins get by repeating their
templates. The references that a build takes note of are these and no others, so
neither what the memo knows, nor the style, nor what the children render to, has a
part in the check.
-/

namespace SqlTemplate

open Render
open Template (Clause Item parse)

/-! ## What a template refers to -/

/-- The kind of declaration that the function of a name takes the index of. -/
def Function.referenceKind? : String → Option DeclKind
  | "$" | "?" => some .arg
  | "c" | "col" | "column" => some .column
  | "t" | "table" => some .table
  | "s" | "seg" | "segment" => some .segment
  | _ => none

/-- How often a template is repeated in a join: once for each declaration of the kind of its
markers. -/
def Template.Clause.repeatCount (count : DeclKind → Nat) (c : Clause) : Nat :=
  ((c.markers.findSome? Function.referenceKind?).map count).getD 0

/-- The item refers to the declaration, in a template with so many declarations of each kind. A
join refers to what its template does in one of the iterations. -/
inductive Template.Item.RefersTo (count : DeclKind → Nat) : Item → Reference → Prop
  | placeholder (pos : Template.Position) (style : Style) (index : Nat) :
    RefersTo count ⟨pos, .bind style index⟩ ⟨.arg, index⟩
  | call {name arg : String} {kind : DeclKind} {index : Nat} (pos : Template.Position)
    (hkind : Function.referenceKind? name = some kind) (hindex : Number.index? arg = some index) :
    RefersTo count ⟨pos, .call name [arg]⟩ ⟨kind, index⟩
  | join {template separator : String} {inner : Clause} {i : Nat} {item : Item} {r : Reference}
    (pos : Template.Position) (hparse : parse template = .ok inner) (hpos : 0 < i)
    (hle : i ≤ inner.repeatCount count) (hitem : item ∈ inner.instantiate (Nat.repr i))
    (h : RefersTo count item r) : RefersTo count ⟨pos, .call "join" [template, separator]⟩ r

def Template.Clause.RefersTo (count : DeclKind → Nat) (c : Clause) (r : Reference) : Prop :=
  ∃ item ∈ c, item.RefersTo count r

/-- Declarations are checked by kind, and then by index. -/
def DeclKind.rank : DeclKind → Nat
  | .arg => 0
  | .column => 1
  | .table => 2
  | .segment => 3

def Render.Reference.Before (r r' : Reference) : Prop :=
  r.kind.rank < r'.kind.rank ∨ r.kind = r'.kind ∧ r.index < r'.index

namespace Render.Scope

/-- The number of declarations of a kind. -/
def count (scope : Scope) : DeclKind → Nat
  | .arg => scope.args.length
  | .column => scope.columns.length
  | .table => scope.tables.length
  | .segment => scope.segments.length

/-- The declaration exists, and the template has to refer to it; a column need not refer to its
table. -/
def Requires (scope : Scope) (r : Reference) : Prop :=
  0 < r.index ∧ r.index ≤ scope.count r.kind ∧ (r.kind = .table → scope.tablesOptional = false)

/-- The first of the declarations that the template has to refer to and does not. -/
structure FirstUnused (scope : Scope) (c : Clause) (r : Reference) : Prop where
  required : scope.Requires r
  unused : ¬ c.RefersTo scope.count r
  first : ∀ r', scope.Requires r' → ¬ c.RefersTo scope.count r' → r' = r ∨ r.Before r'

end Render.Scope

/-! ## The built-in functions -/

/-- The kind of declaration that a function takes the index of. -/
def Function.kind? : Function → Option DeclKind
  | .argument _ => some .arg
  | .column => some .column
  | .table => some .table
  | .segment => some .segment
  | .join => none
  | .custom _ => none

theorem Function.referenceKind?_eq {name : String} {f : Function}
    (h : Function.builtins.lookup name = some f) : referenceKind? name = f.kind? := by
  have hmem := mem_of_lookup h
  simp only [Function.builtins, List.mem_cons, Prod.mk.injEq, List.not_mem_nil, or_false] at hmem
  rcases hmem with ⟨rfl, rfl⟩ | ⟨rfl, rfl⟩ | ⟨rfl, rfl⟩ | ⟨rfl, rfl⟩ | ⟨rfl, rfl⟩ | ⟨rfl, rfl⟩ |
    ⟨rfl, rfl⟩ | ⟨rfl, rfl⟩ | ⟨rfl, rfl⟩ | ⟨rfl, rfl⟩ | ⟨rfl, rfl⟩ <;> rfl

theorem Function.referenceKind?_eq_none {name : String}
    (h : Function.builtins.lookup name = none) : referenceKind? name = none := by
  unfold referenceKind?
  split
  any_goals cases h
  rfl

namespace Render

theorem Scope.count_repeat? (scope : Scope) (name : String) :
    (scope.repeat? name).map Repeat.count =
      (Function.referenceKind? name).map scope.count := by
  unfold repeat?
  cases hf : Function.builtins.lookup name with
  | none =>
      rw [Function.referenceKind?_eq_none hf]
      rfl
  | some f =>
      rw [Function.referenceKind?_eq hf]
      cases f <;> rfl

/-- The markers of a join that is evaluated all have as many declarations as the first one. -/
theorem Scope.repeatCount_eq {scope : Scope} {template : String} {inner : Clause} {n : Nat}
    (h : scope.repeats template inner.markers = .ok n) : inner.repeatCount scope.count = n := by
  unfold repeats at h
  split at h
  · cases h
  · rename_i first others hmarkers
    split at h
    · cases h
    · cases h
      have hfirst : inner.markers.findSome? scope.repeat? = some first := by
        rw [← List.head?_filterMap, hmarkers, List.head?_cons]
      have hcount : (inner.markers.findSome? Function.referenceKind?).map scope.count =
          some first.count := by
        rw [List.map_findSome?, ← Option.map_some, ← hfirst, List.map_findSome?]
        congr 1
        funext name
        exact (scope.count_repeat? name).symm
      rw [Clause.repeatCount, hcount, Option.getD_some]

/-! ## What a build takes note of -/

/-- A computation that succeeds takes note of the references of `R`. -/
def Notes {α : Type} (x : ScopeM α) (R : Reference → Prop) : Prop :=
  ∀ ⦃f f' : Frame⦄ ⦃a : α⦄, x f = .ok a f' → ∀ r, r ∈ f'.memo.used ↔ r ∈ f.memo.used ∨ R r

namespace Notes

variable {α β : Type} {R R' : Reference → Prop}

theorem of_iff {x : ScopeM α} (hx : Notes x R) (h : ∀ r, R r ↔ R' r) : Notes x R' := by
  intro f f' a hrun r
  rw [hx hrun, h]

theorem pure (a : α) (h : ∀ r, ¬ R r) : Notes (pure a) R := by
  intro f f' b hrun r
  obtain ⟨_, rfl⟩ := pure_eq_ok.mp hrun
  simp [h]

theorem throw (e : Error) : Notes (throw e : ScopeM α) R :=
  fun _ _ _ hrun => absurd hrun throw_ne_ok

theorem map {x : ScopeM α} (g : α → β) (hx : Notes x R) : Notes (g <$> x) R := by
  intro f f' b hrun
  obtain ⟨a, hrun, _⟩ := map_eq_ok.mp hrun
  exact hx hrun

theorem within {raw : String} {x : ScopeM α} (hx : Notes x R) :
    Notes (SqlTemplate.within raw x) R :=
  fun _ _ _ hrun => hx (within_eq_ok.mp hrun)

theorem mapM {f : α → ScopeM β} {R : α → Reference → Prop} {xs : List α}
    (h : ∀ a ∈ xs, Notes (f a) (R a)) : Notes (xs.mapM f) fun r => ∃ a ∈ xs, R a r := by
  induction xs with
  | nil => exact .pure [] (by simp)
  | cons a rest ih =>
      intro g g'' bs hrun r
      rw [List.mapM_cons] at hrun
      obtain ⟨b, g', hfirst, hrun⟩ := bind_eq_ok.mp hrun
      obtain ⟨bs, _, hrest, hpure⟩ := bind_eq_ok.mp hrun
      obtain ⟨_, rfl⟩ := pure_eq_ok.mp hpure
      rw [ih (fun b hb => h b (by simp [hb])) hrest, h a (by simp) hfirst]
      simp [or_assoc]

/-- A placeholder is a reference to an argument. -/
theorem placeholder (scope : Scope) (marker : Style) (index : Nat) :
    Notes (scope.bind marker index) (· = ⟨.arg, index⟩) := by
  intro f f' out hrun r
  obtain ⟨st, _, _, _, _, n, _, hcase⟩ := Scope.bind_ok hrun
  have hused : f'.memo.used = ⟨.arg, index⟩ :: f.memo.used := by
    cases st with
    | indexed => rcases ScopeM.slot_ok hcase with ⟨_, rfl⟩ | ⟨_, _, rfl⟩ <;> rfl
    | positional => rw [hcase.2, Frame.refer_used]
  rw [hused, List.mem_cons, or_comm]

theorem resolve (scope : Scope) {kind : DeclKind} (hkind : kind ≠ .arg) (index : Nat) :
    Notes (scope.resolve index kind) (· = ⟨kind, index⟩) := by
  intro f f' out hrun r
  rw [Scope.used_of_resolve hkind hrun, List.mem_cons, or_comm]

/-- A call of a function that takes an index. -/
theorem indexArgument {signature : Signature} {args : List String} {kind : DeclKind}
    {k : Nat → ScopeM Output} (hk : ∀ index, Notes (k index) (· = ⟨kind, index⟩)) :
    Notes (Scope.indexArgument signature args >>= k) fun r =>
      ∃ arg index, args = [arg] ∧ Number.index? arg = some index ∧ r = ⟨kind, index⟩ := by
  unfold Scope.indexArgument
  split
  · rename_i arg
    cases hindex : Number.index? arg with
    | none => exact throw _
    | some index =>
        refine (hk index).of_iff fun r => ⟨?_, ?_⟩
        · rintro rfl
          exact ⟨arg, index, rfl, hindex, rfl⟩
        · rintro ⟨_, _, ⟨⟩, hindex', rfl⟩
          rw [hindex] at hindex'
          cases hindex'
          rfl
  · exact throw _

end Notes

/-- What refers to one declaration by its index refers to nothing else. -/
theorem refersTo_call_iff {count : DeclKind → Nat} {pos : Template.Position} {name : String}
    {args : List String} {kind : DeclKind} (hkind : Function.referenceKind? name = some kind)
    {r : Reference} :
    Item.RefersTo count ⟨pos, .call name args⟩ r ↔
      ∃ arg index, args = [arg] ∧ Number.index? arg = some index ∧ r = ⟨kind, index⟩ := by
  constructor
  · intro h
    cases h with
    | @call _ arg kind' index _ hkind' hindex =>
        obtain rfl : kind = kind' := Option.some.inj (hkind.symm.trans hkind')
        exact ⟨arg, index, rfl, hindex, rfl⟩
    | join => cases hkind
  · rintro ⟨arg, index, rfl, hindex, rfl⟩
    exact .call pos hkind hindex

section Evaluation

variable {registry : Registry} (scope : Scope)

/-- A join takes note of what its iterations refer to. -/
theorem join_notes {pos : Template.Position} {template separator : String}
    (hiterations : ∀ inner, parse template = .ok inner → ∀ i,
      Notes (evaluate registry scope (inner.instantiate (Nat.repr i)))
        ((inner.instantiate (Nat.repr i)).RefersTo scope.count)) :
    Notes (join registry scope template separator)
      (Item.RefersTo scope.count ⟨pos, .call "join" [template, separator]⟩) := by
  unfold join
  cases hparse : parse template with
  | error cause => exact .throw _
  | ok inner =>
      dsimp only
      cases hrepeats : scope.repeats template inner.markers with
      | error fault => exact .throw _
      | ok n =>
          have hiteration : ∀ i ∈ List.range n, Notes
              (within template (evaluate registry scope (inner.instantiate (Nat.repr (i + 1)))))
              ((inner.instantiate (Nat.repr (i + 1))).RefersTo scope.count) :=
            fun i _ => (hiterations inner hparse (i + 1)).within
          refine ((Notes.mapM hiteration).map (joinParts separator)).of_iff fun r => ?_
          have hcount := Scope.repeatCount_eq hrepeats
          constructor
          · rintro ⟨i, hi, item, hitem, h⟩
            have hlt := List.mem_range.mp hi
            exact .join pos hparse (Nat.succ_pos i) (by omega) hitem h
          · intro h
            cases h with
            | @join _ _ inner' i item _ _ hparse' hpos hle hitem h =>
                obtain rfl : inner = inner' := Except.ok.inj (hparse.symm.trans hparse')
                refine ⟨i - 1, List.mem_range.mpr (by omega), item, ?_, h⟩
                rwa [Nat.sub_add_cancel hpos]

/-- **A build takes note of the references of its template**, and of no others, if the functions
it names are in the registry what they are among the built-in ones. Induction on the room of the
clause: the template of a join is shorter than the call it stands in. -/
theorem evaluate_notes (c : Clause)
    (hc : ∀ name, c.Names name → registry.find? name = Function.builtins.lookup name) :
    Notes (evaluate registry scope c) (c.RefersTo scope.count) := by
  induction h : c.room using Nat.strongRecOn generalizing c with
  | _ room ih =>
      subst h
      rw [evaluate_eq]
      refine .map _ (.mapM fun item hitem => ?_)
      obtain ⟨pos, expr⟩ := item
      cases expr with
      | text s => exact .pure _ nofun
      | marker name => exact .throw _
      | bind style index =>
          refine (Notes.placeholder scope style index).of_iff fun r => ⟨?_, ?_⟩
          · rintro rfl
            exact .placeholder pos style index
          · rintro ⟨⟩
            rfl
      | call name args =>
          simp only [evaluateItem, hc name (.call hitem rfl)]
          cases hf : Function.builtins.lookup name with
          | none => exact .throw _
          | some f =>
              have hkind := Function.referenceKind?_eq hf
              dsimp only
              cases f with
              | argument marker =>
                  refine (Notes.indexArgument ?_).of_iff fun r => (refersTo_call_iff hkind).symm
                  exact fun index => .placeholder scope marker index
              | column =>
                  refine (Notes.indexArgument ?_).of_iff fun r => (refersTo_call_iff hkind).symm
                  exact fun index => .resolve scope (by decide) index
              | table =>
                  refine (Notes.indexArgument ?_).of_iff fun r => (refersTo_call_iff hkind).symm
                  exact fun index => .resolve scope (by decide) index
              | segment =>
                  refine (Notes.indexArgument ?_).of_iff fun r => (refersTo_call_iff hkind).symm
                  exact fun index => .resolve scope (by decide) index
              | custom f => exact absurd hf Function.not_custom_of_lookup
              | join =>
                  obtain rfl : name = "join" := Function.eq_join_of_lookup hf
                  match args with
                  | [template, separator] =>
                      refine join_notes scope fun inner hparse i => ?_
                      have hroom := room_lt_of_parse hitem rfl hparse
                      refine ih _ (by rwa [Clause.room_instantiate]) _ ?_ rfl
                      -- What an iteration names, the template of the join names.
                      intro other hother
                      exact hc other (.join hitem rfl hparse hother.of_instantiate)
                  | [] => exact .throw _
                  | [_] => exact .throw _
                  | _ :: _ :: _ :: _ => exact .throw _

end Evaluation

/-! ## The check -/

theorem Scope.mem_required_iff {scope : Scope} {r : Reference} :
    r ∈ scope.required ↔ scope.Requires r := by
  obtain ⟨kind, index⟩ := r
  unfold required Requires
  split <;> cases kind <;> simp_all [mem_references_iff, count]

/-- The declarations are checked in their order. -/
theorem Scope.required_before (scope : Scope) : scope.required.Pairwise Reference.Before := by
  let kinds : List DeclKind := [.arg, .column, .table, .segment]
  have hranks : kinds.Pairwise fun kind kind' => kind.rank < kind'.rank := by decide
  have hall : (kinds.flatMap fun kind => references kind (scope.count kind)).Pairwise
      Reference.Before := by
    refine List.pairwise_flatMap.mpr ⟨fun kind _ => ?_, hranks.imp ?_⟩
    · rw [references, List.pairwise_map]
      exact List.pairwise_lt_range.imp fun hij => .inr ⟨rfl, Nat.succ_lt_succ hij⟩
    · intro kind kind' hlt r hr r' hr'
      refine .inl ?_
      rwa [(mem_references_iff.mp hr).1, (mem_references_iff.mp hr').1]
  refine hall.sublist ?_
  simp only [kinds, List.flatMap_cons, List.flatMap_nil, List.append_nil, required,
    List.append_assoc, count, List.append_sublist_append_left]
  split
  · exact List.sublist_append_right _ _
  · exact List.Sublist.refl _

/-- The check passes, or it fails at the first declaration that was not referred to. -/
theorem Scope.checkUse_cases {scope : Scope} {c : Clause} {used : List Reference}
    (hused : ∀ r, r ∈ used ↔ c.RefersTo scope.count r) :
    (scope.checkUse used = .ok () ∧ ∀ r, scope.Requires r → c.RefersTo scope.count r) ∨
      ∃ r, scope.checkUse used = .error (.unusedDeclaration r.kind r.index) ∧
        scope.FirstUnused c r := by
  unfold checkUse
  cases hfind : scope.required.find? (· ∉ used) with
  | none =>
      refine .inl ⟨rfl, fun r hr => ?_⟩
      have := List.find?_eq_none.mp hfind r (mem_required_iff.mpr hr)
      rw [← hused]
      simpa using this
  | some r =>
      refine .inr ⟨r, rfl, ?_⟩
      obtain ⟨hr, before, after, hsplit, hbefore⟩ := List.find?_eq_some_iff_append.mp hfind
      have hmem : r ∈ scope.required := by simp [hsplit]
      refine ⟨mem_required_iff.mp hmem, ?_, fun r' hr' hunused => ?_⟩
      · rw [← hused]
        simpa using hr
      · rw [← hused] at hunused
        rw [← mem_required_iff, hsplit, List.mem_append, List.mem_cons] at hr'
        rcases hr' with hr' | rfl | hr'
        · exact absurd (by simpa using hbefore r' hr') hunused
        · exact .inl rfl
        · have hpairwise := scope.required_before
          rw [hsplit, List.pairwise_append, List.pairwise_cons] at hpairwise
          exact .inr (hpairwise.2.1.1 r' hr')

theorem Scope.FirstUnused.unique {scope : Scope} {c : Clause} {r r' : Reference}
    (h : scope.FirstUnused c r) (h' : scope.FirstUnused c r') : r = r' := by
  rcases h.first r' h'.required h'.unused with heq | hbefore
  · exact heq.symm
  · rcases h'.first r h.required h.unused with heq | hafter
    · exact heq
    · unfold Reference.Before at hbefore hafter
      rcases hbefore with hlt | ⟨heq, hlt⟩
      · rcases hafter with hlt' | ⟨heq', _⟩
        · omega
        · rw [heq'] at hlt
          omega
      · rw [heq] at hafter
        omega

section Check

variable {registry : Registry} {scope : Scope} {c : Clause} {s : Session} {body : Output}
  {f : Frame}

theorem Scope.render_of_evaluate (hparse : parse scope.raw = .ok c)
    (heval : evaluate registry scope c { session := s } = .ok body f) :
    scope.render registry s = within scope.raw (fun _ => scope.conclude (.ok body f)) s := by
  rw [Scope.render_of_parse_ok hparse]
  unfold within Scope.build
  rw [heval]

theorem Scope.render_of_used (hparse : parse scope.raw = .ok c)
    (heval : evaluate registry scope c { session := s } = .ok body f)
    (hcheck : scope.checkUse f.memo.used = .ok ()) :
    scope.render registry s = .ok body f.session := by
  rw [render_of_evaluate hparse heval]
  simp only [within, Scope.conclude, hcheck]

theorem Scope.render_of_unused {cause : Cause} (hparse : parse scope.raw = .ok c)
    (heval : evaluate registry scope c { session := s } = .ok body f)
    (hcheck : scope.checkUse f.memo.used = .error cause) :
    scope.render registry s = .error ⟨[scope.raw], cause⟩ f.session := by
  rw [render_of_evaluate hparse heval]
  simp only [within, Scope.conclude, hcheck]
  rfl

end Check

/-- The template of a segment or of a column, and what is built of it. -/
inductive Builds (registry : Registry) : Scope → RenderM Output → Prop
  | segment (s : Segment) : Builds registry (s.scope registry) (s.render registry)
  | column (c : Column) : Builds registry c.scope (c.render registry)

theorem Builds.exists_map {registry : Registry} {scope : Scope} {x : RenderM Output}
    (h : Builds registry scope x) : ∃ g, x = g <$> scope.render registry := by
  cases h with
  | segment s => exact ⟨_, s.render_eq registry⟩
  | column c => exact ⟨_, rfl⟩

/-- **The check of declarations is exact.** When the body of a template has been evaluated, the
build fails if and only if the template does not refer to some declaration that it has to refer
to; the error names the first of these by kind and index. Otherwise it succeeds. -/
theorem Builds.use_exact {registry : Registry} (hr : registry.HasBuiltins) {scope : Scope}
    {x : RenderM Output} (h : Builds registry scope x) {c : Clause}
    (hparse : parse scope.raw = .ok c) (hc : ∀ name, c.Names name → Function.isBuiltin name)
    {s : Session} {body : Output} {f : Frame}
    (heval : evaluate registry scope c { session := s } = .ok body f) :
    (∀ kind index, (∃ s', x s = .error ⟨[scope.raw], .unusedDeclaration kind index⟩ s') ↔
      scope.FirstUnused c ⟨kind, index⟩) ∧
    ((∃ kind index s', x s = .error ⟨[scope.raw], .unusedDeclaration kind index⟩ s') ↔
      ∃ r, scope.Requires r ∧ ¬ c.RefersTo scope.count r) ∧
    ((∃ out, x s = .ok out f.session) ↔
      ∀ r, scope.Requires r → c.RefersTo scope.count r) := by
  obtain ⟨g, rfl⟩ := h.exists_map
  have hused : ∀ r, r ∈ f.memo.used ↔ c.RefersTo scope.count r := by
    intro r
    have := evaluate_notes scope c (fun name hname => hr name (hc name hname)) heval r
    simpa using this
  rcases Scope.checkUse_cases hused with ⟨hcheck, hall⟩ | ⟨r, hcheck, hfirst⟩
  · have hok := Scope.render_of_used hparse heval hcheck
    have hnone : ∀ e s', (g <$> scope.render registry) s ≠ .error e s' := by
      rw [map_of_ok hok]
      nofun
    refine ⟨fun kind index => iff_of_false ?_ ?_, iff_of_false ?_ ?_, iff_of_true ?_ hall⟩
    · rintro ⟨s', herror⟩
      exact hnone _ _ herror
    · exact fun hfirst => hfirst.unused (hall _ hfirst.required)
    · rintro ⟨_, _, s', herror⟩
      exact hnone _ _ herror
    · rintro ⟨r, hrequired, hunused⟩
      exact hunused (hall r hrequired)
    · exact ⟨g body, map_of_ok hok g⟩
  · have herror : (g <$> scope.render registry) s =
        .error ⟨[scope.raw], .unusedDeclaration r.kind r.index⟩ f.session :=
      map_of_error (Scope.render_of_unused hparse heval hcheck) g
    refine ⟨fun kind index => ⟨?_, ?_⟩, iff_of_true ?_ ?_, iff_of_false ?_ ?_⟩
    · rintro ⟨s', herror'⟩
      rw [herror] at herror'
      cases herror'
      exact hfirst
    · intro hfirst'
      obtain rfl := hfirst.unique hfirst'
      exact ⟨f.session, herror⟩
    · exact ⟨r.kind, r.index, f.session, herror⟩
    · exact ⟨r, hfirst.required, hfirst.unused⟩
    · rintro ⟨out, hok⟩
      rw [herror] at hok
      cases hok
    · exact fun hall => hfirst.unused (hall r hfirst.required)

end Render

/-- Both arguments and both columns are referred to in a join within a join, the second table
nowhere. -/
def Segment.usageSample : Segment where
  raw := "#join('#join(''#$'', '' + '') = #c', ', ') AND #t1.x AND #s1"
  args := [.int 1, .int 2]
  columns := [⟨⟨"t", ""⟩, "#t1.y + $1", [.int 5]⟩, ⟨⟨"t", ""⟩, "#t1.z", []⟩]
  tables := [⟨"t", ""⟩, ⟨"u", ""⟩]
  segments := [{ raw := "w" }]

theorem Segment.use_exact_sample : ∃ c body f,
    parse usageSample.raw = .ok c ∧
    evaluate .standard (usageSample.scope .standard) c { session := {} } = .ok body f ∧
    body.text = "$1 + $2 = t.y + $3, $1 + $2 = t.z AND t.x AND w" ∧
    (usageSample.scope .standard).FirstUnused c ⟨.table, 2⟩ ∧
    ∃ s', usageSample.render .standard {} =
      .error ⟨[usageSample.raw], .unusedDeclaration .table 2⟩ s' := by
  obtain ⟨body, f, hrun, hcheck⟩ := exists_ok_of_check
    (x := liftCause (parse usageSample.raw) >>=
      evaluate .standard (usageSample.scope .standard)) (s := { session := {} })
    (fun body _ => body.text == "$1 + $2 = t.y + $3, $1 + $2 = t.z AND t.x AND w")
    (by decide +kernel)
  obtain ⟨c, _, hlift, heval⟩ := bind_eq_ok.mp hrun
  obtain ⟨hparse, rfl⟩ := liftCause_eq_ok.mp hlift
  obtain ⟨e, s', hrender, herror⟩ := exists_error_of_check
    (x := usageSample.render .standard) (s := {})
    (fun e _ => e == ⟨[usageSample.raw], .unusedDeclaration .table 2⟩) (by decide +kernel)
  obtain rfl := eq_of_beq herror
  have hbuiltins : usageSample.UsesBuiltins := usesBuiltins_of_check 3 (by decide +kernel)
  have hexact := Builds.use_exact Registry.hasBuiltins_standard (.segment usageSample) hparse
    (hbuiltins _ usageSample.raw_mem_templates c hparse) heval
  exact ⟨c, body, f, hparse, heval, eq_of_beq hcheck,
    (hexact.1 .table 2).mp ⟨s', hrender⟩, s', hrender⟩

end SqlTemplate
