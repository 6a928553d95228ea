import SqlTemplate.Proofs.Iterations
import SqlTemplate.Proofs.Prefixes
import SqlTemplate.Proofs.Register
import SqlTemplate.Proofs.Spans

/-!
# Table names in the FROM clause

The text that declares a table in the FROM clause is a template, with the name and the
alias spelled in it, while a reference to a table copies its name. So the two agree for a
name that is copied as a template too, and for no other (`from_texts`): with closed quotes,
no sign of a function outside of them, and signs of placeholders in even numbers.
-/

namespace SqlTemplate

open Render
open Template (Clause Copied Expr Inert Item copied_iff parse)

/-! ## Texts without blanks at the ends -/

namespace Text

/-- No blank stands at either end. -/
def Tight (s : String) : Prop :=
  (∀ c ∈ s.toList.head?, isBlank c = false) ∧ ∀ c ∈ s.toList.getLast?, isBlank c = false

instance (s : String) : Decidable (Tight s) :=
  @instDecidableAnd _ _ (Option.decidableForallMem _) (Option.decidableForallMem _)

/-- The ends of a text are those of what stands there. -/
theorem Tight.append {s t u : String} (hs : Tight s) (hu : Tight u) (hne : s ≠ "") (hne' : u ≠ "") :
    Tight (s ++ t ++ u) := by
  have hs' : s.toList ≠ [] := fun h => hne (String.toList_eq_nil_iff.mp h)
  have hu' : u.toList ≠ [] := fun h => hne' (String.toList_eq_nil_iff.mp h)
  constructor
  · intro c hc
    rw [String.toList_append, String.toList_append, List.append_assoc,
      List.head?_append_of_ne_nil _ hs'] at hc
    exact hs.1 c hc
  · intro c hc
    rw [String.toList_append, List.getLast?_append_of_ne_nil _ hu'] at hc
    exact hu.2 c hc

variable {α : Type} {p : α → Bool} {xs ys : List α}

theorem dropWhile_eq_self (h : ∀ x ∈ xs.head?, p x = false) : xs.dropWhile p = xs := by
  cases xs with
  | nil => rfl
  | cons x xs => rw [List.dropWhile_cons, h x rfl, if_neg Bool.false_ne_true]

theorem trimEnd_eq_self (h : ∀ x ∈ xs.getLast?, p x = false) : trimEnd p xs = xs := by
  rw [trimEnd, dropWhile_eq_self (by rwa [List.head?_reverse]), List.reverse_reverse]

theorem trim_eq_self (hhead : ∀ x ∈ xs.head?, p x = false)
    (hlast : ∀ x ∈ xs.getLast?, p x = false) : trim p xs = xs := by
  rw [trim, dropWhile_eq_self hhead, trimEnd_eq_self hlast]

theorem trimmed_of_tight {s : String} (h : Tight s) : trimmed s = s := by
  rw [trimmed, trim_eq_self h.1 h.2, String.ofList_toList]

/-- What begins and ends with no blank stays whole, whatever comes behind. -/
theorem prefix_trim (hne : xs ≠ []) (hhead : ∀ x ∈ xs.head?, p x = false)
    (hlast : ∀ x ∈ xs.getLast?, p x = false) : xs <+: trim p (xs ++ ys) := by
  have hdrop : (xs ++ ys).dropWhile p = xs ++ ys :=
    dropWhile_eq_self (by rwa [List.head?_append_of_ne_nil _ hne])
  rw [trim, hdrop, trimEnd, List.reverse_append, List.dropWhile_append]
  split
  · refine ⟨[], ?_⟩
    rw [List.append_nil, dropWhile_eq_self (by rwa [List.head?_reverse]), List.reverse_reverse]
  · rw [List.reverse_append, List.reverse_reverse]
    exact List.prefix_append xs _

theorem length_trim_le (p : α → Bool) (xs : List α) : (trim p xs).length ≤ xs.length :=
  (length_trimEnd_le p _).trans (List.dropWhile_sublist p).length_le

end Text

/-! ## Templates without declarations -/

/-- The number of characters that are copied. -/
def Template.Expr.textLength : Expr → Nat
  | .text s => s.length
  | _ => 0

def Template.Clause.textLength (c : Clause) : Nat := (c.map (·.expr.textLength)).sum

namespace Template

theorem Expr.Spans.textLength_le {e : Expr} {span : List Char} (h : e.Spans span) :
    e.textLength ≤ span.length ∧ ((∀ s, e ≠ .text s) → e.textLength < span.length) := by
  cases h with
  | text _ => exact ⟨by simp [textLength], fun hne => absurd rfl (hne _)⟩
  | _ => simp [textLength]

/-- What is not copied takes its place in the template too. -/
theorem Clause.textLength_le {c : Clause} {spans : List (List Char)}
    (h : List.Forall₂ (fun (item : Item) span => item.expr.Spans span) c spans) :
    c.textLength ≤ spans.flatten.length ∧
      ((∃ item ∈ c, ∀ s, item.expr ≠ .text s) → c.textLength < spans.flatten.length) := by
  induction h with
  | nil => simp [textLength]
  | @cons item span c spans hitem _ ih =>
      obtain ⟨hle, hlt⟩ := hitem.textLength_le
      simp only [textLength, List.map_cons, List.sum_cons, List.flatten_cons,
        List.length_append] at ih ⊢
      refine ⟨by omega, ?_⟩
      rintro ⟨item', hmem, hnot⟩
      rcases List.mem_cons.mp hmem with rfl | hmem
      · have := hlt hnot
        omega
      · have := ih.2 ⟨item', hmem, hnot⟩
        omega

/-- A template that is not copied has fewer characters to copy than it has. -/
theorem textLength_lt {raw : String} {c : Clause} (hparse : parse raw = .ok c)
    (h : ¬ Copied raw.toList) : c.textLength < raw.length := by
  have hreading := parse_eq_ok_iff.mp hparse
  obtain ⟨spans, hcover, -, hspans⟩ := hreading.exists_spans
  have hlt := (Clause.textLength_le hspans).2 (by
    by_contra hall
    push Not at hall
    exact h (hreading.copied_of_texts hall))
  rwa [hcover, String.length_toList] at hlt

end Template

namespace Render

/-- The template declares nothing. -/
def Scope.Bare (scope : Scope) : Prop := ∀ kind, scope.count kind = 0

section Bare

variable {scope : Scope} {f f' : Frame} {out : Output}

theorem declaration?_bare {α : Type} {xs : List α} {index : Nat} {a : α} (h : xs.length = 0) :
    declaration? xs index ≠ some a := by
  rw [List.length_eq_zero_iff.mp h]
  intro hsome
  cases mem_of_declaration? hsome

theorem Scope.Bare.bind_ne_ok (h : scope.Bare) (marker : Style) (index : Nat) :
    scope.bind marker index f ≠ .ok out f' := by
  intro hrun
  obtain ⟨_, _, _, _, hdeclared, _⟩ := bind_ok hrun
  exact declaration?_bare (h .arg) hdeclared

theorem Scope.Bare.resolve_ne_ok (h : scope.Bare) (kind : DeclKind) (index : Nat) :
    scope.resolve index kind f ≠ .ok out f' := by
  intro hrun
  cases kind with
  | arg =>
      obtain ⟨_, _, -, hrun⟩ := bind_eq_ok.mp hrun
      exact h.bind_ne_ok _ index hrun
  | column =>
      obtain ⟨_, hdeclared, _⟩ := child_ok hrun
      exact declaration?_bare (h .column) hdeclared
  | table =>
      obtain ⟨_, hdeclared, _⟩ := table_ok hrun
      exact declaration?_bare (h .table) hdeclared
  | segment =>
      obtain ⟨_, hdeclared, _⟩ := child_ok hrun
      exact declaration?_bare (h .segment) hdeclared

/-- A join without declarations has no iterations. -/
theorem Scope.Bare.join_eq_nil (h : scope.Bare) {registry : Registry}
    {template separator : String} (hrun : join registry scope template separator f = .ok out f') :
    out = [] := by
  cases hparse : parse template with
  | error cause =>
      unfold join at hrun
      rw [hparse] at hrun
      cases hrun
  | ok c =>
      rcases join_cases registry scope separator hparse f with
        ⟨_, -, herror⟩ | ⟨n, hrepeats, hcases⟩
      · rw [herror] at hrun
        cases hrun
      · have hcount : scope.count = fun _ => 0 := funext h
        have hn := repeatCount_eq hrepeats
        rw [hcount, Clause.repeatCount] at hn
        obtain rfl : n = 0 := by
          rw [← hn]
          cases c.markers.findSome? Function.referenceKind? <;> rfl
        rcases hcases with ⟨outs, _, hruns, hok⟩ | ⟨_, _, _, herror⟩
        · cases hruns
          rw [hok] at hrun
          cases hrun
          rfl
        · rw [herror] at hrun
          cases hrun

theorem Scope.Bare.indexArgument_ne_ok {signature : Signature} {args : List String}
    {k : Nat → ScopeM Output} (hk : ∀ index f, k index f ≠ .ok out f') :
    (indexArgument signature args >>= k) f ≠ .ok out f' := by
  intro hrun
  obtain ⟨index, f₁, -, hrun⟩ := bind_eq_ok.mp hrun
  exact hk index f₁ hrun

/-- What an item of a template without declarations adds is text that stands there. -/
theorem Scope.Bare.length_item_le (h : scope.Bare) {item : Item}
    (hrun : evaluateItem .standard scope item f = .ok out f') :
    out.length ≤ item.expr.textLength := by
  obtain ⟨pos, expr⟩ := item
  cases expr with
  | text s =>
      obtain ⟨rfl, -⟩ := pure_eq_ok.mp hrun
      rw [Output.ofString, List.length_map, String.length_toList]
      exact Nat.le_refl _
  | bind style index => exact absurd hrun (h.bind_ne_ok style index)
  | marker name => exact absurd hrun fail_ne_ok
  | call name args =>
      simp only [evaluateItem] at hrun
      cases hf : Registry.standard.find? name with
      | none =>
          rw [hf] at hrun
          exact absurd hrun fail_ne_ok
      | some function =>
          rw [hf] at hrun
          cases function with
          | argument marker =>
              exact absurd hrun (indexArgument_ne_ok fun index _ => h.bind_ne_ok marker index)
          | column =>
              exact absurd hrun (indexArgument_ne_ok fun index _ => h.resolve_ne_ok .column index)
          | table =>
              exact absurd hrun (indexArgument_ne_ok fun index _ => h.resolve_ne_ok .table index)
          | segment =>
              exact absurd hrun (indexArgument_ne_ok fun index _ => h.resolve_ne_ok .segment index)
          | custom function => exact absurd hf Function.not_custom_of_lookup
          | join =>
              rcases args with _ | ⟨template, _ | ⟨separator, _ | ⟨more, args⟩⟩⟩
              · exact absurd hrun fail_ne_ok
              · exact absurd hrun fail_ne_ok
              · rw [h.join_eq_nil hrun]
                exact Nat.zero_le _
              · exact absurd hrun fail_ne_ok

theorem Scope.Bare.length_le (h : scope.Bare) {c : Clause}
    (hrun : evaluate .standard scope c f = .ok out f') : out.length ≤ c.textLength := by
  induction c generalizing f out with
  | nil =>
      rw [evaluate_eq] at hrun
      obtain ⟨_, hnil, rfl⟩ := map_eq_ok.mp hrun
      obtain ⟨rfl, -⟩ := pure_eq_ok.mp hnil
      exact Nat.zero_le _
  | cons item c ih =>
      rw [evaluate_cons] at hrun
      obtain ⟨first, f₁, hfirst, hrun⟩ := bind_eq_ok.mp hrun
      obtain ⟨rest, hrest, rfl⟩ := map_eq_ok.mp hrun
      have hitem := h.length_item_le hfirst
      have hrest := ih hrest
      simp only [Clause.textLength, List.map_cons, List.sum_cons, List.length_append] at hrest ⊢
      omega

end Bare

end Render

/-! ## Segments of one text -/

/-- A text with no blank at an end stays whole, whatever is rendered behind it. -/
theorem Output.prefix_trim_ofString {text : String} (htight : Text.Tight text) (hne : text ≠ "")
    (out : Output) : ofString text <+: (ofString text ++ out).trim := by
  have hsymbols : ofString text ≠ [] := by
    intro hnil
    exact hne (String.toList_eq_nil_iff.mp (List.map_eq_nil_iff.mp hnil))
  refine Text.prefix_trim hsymbols ?_ ?_
  · intro symbol hsymbol
    rw [ofString, List.head?_map, Option.mem_map] at hsymbol
    obtain ⟨c, hc, rfl⟩ := hsymbol
    exact htight.1 c hc
  · intro symbol hsymbol
    rw [ofString, List.getLast?_map, Option.mem_map] at hsymbol
    obtain ⟨c, hc, rfl⟩ := hsymbol
    exact htight.2 c hc

namespace Segment

/-- The segment is rendered to the text in every session, and leaves the session as it was. -/
def Prints (registry : Registry) (s : Segment) (text : String) : Prop :=
  ∀ session, s.render registry session = .ok (.ofString text) session

/-- The segment prints the text under the condition, with any functions; and otherwise not even
with the built-in functions, in no session. -/
structure PrintsIff (s : Segment) (text : String) (P : Prop) : Prop where
  prints : P → ∀ registry, s.Prints registry text
  differs : ¬ P → ∀ session session',
    s.render .standard session ≠ .ok (.ofString text) session'

/-- A text without declarations is printed if it is copied. What is not copied is an error, or
gives less than there is. -/
theorem printsIff_copied {raw : String} (h : Text.Tight raw) :
    PrintsIff { raw } raw (Copied raw.toList) where
  prints hcopied registry session := by
    rw [render_of_copied hcopied, Text.trimmed_of_tight h]
  differs hnot session session' hrun := by
    rw [render_eq] at hrun
    obtain ⟨body, hbody, hout⟩ := map_eq_ok.mp hrun
    obtain ⟨c, memo, hparse, heval, -⟩ := Scope.render_ok hbody
    have hparse : parse raw = .ok c := hparse
    have hbare : (scope .standard { raw }).Bare := by
      intro kind
      cases kind <;> rfl
    have hlength := hbare.length_le heval
    have hlt := Template.textLength_lt hparse hnot
    have htrim := Text.length_trim_le Symbol.isBlank body
    have hall := congrArg List.length (wrap_empty body ▸ hout)
    rw [Output.trim, Output.ofString, List.length_map, String.length_toList] at hall
    omega

theorem prints_of_evaluate {s : Segment} {registry : Registry} {c : Clause} {text : String}
    (hparse : parse s.raw = .ok c) (hlead : s.lead = "") (htrail : s.trail = "")
    (htight : Text.Tight text)
    (heval : ∀ session, ∃ memo, evaluate registry (s.scope registry) c { session } =
        .ok (.ofString text) ⟨session, memo⟩ ∧
      (s.scope registry).checkUse memo.used = .ok ()) : s.Prints registry text := by
  intro session
  obtain ⟨memo, heval, hcheck⟩ := heval session
  rw [render_eq, map_of_ok (Scope.render_of_used hparse heval hcheck), hlead, htrail, wrap_empty,
    Output.trim_ofString, Text.trimmed_of_tight htight]

/-- The template of the segment is the text, a blank and then `raw`, and of `raw` it has each
expression and each fault; and what is rendered of it begins with the text. -/
structure Heads (s : Segment) (text raw : String) : Prop where
  ok : ∀ c, parse raw = .ok c → ∃ c' : Clause, c'.exprs = c.exprs ∧
    parse s.raw = .ok (c'.prepend (text ++ " ")) ∧
    ∀ registry scope, evaluate registry scope (c'.prepend (text ++ " ")) =
      (Output.ofString (text ++ " ") ++ ·) <$> evaluate registry scope c'
  error : ∀ cause, parse raw = .error cause → ∃ cause', parse s.raw = .error cause'
  printed : ∀ registry session out session', s.render registry session = .ok out session' →
    Output.ofString text <+: out

theorem heads_of_copied {s : Segment} {text raw : String} (hraw : s.raw = text ++ " " ++ raw)
    (hlead : s.lead = "") (htrail : s.trail = "") (hcopied : Copied (text ++ " ").toList)
    (htight : Text.Tight text) (hne : text ≠ "") : s.Heads text raw := by
  have hne' : text ++ " " ≠ "" := by simp
  obtain ⟨hok, herror⟩ := Template.parse_append_of_copied hcopied hne' raw
  rw [← hraw] at hok herror
  refine ⟨fun c hparse => ?_, herror, fun registry session out session' hrun => ?_⟩
  · obtain ⟨c', hexprs, hparse'⟩ := hok c hparse
    exact ⟨c', hexprs, hparse', fun registry scope => evaluate_prepend registry scope _ c'⟩
  · rw [render_eq] at hrun
    obtain ⟨body, hbody, hout⟩ := map_eq_ok.mp hrun
    obtain ⟨c, memo, hparse, heval, -⟩ := Scope.render_ok hbody
    have hparse : parse s.raw = .ok c := hparse
    cases hraw' : parse raw with
    | error cause =>
        obtain ⟨cause', hfault⟩ := herror cause hraw'
        rw [hfault] at hparse
        cases hparse
    | ok c₀ =>
        obtain ⟨c', -, hparse'⟩ := hok c₀ hraw'
        obtain rfl := Except.ok.inj (hparse'.symm.trans hparse)
        rw [evaluate_prepend] at heval
        obtain ⟨rest, -, rfl⟩ := map_eq_ok.mp heval
        rw [hlead, htrail, wrap_empty] at hout
        have hsplit : Output.ofString (text ++ " ") ++ rest =
            Output.ofString text ++ (Output.ofString " " ++ rest) := by
          simp [Output.ofString]
        rw [← hout, hsplit]
        exact Output.prefix_trim_ofString htight hne _

end Segment

/-! ## Tables -/

namespace Render

variable {registry : Registry} {scope : Scope} {item : Item} {c : Clause} {f f' f'' : Frame}

theorem evaluate_cons_of_ok {out rest : Output}
    (hitem : evaluateItem registry scope item f = .ok out f')
    (hrest : evaluate registry scope c f' = .ok rest f'') :
    evaluate registry scope (item :: c) f = .ok (out ++ rest) f'' := by
  rw [evaluate_cons, bind_of_ok hitem, map_of_ok hrest]

theorem evaluate_nil_apply (registry : Registry) (scope : Scope) (f : Frame) :
    evaluate registry scope [] f = .ok [] f := by
  rw [evaluate_eq]
  rfl

/-- A reference to a table prints its name as it is. -/
theorem evaluateItem_table (hr : registry.HasBuiltins) (pos : Template.Position) (arg : String)
    {index : Nat} {t : Table} (hindex : Number.index? arg = some index)
    (ht : declaration? scope.tables index = some t) (f : Frame) :
    evaluateItem registry scope ⟨pos, .call "t" [arg]⟩ f =
      .ok (.ofString t.appliedName) (f.refer ⟨.table, index⟩) := by
  have hfind : registry.find? "t" = some .table := hr "t" rfl
  have hargument : Scope.indexArgument .table [arg] f = .ok index f := by
    unfold Scope.indexArgument
    dsimp only
    rw [hindex]
    rfl
  simp only [evaluateItem, hfind]
  show (Scope.indexArgument .table [arg] >>= fun index => scope.table index) f = _
  rw [bind_of_ok hargument]
  unfold Scope.table
  rw [bind_of_ok (ScopeM.declared_eq_ok.mpr ⟨ht, rfl⟩)]
  rfl

end Render

/-- There is a name, and neither it nor the alias has a blank at an end. -/
structure Table.Tight (t : Table) : Prop where
  ne : t.name ≠ ""
  name : Text.Tight t.name
  aliasName : Text.Tight t.aliasName

namespace Table

theorem declaration_ne_empty {t : Table} (h : t.name ≠ "") : t.declaration ≠ "" := by
  unfold declaration
  split
  · exact h
  · simp [h]

theorem Tight.declaration {t : Table} (h : t.Tight) : Text.Tight t.declaration := by
  unfold Table.declaration
  split
  · exact h.name
  · rename_i halias
    exact h.name.append h.aliasName h.ne halias

variable {t : Table} {registry : Registry}

/-- A reference to a table prints its name, whatever characters it has. -/
theorem Tight.name_prints (h : t.Tight) (hr : registry.HasBuiltins) :
    Segment.Prints registry { raw := "#t1", tables := [⟨t.name, ""⟩] } t.name := by
  have hparse : parse "#t1" = .ok [⟨.start, .call "t" ["1"]⟩] := by decide +kernel
  refine Segment.prints_of_evaluate hparse rfl rfl h.name fun session => ?_
  have ht : declaration? (Segment.scope registry
      { raw := "#t1", tables := [⟨t.name, ""⟩] }).tables 1 = some ⟨t.name, ""⟩ := rfl
  have heval := evaluate_cons_of_ok
    (evaluateItem_table hr .start "1" (by decide +kernel) ht { session }) (evaluate_nil_apply ..)
  rw [List.append_nil] at heval
  exact ⟨_, heval, rfl⟩

theorem Tight.declaration_prints (h : t.Tight) (halias : t.aliasName ≠ "")
    (hr : registry.HasBuiltins) :
    Segment.Prints registry { raw := "#t1 AS #t2", tables := t.names } t.declaration := by
  have hparse : parse "#t1 AS #t2" = .ok [⟨.start, .call "t" ["1"]⟩, ⟨⟨3, 1, 4⟩, .text " AS "⟩,
      ⟨⟨7, 1, 8⟩, .call "t" ["2"]⟩] := by decide +kernel
  refine Segment.prints_of_evaluate hparse rfl rfl h.declaration fun session => ?_
  have ht : declaration? (Segment.scope registry
      { raw := "#t1 AS #t2", tables := t.names }).tables 1 = some ⟨t.name, ""⟩ := rfl
  have ht' : declaration? (Segment.scope registry
      { raw := "#t1 AS #t2", tables := t.names }).tables 2 = some ⟨t.aliasName, ""⟩ := rfl
  have hbetween : ∀ f, evaluateItem registry
      (Segment.scope registry { raw := "#t1 AS #t2", tables := t.names })
      ⟨⟨3, 1, 4⟩, .text " AS "⟩ f = .ok (.ofString " AS ") f := fun _ => rfl
  have heval := evaluate_cons_of_ok
    (evaluateItem_table hr .start "1" (by decide +kernel) ht { session }) <|
    evaluate_cons_of_ok (hbetween _) <|
    evaluate_cons_of_ok (evaluateItem_table hr ⟨7, 1, 8⟩ "2" (by decide +kernel) ht' _)
      (evaluate_nil_apply ..)
  have hout : Output.ofString (appliedName ⟨t.name, ""⟩) ++ (Output.ofString " AS " ++
      (Output.ofString (appliedName ⟨t.aliasName, ""⟩) ++ [])) = .ofString t.declaration := by
    rw [Table.declaration, if_neg halias]
    simp [Output.ofString, appliedName]
  rw [hout] at heval
  exact ⟨_, heval, rfl⟩

end Table

namespace Query

theorem JoinKind.keyword_tight (kind : JoinKind) :
    kind.keyword ≠ "" ∧ Text.Tight kind.keyword := by
  cases kind <;> exact ⟨by decide, by decide +kernel⟩

theorem JoinKind.copied_keyword (kind : JoinKind) : Copied (kind.keyword ++ " ").toList := by
  cases kind <;> exact Template.copied_of_isPlain (List.all_eq_true.mp rfl)

/-- What the FROM clause says of a joined table before the condition. -/
def JoinKind.head (kind : JoinKind) (table : Table) : String :=
  kind.keyword ++ " " ++ table.declaration

section Heads

variable {table : Table} (kind : JoinKind)

theorem tight_head (h : table.Tight) : Text.Tight (kind.head table) :=
  kind.keyword_tight.2.append h.declaration kind.keyword_tight.1
    (Table.declaration_ne_empty h.ne)

theorem tight_head_on (h : table.Tight) : Text.Tight (kind.head table ++ " ON") := by
  have hne : kind.head table ≠ "" := by simp [JoinKind.head]
  have hon : kind.head table ++ " ON" = kind.head table ++ " " ++ "ON" := by
    rw [String.append_assoc]
    rfl
  have hend : Text.Tight "ON" := by decide +kernel
  rw [hon]
  exact (tight_head kind h).append hend hne (by decide)

theorem copied_head_iff :
    Copied (kind.head table).toList ↔ Copied table.declaration.toList := by
  have hverbatim := Template.verbatim_append_of_copied kind.copied_keyword table.declaration.toList
  rw [JoinKind.head, String.toList_append]
  constructor
  · intro h
    rw [h, Prod.mk.injEq] at hverbatim
    exact Prod.ext (List.append_cancel_left hverbatim.1.symm) hverbatim.2.symm
  · intro h
    exact kind.copied_keyword.append h

theorem joinSegment_of_none :
    QueryOf.joinSegment kind table none = { raw := kind.head table } := rfl

theorem joinSegment_of_empty {on : Segment} (h : on.raw = "") :
    QueryOf.joinSegment kind table (some on) = { raw := kind.head table } :=
  if_pos h

theorem joinSegment_of_ne {on : Segment} (h : on.raw ≠ "") :
    QueryOf.joinSegment kind table (some on) =
      { on with raw := kind.head table ++ " ON" ++ " " ++ on.raw, lead := "", trail := "" } := by
  have hon : kind.head table ++ " ON" ++ " " = kind.head table ++ " ON " := String.append_assoc
  rw [hon]
  exact if_neg h

/-- Without a condition the spelling of the table is all of the template. -/
theorem printsIff_joinSegment (h : table.Tight) {on : Option Segment}
    (hempty : ∀ s, on = some s → s.raw = "") :
    (QueryOf.joinSegment kind table on).PrintsIff (kind.head table)
      (Inert none table.declaration.toList) := by
  have hplain : QueryOf.joinSegment kind table on = { raw := kind.head table } := by
    cases on with
    | none => exact joinSegment_of_none kind
    | some s => exact joinSegment_of_empty kind (hempty s rfl)
  rw [hplain, ← copied_iff, ← copied_head_iff kind]
  exact Segment.printsIff_copied (tight_head kind h)

/-- A condition stands behind the spelling of the table, and is read as it is alone if that
spelling is copied. -/
theorem heads_joinSegment (h : table.Tight) {on : Segment} (hne : on.raw ≠ "")
    (hinert : Inert none table.declaration.toList) :
    (QueryOf.joinSegment kind table (some on)).Heads (kind.head table ++ " ON") on.raw := by
  have hcopied : Copied (kind.head table ++ " ON" ++ " ").toList := by
    rw [String.append_assoc, String.toList_append]
    refine Copied.append ((copied_head_iff kind).mpr (copied_iff.mpr hinert)) ?_
    exact Template.copied_of_isPlain (List.all_eq_true.mp rfl)
  rw [joinSegment_of_ne kind hne]
  exact Segment.heads_of_copied rfl rfl rfl hcopied (tight_head_on kind h) (by simp)

end Heads

namespace QueryOf

variable {B : Type} {q : QueryOf B} {steps : List (Step B)}

/-- Every table of the FROM clause is there by a call, which spelled its text. -/
structure Declares (q : QueryOf B) (steps : List (Step B)) : Prop where
  anchor : ∀ e, q.anchor = some e →
    .anchor e.table ∈ steps ∧ e.segment = { raw := e.table.declaration }
  joins : ∀ e ∈ q.joins, ∃ kind on,
    .join kind e.table on e.optional ∈ steps ∧ e.segment = joinSegment kind e.table on

namespace Declares

theorem mono (h : q.Declares steps) {q' : QueryOf B} {steps' : List (Step B)}
    (hsteps : steps ⊆ steps') (hanchor : q'.anchor = q.anchor) (hjoins : q'.joins = q.joins) :
    q'.Declares steps' where
  anchor e he := by
    obtain ⟨hstep, hsegment⟩ := h.anchor e (hanchor ▸ he)
    exact ⟨hsteps hstep, hsegment⟩
  joins e he := by
    obtain ⟨kind, on, hstep, hsegment⟩ := h.joins e (hjoins ▸ he)
    exact ⟨kind, on, hsteps hstep, hsegment⟩

/-- A call adds the text of its table, or none. -/
theorem apply (h : q.Declares steps) (step : Step B) :
    (q.apply step).Declares (steps ++ [step]) := by
  have hsteps : steps ⊆ steps ++ [step] := List.subset_append_left _ _
  have hstep : step ∈ steps ++ [step] := List.mem_append_right _ List.mem_cons_self
  cases step with
  | anchor table =>
      simp only [QueryOf.apply, setAnchor]
      split
      · exact h.mono hsteps rfl rfl
      · split
        · exact h.mono hsteps rfl rfl
        · have hbefore : q.Declares (steps ++ [.anchor table]) := h.mono hsteps rfl rfl
          refine ⟨fun e he => ?_, hbefore.joins⟩
          cases he
          exact ⟨hstep, rfl⟩
  | join kind table on optional =>
      simp only [QueryOf.apply, join]
      split
      · exact h.mono hsteps rfl rfl
      · split
        · exact h.mono hsteps rfl rfl
        · have hbefore : q.Declares (steps ++ [.join kind table on optional]) :=
            h.mono hsteps rfl rfl
          refine ⟨hbefore.anchor, fun e he => ?_⟩
          rcases List.mem_append.mp he with he | hlast
          · exact hbefore.joins e he
          · rw [List.mem_singleton.mp hlast]
            exact ⟨kind, on, hstep, rfl⟩
  | cte name body =>
      simp only [QueryOf.apply, addCte]
      split
      · exact h.mono hsteps rfl rfl
      · split <;> exact h.mono hsteps rfl rfl
  | testMember column values negated =>
      simp only [QueryOf.apply, testMember]
      split <;> exact h.mono hsteps rfl rfl
  | _ => exact h.mono hsteps rfl rfl

theorem applyAll (h : q.Declares steps) (more : List (Step B)) :
    (q.applyAll more).Declares (steps ++ more) := by
  induction more generalizing q steps with
  | nil => rwa [List.append_nil]
  | cons step rest ih =>
      have := ih (h.apply step)
      rwa [List.append_assoc] at this

end Declares

theorem declares_applyAll (settings : Settings) (steps : List (Step B)) :
    ((ofSettings settings : QueryOf B).applyAll steps).Declares steps := by
  have hempty : (ofSettings settings : QueryOf B).Declares [] :=
    ⟨fun _ he => (by cases he), fun _ he => (by cases he)⟩
  exact hempty.applyAll steps

/-- **A table is printed as it is declared if its declaration is inert**, and the conditions of its
join are left as they are. The text of the FROM clause is a template: the anchor and a join
without a condition are printed as they are spelled if and only if the spelling is copied as a
template. Of a join with a condition the first part is the spelling and all else is the
condition, with its own references and arguments. A reference to the table prints the name and
the alias in any case. -/
theorem from_texts (settings : Settings) (steps : List (Step B)) :
    let q := (ofSettings settings : QueryOf B).applyAll steps
    (∀ e, q.anchor = some e → e.table.Tight → .anchor e.table ∈ steps ∧
      e.segment.PrintsIff e.table.declaration (Inert none e.table.declaration.toList)) ∧
    (∀ e ∈ q.joins, e.table.Tight → ∃ kind on, .join kind e.table on e.optional ∈ steps ∧
      ((∀ s, on = some s → s.raw = "") →
        e.segment.PrintsIff (kind.head e.table) (Inert none e.table.declaration.toList)) ∧
      ∀ s, on = some s → s.raw ≠ "" →
        e.segment = { s with
          raw := kind.head e.table ++ " ON" ++ " " ++ s.raw, lead := "", trail := "" } ∧
        (Inert none e.table.declaration.toList →
          e.segment.Heads (kind.head e.table ++ " ON") s.raw)) ∧
    ∀ (t : Table) (registry : Registry), t.Tight → registry.HasBuiltins →
      Segment.Prints registry { raw := "#t1", tables := [⟨t.name, ""⟩] } t.name ∧
      (t.aliasName ≠ "" →
        Segment.Prints registry { raw := "#t1 AS #t2", tables := t.names } t.declaration) := by
  intro q
  have h : q.Declares steps := declares_applyAll settings steps
  refine ⟨fun e he htight => ?_, fun e he htight => ?_, fun t registry htight hr =>
    ⟨htight.name_prints hr, fun halias => htight.declaration_prints halias hr⟩⟩
  · obtain ⟨hstep, hsegment⟩ := h.anchor e he
    rw [hsegment, ← copied_iff]
    exact ⟨hstep, Segment.printsIff_copied htight.declaration⟩
  · obtain ⟨kind, on, hstep, hsegment⟩ := h.joins e he
    rw [hsegment]
    refine ⟨kind, on, hstep, fun hempty => printsIff_joinSegment kind htight hempty, ?_⟩
    rintro s rfl hne
    exact ⟨joinSegment_of_ne kind hne, fun hinert => heads_joinSegment kind htight hne hinert⟩

/-- A name with a sign in quotes, and one with a doubled sign in front of a condition with an
argument. -/
theorem from_texts_sample :
    let q : Query := (ofSettings {}).applyAll
      [.anchor ⟨"\"a$1\"", ""⟩,
        .join .left ⟨"b$$", "x"⟩ (some { raw := "x.n = $1", args := [.int 1] }) false]
    (∃ e, q.anchor = some e ∧ e.segment.Prints .standard "\"a$1\"") ∧
    ∃ e ∈ q.joins, e.segment.Heads "LEFT JOIN b$$ AS x ON" "x.n = $1" := by
  intro q
  have htight : Table.Tight ⟨"\"a$1\"", ""⟩ := ⟨by decide, by decide +kernel, by decide +kernel⟩
  have htight' : Table.Tight ⟨"b$$", "x"⟩ := ⟨by decide, by decide +kernel, by decide +kernel⟩
  obtain ⟨hanchor, hjoins, -⟩ := from_texts {}
    [.anchor ⟨"\"a$1\"", ""⟩,
      .join (B := Builder) .left ⟨"b$$", "x"⟩ (some { raw := "x.n = $1", args := [.int 1] }) false]
  constructor
  · obtain ⟨-, hprints⟩ := hanchor _ rfl htight
    exact ⟨_, rfl, hprints.prints (by decide +kernel) .standard⟩
  · obtain ⟨kind, on, hstep, -, hcondition⟩ := hjoins _ List.mem_cons_self htight'
    rcases List.mem_cons.mp hstep with hstep | hstep
    · cases hstep
    · cases List.mem_singleton.mp hstep
      exact ⟨_, List.mem_cons_self, (hcondition _ rfl (by decide)).2 (by decide +kernel)⟩

/-- A table whose name has a sign in front of a digit. -/
def signSample : Query :=
  (ofSettings {}).applyAll
    [.anchor ⟨"acct$1", ""⟩, .select [Table.column ⟨"acct$1", ""⟩ "id"]]

theorem needed_signSample : signSample.needed signSample.selects = .ok ["acct$1"] := by
  cbv

/-- The digit is read as the index of an argument, and the query is not built. -/
theorem build_signSample :
    Table.Tight ⟨"acct$1", ""⟩ ∧ signSample.anchor.map FromEntry.table = some ⟨"acct$1", ""⟩ ∧
    (build signSample).result = .error ⟨["acct$1"], .indexOutOfRange .arg 1 0⟩ := by
  refine ⟨⟨by decide, by decide +kernel, by decide +kernel⟩, rfl, ?_⟩
  obtain ⟨e, s, hrun, hcheck⟩ := exists_error_of_check
    (x := signSample.compose .standard [] [] signSample.selects) (s := {})
    (fun e _ => e == ⟨["acct$1"], .indexOutOfRange .arg 1 0⟩) (by
      unfold compose
      rw [needed_signSample]
      decide +kernel)
  obtain rfl := eq_of_beq hcheck
  have hrender : render signSample (functions signSample) (session signSample) = _ := hrun
  unfold build Built.ofRender
  rw [hrender]

end QueryOf

end Query

end SqlTemplate
