import SqlTemplate.Proofs.Parity

/-!
# Text in front of a template

Where a template begins has a part in the positions of its items only, so what it reads
as does not change when other text is put in front of it, as long as that is copied. Then
the text is one with that at the beginning of the template, or stands alone, and all that
follows is as it was (`parse_append_of_copied`).
-/

namespace SqlTemplate

namespace Template

open Number
open Text (isBlank)

/-! ## Reading from another position -/

namespace Lexer

/-- The lexer with the same text left, from another position on. -/
def moved (l : Lexer) (p : Position) : Lexer := { l with pos := p }

variable {l l' : Lexer} {t : Token}

theorem nextText_moved (h : l.nextText = some (t, l')) (p : Position) :
    ∃ q r, (l.moved p).nextText = some ({ t with pos := q }, l'.moved r) := by
  have hrest : (l.moved p).rest = l.rest := rfl
  unfold nextText at h ⊢
  rw [hrest]
  split at h
  · cases h
  · split at h
    · rename_i hhash
      cases h
      exact ⟨p, _, if_pos hhash⟩
    · rename_i hhash
      cases h
      exact ⟨p, _, if_neg hhash⟩
  · cases h
    exact ⟨p, _, rfl⟩

theorem nextArgument_moved (l : Lexer) (c : Char) (rest : List Char) (p : Position) :
    ∃ q r, (l.moved p).nextArgument c rest =
      ({ (l.nextArgument c rest).1 with pos := q }, (l.nextArgument c rest).2.moved r) := by
  unfold nextArgument
  split
  · exact ⟨p, _, rfl⟩
  · split
    · exact ⟨p, _, rfl⟩
    · split <;> exact ⟨p, _, rfl⟩

theorem next_moved (h : l.next = some (t, l')) (p : Position) :
    ∃ q r, (l.moved p).next = some ({ t with pos := q }, l'.moved r) := by
  obtain ⟨mode, pos, rest⟩ := l
  show ∃ q r, next ⟨mode, p, rest⟩ = some ({ t with pos := q }, l'.moved r)
  cases mode with
  | text => exact nextText_moved h p
  | index =>
      simp only [next] at h ⊢
      by_cases hzero : rest.head? = some '0'
      · rw [if_pos hzero] at h ⊢
        exact nextText_moved h p
      · rw [if_neg hzero] at h ⊢
        cases hds : rest.takeWhile Char.isDigit with
        | nil =>
            rw [hds] at h
            exact nextText_moved h p
        | cons d ds =>
            rw [hds] at h
            cases h
            exact ⟨p, _, rfl⟩
  | name =>
      simp only [next] at h ⊢
      cases hname : rest.takeWhile isNameChar with
      | nil =>
          rw [hname] at h
          exact nextText_moved h p
      | cons c name =>
          rw [hname] at h
          cases h
          exact ⟨p, _, rfl⟩
  | suffix =>
      simp only [next] at h ⊢
      cases hds : rest.takeWhile Char.isDigit with
      | cons d ds =>
          rw [hds] at h
          cases h
          exact ⟨p, _, rfl⟩
      | nil =>
          rw [hds] at h
          split at h
          · cases h
            exact ⟨p, _, rfl⟩
          · exact nextText_moved h p
          · rename_i hne _
            exact absurd rfl hne
  | arguments =>
      simp only [next] at h ⊢
      cases hrest : rest.dropWhile isBlank with
      | nil =>
          rw [hrest] at h
          cases h
      | cons c rest' =>
          rw [hrest] at h
          obtain ⟨q, r, hmoved⟩ := nextArgument_moved
            ⟨.arguments, pos.after (rest.takeWhile isBlank), c :: rest'⟩ c rest'
            (p.after (rest.takeWhile isBlank))
          rw [Option.some.inj h] at hmoved
          exact ⟨q, r, congrArg some hmoved⟩

end Lexer

theorem argument_moved {t : Token} {arg : String} (h : argument t = .ok arg) (p : Position) :
    argument { t with pos := p } = .ok arg := by
  obtain ⟨kind, lexeme, pos⟩ := t
  unfold argument at h ⊢
  dsimp only at h ⊢
  split at h
  · exact h
  · exact h
  · split at h
    · rename_i hconstant
      rwa [if_pos hconstant]
    · cases h
  · cases h
  · cases h

theorem Arguments.moved {l l' : Lexer} {args : List String} (h : Arguments l args l')
    (p : Position) : ∃ q, Arguments (l.moved p) args (l'.moved q) := by
  induction h generalizing p with
  | last ht harg hu hclose =>
      obtain ⟨_, q, ht'⟩ := Lexer.next_moved ht p
      obtain ⟨_, r, hu'⟩ := Lexer.next_moved hu q
      exact ⟨r, .last ht' (argument_moved harg _) hu' hclose⟩
  | more ht harg hu hcomma _ ih =>
      obtain ⟨_, q, ht'⟩ := Lexer.next_moved ht p
      obtain ⟨_, r, hu'⟩ := Lexer.next_moved hu q
      obtain ⟨q', h'⟩ := ih r
      exact ⟨q', .more ht' (argument_moved harg _) hu' hcomma h'⟩

theorem ArgumentList.moved {l l' : Lexer} {args : List String} (h : ArgumentList l args l')
    (p : Position) : ∃ q, ArgumentList (l.moved p) args (l'.moved q) := by
  cases h with
  | empty hu hclose =>
      obtain ⟨_, q, hu'⟩ := Lexer.next_moved hu p
      exact ⟨q, .empty hu' hclose⟩
  | some h =>
      obtain ⟨q, h'⟩ := h.moved p
      exact ⟨q, .some h'⟩

theorem FunctionReading.moved {p p' : Position} {cs rest : List Char} {e : Expr}
    (h : FunctionReading p cs e p' rest) (q : Position) : ∃ q', FunctionReading q cs e q' rest := by
  cases h with
  | marker hname hrest hdigit hparen => exact ⟨_, .marker hname hrest hdigit hparen⟩
  | short hname hne hds hdigit => exact ⟨_, .short hname hne hds hdigit⟩
  | @call _ name _ _ _ hname hlist =>
      obtain ⟨q', hlist'⟩ := hlist.moved ((q.after name).next '(')
      exact ⟨q', .call hname hlist'⟩

/-- **What a text reads as depends on its beginning in the positions only.** -/
theorem Reading.moved {style? : Option Style} {count : Nat} {p : Position} {cs : List Char}
    {c : Clause} (h : Reading style? count p cs c) (q : Position) :
    ∃ c', Reading style? count q cs c' ∧ c'.exprs = c.exprs := by
  induction h generalizing q with
  | nil => exact ⟨[], .nil, rfl⟩
  | @text _ _ _ cs _ hne hclosed _ ih =>
      obtain ⟨c', hc', hexprs⟩ := ih (q.after (verbatim none cs).1)
      exact ⟨_, .text hne hclosed hc', congrArg (List.cons _) hexprs⟩
  | positional hstyle hsign hdigit _ ih =>
      obtain ⟨c', hc', hexprs⟩ := ih (q.next '?')
      exact ⟨_, .positional hstyle hsign hdigit hc', congrArg (List.cons _) hexprs⟩
  | @indexed _ _ _ n _ _ hstyle hpos hlimit hdigit _ ih =>
      obtain ⟨c', hc', hexprs⟩ := ih ((q.next '$').after (digits n))
      exact ⟨_, .indexed hstyle hpos hlimit hdigit hc', congrArg (List.cons _) hexprs⟩
  | @function _ _ _ _ _ _ expr _ hfunction _ ih =>
      obtain ⟨q', hfunction'⟩ := hfunction.moved (q.next '#')
      obtain ⟨c', hc', hexprs⟩ := ih q'
      exact ⟨⟨q, expr⟩ :: c', .function hfunction' hc', congrArg (List.cons _) hexprs⟩

/-! ## Copied text in front -/

/-- The clause behind a text. The text is one with that at the beginning of the clause. -/
def Clause.prepend (s : String) : Clause → Clause
  | ⟨_, .text t⟩ :: c => ⟨.start, .text (s ++ t)⟩ :: c
  | c => ⟨.start, .text s⟩ :: c

section Prepend

variable {style? : Option Style} {count : Nat} {p : Position} {cs : List Char} {c : Clause}

/-- Where no text is read, a reference begins. -/
theorem Reading.stops (h : Reading style? count p cs c)
    (hfirst : ∀ item ∈ c.head?, ∀ s, item.expr ≠ .text s) : Stops cs := by
  cases h with
  | nil => rfl
  | text => exact absurd rfl (hfirst _ rfl _)
  | positional _ hsign => exact stops_sign .positional hsign
  | indexed => exact stops_sign .indexed (head?_digits_append _ _)
  | function => exact stops_hash _

theorem Reading.prepend {s : String} (hs : Copied s.toList) (hne : s ≠ "")
    (h : Reading style? count (Position.start.after s.toList) cs c) :
    Reading style? count .start (s.toList ++ cs) (c.prepend s) := by
  have hchars : s.toList ≠ [] := fun hnil => hne (String.toList_eq_nil_iff.mp hnil)
  have hverbatim := verbatim_append_of_copied hs cs
  have happ : (verbatim none (s.toList ++ cs)).1 ≠ [] := by simp [hverbatim, hchars]
  -- Behind a reference or nothing the text stands alone.
  have halone (hfirst : ∀ item ∈ c.head?, ∀ t, item.expr ≠ .text t) :
      Reading style? count .start (s.toList ++ cs) (⟨.start, .text s⟩ :: c) := by
    have hstops : verbatim none cs = ([], cs, none) := h.stops hfirst
    rw [hstops, List.append_nil] at hverbatim
    have hreading : Reading style? count .start (s.toList ++ cs) _ :=
      .text happ (by rw [hverbatim]) (by rw [hverbatim]; exact h)
    rwa [hverbatim, String.ofList_toList] at hreading
  cases c with
  | nil => exact halone (by simp)
  | cons item c =>
      obtain ⟨pos, expr⟩ := item
      cases expr with
      | text t =>
          cases h with
          | text _ hclosed h =>
              have hreading : Reading style? count .start (s.toList ++ cs) _ :=
                .text happ (by rw [hverbatim]; exact hclosed)
                  (by rw [hverbatim, Position.after_append]; exact h)
              rwa [hverbatim, String.ofList_append, String.ofList_toList] at hreading
          | function hfunction => cases hfunction
      | _ => exact halone (by simp)

/-- Behind a copied text, what is read as items is so without the text in front. -/
theorem Reading.of_append {s : String} (hs : Copied s.toList) (hne : s ≠ "")
    (h : Reading style? count p (s.toList ++ cs) c) : ∃ c', Reading style? count .start cs c' := by
  have hchars : s.toList ≠ [] := fun hnil => hne (String.toList_eq_nil_iff.mp hnil)
  have hverbatim := verbatim_append_of_copied hs cs
  cases c with
  | nil => exact absurd h.eq_nil (by simp [hchars])
  | cons item c =>
      obtain ⟨pos, expr⟩ := item
      cases expr with
      | text t =>
          obtain ⟨-, p', rest, hrun, hrest⟩ := h.verbatim_eq rfl
          rw [hrun, Prod.mk.injEq] at hverbatim
          obtain ⟨-, hbehind⟩ := hverbatim
          obtain ⟨c', hc', -⟩ := hrest.moved (Position.start.after (verbatim none cs).1)
          by_cases hempty : (verbatim none cs).1 = []
          · have happ := verbatim_append none cs
            rw [hempty, List.nil_append, ← hbehind] at happ
            rw [hempty] at hc'
            exact ⟨c', happ ▸ hc'⟩
          · have hreading : Reading style? count .start cs (_ :: c') :=
              .text hempty (by rw [← hbehind]) (by rwa [← hbehind])
            exact ⟨_, hreading⟩
      | _ =>
          -- A reference would begin where the text stands.
          have hstops : verbatim none (s.toList ++ cs) = _ := h.stops (by simp)
          rw [hstops, Prod.mk.injEq] at hverbatim
          exact absurd (List.append_eq_nil_iff.mp hverbatim.1.symm).1 hchars

end Prepend

/-- **A copied text in front of a template leaves it as it was**: its items are read as before, and
where it has a fault it has one still. -/
theorem parse_append_of_copied {s : String} (hs : Copied s.toList) (hne : s ≠ "") (raw : String) :
    (∀ c, parse raw = .ok c →
      ∃ c' : Clause, c'.exprs = c.exprs ∧ parse (s ++ raw) = .ok (c'.prepend s)) ∧
    ∀ cause, parse raw = .error cause → ∃ cause', parse (s ++ raw) = .error cause' := by
  constructor
  · intro c hparse
    obtain ⟨c', hreading, hexprs⟩ :=
      (parse_eq_ok_iff.mp hparse).moved (Position.start.after s.toList)
    refine ⟨c', hexprs, parse_eq_ok_iff.mpr ?_⟩
    rw [String.toList_append]
    exact hreading.prepend hs hne
  · intro cause hparse
    cases hwhole : parse (s ++ raw) with
    | error cause' => exact ⟨cause', rfl⟩
    | ok c =>
        have hreading := parse_eq_ok_iff.mp hwhole
        rw [String.toList_append] at hreading
        obtain ⟨c', hreading'⟩ := hreading.of_append hs hne
        rw [parse_eq_ok_iff.mpr hreading'] at hparse
        cases hparse

end Template

/-! ## Evaluation behind a text -/

namespace Render

open Template (Clause Item)

theorem evaluate_cons (registry : Registry) (scope : Scope) (item : Item) (c : Clause) :
    evaluate registry scope (item :: c) =
      evaluateItem registry scope item >>= fun out =>
        (out ++ ·) <$> evaluate registry scope c := by
  simp [evaluate_eq, List.mapM_cons]

theorem evaluate_text (registry : Registry) (scope : Scope) (pos : Template.Position) (s : String)
    (c : Clause) : evaluate registry scope (⟨pos, .text s⟩ :: c) =
      (Output.ofString s ++ ·) <$> evaluate registry scope c := by
  rw [evaluate_cons]
  simp [evaluateItem]

/-- The text stands in front of what the clause is evaluated to. -/
theorem evaluate_prepend (registry : Registry) (scope : Scope) (s : String) (c : Clause) :
    evaluate registry scope (c.prepend s) =
      (Output.ofString s ++ ·) <$> evaluate registry scope c := by
  cases c with
  | nil => exact evaluate_text ..
  | cons item c =>
      obtain ⟨pos, expr⟩ := item
      cases expr with
      | text t =>
          rw [Clause.prepend, evaluate_text, evaluate_text, ← comp_map]
          congr 1
          funext out
          simp [Output.ofString]
      | _ => exact evaluate_text ..

end Render

end SqlTemplate
