import SqlTemplate.Proofs.Reading

/-!
# What stands behind

An item is read by its own characters and by what must not come next. So other text can
stand behind it, as long as that does not begin with more of the item: it begins as the
text did that stood there, with a function, or not at all (`Behind`). An argument list does
not even depend on this, for it ends in its closing parenthesis.
-/

namespace SqlTemplate

/-! ## Trimmed texts -/

namespace Text

variable {α : Type} {p : α → Bool} {xs ys : List α}

theorem trimEnd_append_of_forall (h : ∀ y ∈ ys, p y = true) :
    trimEnd p (xs ++ ys) = trimEnd p xs := by
  rw [trimEnd, trimEnd, List.reverse_append, List.dropWhile_append_of_pos (by simpa using h)]

theorem trimEnd_trimEnd (p : α → Bool) (xs : List α) : trimEnd p (trimEnd p xs) = trimEnd p xs := by
  have happ := trimEnd_append p xs
  have hblank : ∀ y ∈ (xs.reverse.takeWhile p).reverse, p y = true := by
    intro y hy
    exact List.all_eq_true.mp List.all_takeWhile y (List.mem_reverse.mp hy)
  conv => rhs; rw [← happ]
  exact (trimEnd_append_of_forall hblank).symm

end Text

namespace Template

open Number
open Text (isBlank trimEnd)

/-! ## Arguments -/

/-- A quotation that is closed ends at the same quote before another text. -/
theorem quotation_replace {q : Char} {cs : List Char} (hclosed : (quotation q cs).2.2 = true)
    {rest : List Char} (h : rest.head? ≠ some q) :
    quotation q ((quotation q cs).1 ++ rest) = ((quotation q cs).1, rest, true) := by
  fun_induction quotation q cs with
  | case1 => cases hclosed
  | case2 c =>
      obtain rfl : c = q := by simpa using hclosed
      cases rest with
      | nil => simp [quotation]
      | cons d rest =>
          have hd : d ≠ c := by simpa using h
          simp [quotation, hd]
  | case3 cs run rest' closed hrun ih =>
      rw [hrun] at ih
      simp [quotation, ih hclosed]
  | case4 d cs hd =>
      cases rest with
      | nil => simp [quotation]
      | cons d rest =>
          have hd : d ≠ q := by simpa using h
          simp [quotation, hd]
  | case5 c d cs hc run rest' closed hrun ih =>
      rw [hrun] at ih
      have hrest := ih hclosed
      rw [List.cons_append]
      cases hsplit : run ++ rest with
      | nil =>
          -- A closed quotation is not empty.
          rw [hsplit, quotation] at hrest
          cases hrest
      | cons d ds =>
          rw [hsplit] at hrest
          simp [quotation, hc, hrest]

namespace Lexer

variable {p : Position} {gap rest : List Char} {c : Char}

/-- The next token of an argument list is that of the first character which is not blank. -/
theorem next_arguments (hgap : ∀ c ∈ gap, isBlank c = true) (hc : isBlank c = false) :
    next ⟨.arguments, p, gap ++ c :: rest⟩ =
      some (nextArgument ⟨.arguments, p.after gap, c :: rest⟩ c rest) := by
  have hrest : NotFirst isBlank (c :: rest) := by
    rintro _ ⟨⟩
    exact hc
  simp only [next, takeWhile_run hgap hrest, dropWhile_run hgap hrest]

theorem exists_nextArgument {cs : List Char} {t : Token} {l : Lexer}
    (h : next ⟨.arguments, p, cs⟩ = some (t, l)) :
    ∃ gap c rest, cs = gap ++ c :: rest ∧ (∀ c ∈ gap, isBlank c = true) ∧ isBlank c = false ∧
      nextArgument ⟨.arguments, p.after gap, c :: rest⟩ c rest = (t, l) := by
  obtain ⟨gap, cs, rfl, hgap, hcs⟩ := exists_run isBlank cs
  cases cs with
  | nil =>
      have hnone : next ⟨.arguments, p, gap ++ []⟩ = none := by
        simp only [next, dropWhile_run hgap hcs]
      rw [hnone] at h
      cases h
  | cons c rest =>
      rw [next_arguments hgap (hcs c rfl)] at h
      exact ⟨gap, c, rest, rfl, hgap, hcs c rfl, Option.some.inj h⟩

/-- A separator of arguments with the mode that comes behind it. -/
inductive Separator : Kind → Char → Mode → Prop
  | comma : Separator .comma ',' .arguments
  | closeParen : Separator .closeParen ')' .text

theorem Separator.next {kind : Kind} {sep : Char} {mode : Mode} (h : Separator kind sep mode)
    (hgap : ∀ c ∈ gap, isBlank c = true) (rest : List Char) :
    Lexer.next ⟨.arguments, p, gap ++ sep :: rest⟩ =
      some (⟨kind, [sep], p.after gap⟩, ⟨mode, (p.after gap).next sep, rest⟩) := by
  cases h <;> exact next_arguments hgap rfl

/-- A separator is read in the same way before any text. -/
theorem Separator.exists_of_next {cs : List Char} {u : Token} {l : Lexer}
    (h : Lexer.next ⟨.arguments, p, cs⟩ = some (u, l))
    (hkind : u.kind = .comma ∨ u.kind = .closeParen) :
    ∃ gap sep, Separator u.kind sep l.mode ∧ (∀ c ∈ gap, isBlank c = true) ∧
      cs = gap ++ sep :: l.rest ∧ ∀ rest,
        Lexer.next ⟨.arguments, p, gap ++ sep :: rest⟩ = some (u, ⟨l.mode, l.pos, rest⟩) := by
  obtain ⟨gap, c, rest, rfl, hgap, hc, hnext⟩ := exists_nextArgument h
  unfold nextArgument at hnext
  split at hnext
  · rename_i hcomma
    subst hcomma
    cases hnext
    exact ⟨gap, ',', .comma, hgap, rfl, Separator.comma.next hgap⟩
  · split at hnext
    · rename_i hparen
      subst hparen
      cases hnext
      exact ⟨gap, ')', .closeParen, hgap, rfl, Separator.closeParen.next hgap⟩
    · split at hnext <;> cases hnext <;> simp at hkind

/-- What stands behind an argument does not begin with a quote. -/
theorem Separator.head?_ne {kind : Kind} {sep : Char} {mode : Mode} (h : Separator kind sep mode)
    (hgap : ∀ c ∈ gap, isBlank c = true) (rest : List Char) {q : Char} (hq : q = '\'' ∨ q = '"') :
    (gap ++ sep :: rest).head? ≠ some q := by
  cases gap with
  | nil => cases h <;> rcases hq with rfl | rfl <;> simp
  | cons c gap =>
      have hc := hgap c (by simp)
      rw [List.cons_append, List.head?_cons, ne_eq, Option.some.injEq]
      rintro rfl
      rcases hq with rfl | rfl <;> cases hc

/-- What an argument without quotes is taken from a text. -/
def bare (cs : List Char) : List Char :=
  trimEnd isBlank (cs.takeWhile fun d => d ≠ ',' ∧ d ≠ ')')

theorem exists_bare (hc : isBlank c = false) (hcomma : c ≠ ',') (hparen : c ≠ ')')
    (cs : List Char) :
    ∃ run, bare (c :: cs) = c :: run ∧ c :: cs = c :: run ++ (c :: cs).drop (c :: run).length := by
  have hrun : (c :: cs).takeWhile (fun d => decide (d ≠ ',' ∧ d ≠ ')')) =
      c :: cs.takeWhile fun d => decide (d ≠ ',' ∧ d ≠ ')') := by
    simp [hcomma, hparen]
  have hprefix : bare (c :: cs) <+: c :: cs :=
    (Text.trimEnd_prefix isBlank _).trans (List.takeWhile_prefix _)
  have hne : bare (c :: cs) ≠ [] := by
    rw [bare, hrun]
    exact Text.trimEnd_cons_ne_nil hc
  obtain ⟨d, run, hbare⟩ := List.exists_cons_of_ne_nil hne
  rw [hbare] at hprefix
  obtain ⟨tail, htail⟩ := hprefix
  obtain ⟨rfl, -⟩ := List.cons.inj htail
  refine ⟨run, hbare, ?_⟩
  rw [← htail, List.drop_left]

theorem bare_replace (cs : List Char) {kind : Kind} {sep : Char} {mode : Mode}
    (hsep : Separator kind sep mode) (hgap : ∀ c ∈ gap, isBlank c = true) (rest : List Char) :
    bare (bare cs ++ (gap ++ sep :: rest)) = bare cs := by
  have hin : ∀ d ∈ bare cs ++ gap, decide (d ≠ ',' ∧ d ≠ ')') = true := by
    intro d hd
    rcases List.mem_append.mp hd with hd | hd
    · exact List.all_eq_true.mp List.all_takeWhile d ((Text.trimEnd_prefix isBlank _).subset hd)
    · have hblank := hgap d hd
      rw [decide_eq_true_iff]
      constructor <;> rintro rfl <;> cases hblank
  have hout : NotFirst (fun d => decide (d ≠ ',' ∧ d ≠ ')')) (sep :: rest) := by
    rintro _ ⟨⟩
    cases hsep <;> rfl
  rw [← List.append_assoc, bare, takeWhile_run hin hout, Text.trimEnd_append_of_forall hgap]
  exact Text.trimEnd_trimEnd isBlank _

theorem nextArgument_bare (l : Lexer) (hcomma : c ≠ ',') (hparen : c ≠ ')')
    (hquote : ¬ (c = '\'' ∨ c = '"')) (cs : List Char) :
    l.nextArgument c cs =
      l.emit .bare (bare (c :: cs)) ((c :: cs).drop (bare (c :: cs)).length) .arguments := by
  rw [nextArgument, if_neg hcomma, if_neg hparen, if_neg hquote]
  rfl

theorem nextArgument_quoted (l : Lexer) (hquote : c = '\'' ∨ c = '"') (cs : List Char) :
    l.nextArgument c cs = l.emit (.quoted (quotation c cs).2.2) (c :: (quotation c cs).1)
      (quotation c cs).2.1 .arguments := by
  rw [nextArgument, if_neg (by rintro rfl; simp at hquote), if_neg (by rintro rfl; simp at hquote),
    if_pos hquote]

theorem mode_of_argument {l l' : Lexer} {cs : List Char} {t : Token} {arg : String}
    (h : l.nextArgument c cs = (t, l')) (harg : argument t = .ok arg) : l'.mode = .arguments := by
  unfold nextArgument at h
  split at h
  · cases h
    rfl
  · split at h
    · cases h
      cases harg
    · split at h <;> cases h <;> rfl

/-- An argument is the same token before any text behind its separator. -/
theorem nextArgument_replace {cs : List Char} {t : Token} {l : Lexer} {arg : String}
    {kind : Kind} {sep : Char} {mode : Mode} (hc : isBlank c = false)
    (h : nextArgument ⟨.arguments, p, c :: cs⟩ c cs = (t, l)) (harg : argument t = .ok arg)
    (hsep : Separator kind sep mode) (hgap : ∀ c ∈ gap, isBlank c = true)
    (hrest : l.rest = gap ++ sep :: rest) :
    ∃ run, c :: cs = c :: run ++ (gap ++ sep :: rest) ∧ ∀ rest',
      nextArgument ⟨.arguments, p, c :: run ++ (gap ++ sep :: rest')⟩ c
        (run ++ (gap ++ sep :: rest')) =
          (t, ⟨.arguments, p.after t.lexeme, gap ++ sep :: rest'⟩) := by
  by_cases hcomma : c = ','
  · subst hcomma
    cases h
    cases harg
  by_cases hparen : c = ')'
  · subst hparen
    cases h
    cases harg
  by_cases hquote : c = '\'' ∨ c = '"'
  · rw [nextArgument_quoted _ hquote] at h
    cases hclosed : (quotation c cs).2.2 with
    | false =>
        rw [hclosed] at h
        cases h
        cases harg
    | true =>
        have happ := quotation_append c cs
        rw [hclosed] at h
        cases h
        have hbehind : (quotation c cs).2.1 = gap ++ sep :: rest := hrest
        refine ⟨(quotation c cs).1, ?_, fun rest' => ?_⟩
        · rw [← hbehind, List.cons_append, happ]
        · rw [nextArgument_quoted _ hquote,
            quotation_replace hclosed (hsep.head?_ne hgap rest' hquote)]
          rfl
  · obtain ⟨run, hlexeme, happ⟩ := exists_bare hc hcomma hparen cs
    rw [nextArgument_bare _ hcomma hparen hquote, hlexeme] at h
    cases h
    have hbehind : (c :: cs).drop (c :: run).length = gap ++ sep :: rest := hrest
    refine ⟨run, by rw [← hbehind, ← happ], fun rest' => ?_⟩
    have hsame := bare_replace (c :: cs) hsep hgap rest'
    rw [hlexeme, List.cons_append] at hsame
    rw [nextArgument_bare _ hcomma hparen hquote, hsame, ← List.cons_append, List.drop_left]
    rfl

end Lexer

/-- An argument and its separator are read in the same way before any text. -/
theorem argument_replace {p : Position} {cs : List Char} {l₁ l₂ : Lexer} {t u : Token}
    {arg : String} (ht : Lexer.next ⟨.arguments, p, cs⟩ = some (t, l₁))
    (harg : argument t = .ok arg)
    (hu : l₁.next = some (u, l₂)) (hkind : u.kind = .comma ∨ u.kind = .closeParen) :
    ∃ front, cs = front ++ l₂.rest ∧ (u.kind = .comma → l₂.mode = .arguments) ∧ ∀ rest, ∃ l,
      Lexer.next ⟨.arguments, p, front ++ rest⟩ = some (t, l) ∧
        l.next = some (u, ⟨l₂.mode, l₂.pos, rest⟩) := by
  obtain ⟨gap, c, cs, rfl, hgap, hc, hnext⟩ := Lexer.exists_nextArgument ht
  obtain ⟨mode, q, behind⟩ := l₁
  obtain rfl : mode = .arguments := Lexer.mode_of_argument hnext harg
  obtain ⟨gap', sep, hsep, hgap', hbehind, hu'⟩ := Lexer.Separator.exists_of_next hu hkind
  obtain ⟨run, hcs, hreplace⟩ := Lexer.nextArgument_replace hc hnext harg hsep hgap' hbehind
  obtain ⟨-, rfl⟩ := List.cons.inj hcs
  cases hnext.symm.trans (hreplace l₂.rest)
  refine ⟨gap ++ (c :: run ++ (gap' ++ [sep])), by simp, ?_, fun rest => ⟨_, ?_, hu' rest⟩⟩
  · intro hcomma
    rw [hcomma] at hsep
    generalize l₂.mode = mode at hsep
    cases hsep
    rfl
  · have hsplit : gap ++ (c :: run ++ (gap' ++ [sep])) ++ rest =
        gap ++ c :: (run ++ (gap' ++ sep :: rest)) := by
      simp
    rw [hsplit, Lexer.next_arguments hgap hc]
    exact congrArg some (hreplace rest)

/-- The arguments of a call are read in the same way before any text. -/
theorem Arguments.replace {l l' : Lexer} {args : List String} (h : Arguments l args l')
    (hmode : l.mode = .arguments) :
    ∃ front, l.rest = front ++ l'.rest ∧
      ∀ rest, Arguments ⟨.arguments, l.pos, front ++ rest⟩ args ⟨l'.mode, l'.pos, rest⟩ := by
  induction h with
  | @last l₀ l₁ l₂ t u arg ht harg hu hclose =>
      obtain ⟨mode, p, cs⟩ := l₀
      obtain rfl : mode = .arguments := hmode
      obtain ⟨front, hcs, -, hreplace⟩ := argument_replace ht harg hu (.inr hclose)
      refine ⟨front, hcs, fun rest => ?_⟩
      obtain ⟨l, ht', hu'⟩ := hreplace rest
      exact .last ht' harg hu' hclose
  | @more l₀ l₁ l₂ l₃ t u arg args ht harg hu hcomma h ih =>
      obtain ⟨mode, p, cs⟩ := l₀
      obtain rfl : mode = .arguments := hmode
      obtain ⟨front, hcs, hmode', hreplace⟩ := argument_replace ht harg hu (.inl hcomma)
      obtain ⟨front', hrest, hargs⟩ := ih (hmode' hcomma)
      refine ⟨front ++ front', by rw [List.append_assoc, ← hrest, ← hcs], fun rest => ?_⟩
      obtain ⟨l, ht', hu'⟩ := hreplace (front' ++ rest)
      rw [hmode' hcomma] at hu'
      rw [List.append_assoc]
      exact .more ht' harg hu' hcomma (hargs rest)

/-- An argument list is read in the same way before any text. -/
theorem ArgumentList.replace {p p' : Position} {list rest : List Char} {args : List String}
    (h : ArgumentList ⟨.arguments, p, list⟩ args ⟨.text, p', rest⟩) :
    ∃ front, list = front ++ rest ∧
      ∀ rest', ArgumentList ⟨.arguments, p, front ++ rest'⟩ args ⟨.text, p', rest'⟩ := by
  cases h with
  | empty hu hclose =>
      obtain ⟨gap, sep, -, -, hlist, hu'⟩ := Lexer.Separator.exists_of_next hu (.inr hclose)
      refine ⟨gap ++ [sep], by simpa using hlist, fun rest' => ?_⟩
      rw [List.append_assoc, List.singleton_append]
      exact .empty (hu' rest') hclose
  | some h =>
      obtain ⟨front, hlist, hreplace⟩ := h.replace rfl
      exact ⟨front, hlist, fun rest' => .some (hreplace rest')⟩

/-! ## Items -/

/-- Another text can stand where `rest` did, behind an item: it begins as that did, with a function,
or not at all. -/
def Behind (rest rest' : List Char) : Prop :=
  ∀ c ∈ rest'.head?, rest.head? = some c ∨ c = '#'

namespace Behind

variable {rest rest' : List Char}

theorem of_beginning (h : rest' <+: rest) : Behind rest rest' := by
  intro c hc
  obtain ⟨tail, rfl⟩ := h
  cases rest' with
  | nil => cases hc
  | cons d rest' => exact .inl hc

theorem notFirst {p : Char → Bool} (h : Behind rest rest') (hp : p '#' = false)
    (hrest : NotFirst p rest) : NotFirst p rest' := by
  intro c hc
  rcases h c hc with hsame | rfl
  · exact hrest c hsame
  · exact hp

/-- Behind the sign of a placeholder still no index stands. -/
theorem noIndex (h : Behind rest rest')
    (hrest : rest.head? = some '0' ∨ NotFirst Char.isDigit rest) :
    rest'.head? = some '0' ∨ NotFirst Char.isDigit rest' := by
  rcases hrest with hzero | hrest
  · cases rest' with
    | nil => exact .inr nofun
    | cons c rest' =>
        rcases h c rfl with hsame | rfl
        · exact .inl (hsame.symm.trans hzero)
        · refine .inr ?_
          rintro _ ⟨⟩
          rfl
  · exact .inr (h.notFirst rfl hrest)

theorem head?_ne {d : Char} (h : Behind rest rest') (hd : d ≠ '#') (hrest : rest.head? ≠ some d) :
    rest'.head? ≠ some d := by
  intro hc
  rcases h d hc with hsame | hhash
  · exact hrest hsame
  · exact hd hhash

end Behind

/-- Text is read in the same way before anything that stops it. -/
theorem Reading.text_replace {style? : Option Style} {count : Nat} {p : Position}
    {cs rest : List Char} {c : Clause} (hne : (verbatim none cs).1 ≠ [])
    (hclosed : (verbatim none cs).2.2 = none) (hstops : Stops rest)
    (h : Reading style? count (p.after (verbatim none cs).1) rest c) :
    Reading style? count p ((verbatim none cs).1 ++ rest)
      (⟨p, .text (String.ofList (verbatim none cs).1)⟩ :: c) := by
  have hsame := verbatim_append_of_stops hclosed hstops
  have hreading : Reading style? count p ((verbatim none cs).1 ++ rest) _ :=
    .text (by rwa [hsame]) (by rw [hsame]) (by rwa [hsame])
  rwa [hsame] at hreading

/-- A function is read in the same way before any text that can stand behind it. -/
theorem FunctionReading.replace {p p' : Position} {cs rest : List Char} {e : Expr}
    (h : FunctionReading p cs e p' rest) :
    ∃ span, cs = span ++ rest ∧
      ∀ rest', Behind rest rest' → FunctionReading p (span ++ rest') e p' rest' := by
  cases h with
  | @marker name _ hname hrest hdigit hparen =>
      exact ⟨name, rfl, fun rest' h => .marker hname (h.notFirst rfl hrest)
        (h.notFirst rfl hdigit) (h.head?_ne (by decide) hparen)⟩
  | @short name ds _ hname hne hds hdigit =>
      refine ⟨name ++ ds, (List.append_assoc ..).symm, fun rest' h => ?_⟩
      rw [List.append_assoc]
      exact .short hname hne hds (h.notFirst rfl hdigit)
  | @call _ name _ _ _ hname hlist =>
      obtain ⟨front, rfl, hreplace⟩ := hlist.replace
      refine ⟨name ++ '(' :: front, by simp, fun rest' _ => ?_⟩
      rw [List.append_assoc, List.cons_append]
      exact .call hname (hreplace rest')

/-- Where a text stops, its beginnings stop too. -/
theorem Stops.of_beginning {cs front : List Char} (h : Stops cs) (hfront : front <+: cs) :
    Stops front := by
  obtain ⟨back, rfl⟩ := hfront
  cases front with
  | nil => rfl
  | cons c front =>
      rcases cases_of_stops h with rfl | ⟨style, rfl, hsign⟩
      · exact stops_hash front
      · exact stops_sign style ((Behind.of_beginning (List.prefix_append front back)).head?_ne
          (by cases style <;> decide) hsign)

end Template

end SqlTemplate
