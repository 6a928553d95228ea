import SqlTemplate.Proofs.Reading

/-!
# Writing clauses back

A clause is written back with its text as it is, its placeholders by their signs and
its calls with every argument in single quotes. What is written reads as the same
expressions. Only calls are written in another form than they may have had, and
neither form can run into what stands before or behind it; for the rest, what comes
next begins with the same character as it did.
-/

namespace SqlTemplate.Template

open Number

/-- An argument in single quotes, with those in it doubled. -/
def spellArgument (arg : String) : List Char := Text.enclose '\'' arg.toList

/-- The arguments of a call, up to the closing parenthesis. -/
def spellArguments (args : List String) : List Char :=
  [',', ' '].intercalate (args.map spellArgument) ++ [')']

/-- An expression as text. -/
def Expr.spell : Expr → List Char
  | .text s => s.toList
  | .bind .indexed n => '$' :: digits n
  | .bind .positional _ => ['?']
  | .call name args => '#' :: (name.toList ++ '(' :: spellArguments args)
  | .marker name => '#' :: name.toList

/-- Expressions as text, one after the other. -/
def spellAll (es : List Expr) : List Char := es.flatMap Expr.spell

/-- A clause as a template. -/
def Clause.spell (c : Clause) : String := String.ofList (spellAll c.exprs)

@[simp] theorem spellAll_cons (e : Expr) (es : List Expr) :
    spellAll (e :: es) = e.spell ++ spellAll es := List.flatMap_cons

@[simp] theorem Clause.exprs_cons (item : Item) (c : Clause) :
    Clause.exprs (item :: c) = item.expr :: c.exprs := rfl

/-! ## Quoted arguments -/

/-- A quotation ends at the quote that is not doubled. -/
theorem quotation_double {q : Char} (cs : List Char) {rest : List Char}
    (h : rest.head? ≠ some q) :
    quotation q (Text.double q cs ++ q :: rest) = (Text.double q cs ++ [q], rest, true) := by
  induction cs with
  | nil =>
      cases rest with
      | nil => simp [Text.double, quotation]
      | cons d rest =>
          have hne : d ≠ q := by simpa using h
          simp [Text.double, quotation, hne]
  | cons c cs ih =>
      by_cases hc : c = q
      · subst hc
        simp [Text.double, quotation, ih]
      · obtain ⟨d, ds, hds⟩ : ∃ d ds, Text.double q cs ++ q :: rest = d :: ds := by
          cases Text.double q cs <;> simp
        simp only [Text.double, if_neg hc, List.cons_append]
        rw [hds] at ih ⊢
        simp [quotation, hc, ih]

theorem argument_spell (arg : String) (p : Position) :
    argument ⟨.quoted true, spellArgument arg, p⟩ = .ok arg := by
  simp [argument, spellArgument, Text.enclose, unquote, Text.collapse_double]

/-- A quoted argument is one token, behind any blanks. -/
theorem next_spellArgument {p : Position} {gap : List Char}
    (hgap : ∀ c ∈ gap, Text.isBlank c = true) (arg : String) {rest : List Char}
    (h : rest.head? ≠ some '\'') :
    Lexer.next ⟨.arguments, p, gap ++ (spellArgument arg ++ rest)⟩ =
      some (⟨.quoted true, spellArgument arg, p.after gap⟩,
        ⟨.arguments, (p.after gap).after (spellArgument arg), rest⟩) := by
  have hquote : NotFirst Text.isBlank (spellArgument arg ++ rest) := by
    rintro _ ⟨⟩
    decide
  have hspell : spellArgument arg ++ rest =
      '\'' :: (Text.double '\'' arg.toList ++ '\'' :: rest) := by
    simp [spellArgument, Text.enclose]
  simp only [Lexer.next, takeWhile_run hgap hquote, dropWhile_run hgap hquote]
  rw [hspell]
  simp [Lexer.nextArgument, quotation_double _ h, Lexer.emit, spellArgument, Text.enclose]

theorem next_comma (p : Position) (rest : List Char) :
    Lexer.next ⟨.arguments, p, ',' :: rest⟩ =
      some (⟨.comma, [','], p⟩, ⟨.arguments, p.next ',', rest⟩) := rfl

theorem next_closeParen (p : Position) (rest : List Char) :
    Lexer.next ⟨.arguments, p, ')' :: rest⟩ =
      some (⟨.closeParen, [')'], p⟩, ⟨.text, p.next ')', rest⟩) := rfl

theorem spellArguments_singleton (arg : String) :
    spellArguments [arg] = spellArgument arg ++ [')'] := by
  simp [spellArguments]

theorem spellArguments_cons_cons (arg arg' : String) (args : List String) :
    spellArguments (arg :: arg' :: args) =
      spellArgument arg ++ ',' :: ' ' :: spellArguments (arg' :: args) := by
  simp [spellArguments, List.intercalate_cons_cons]

theorem arguments_spell {p : Position} {gap : List Char}
    (hgap : ∀ c ∈ gap, Text.isBlank c = true) (arg : String) (args : List String)
    (rest : List Char) :
    ∃ p', Arguments ⟨.arguments, p, gap ++ (spellArguments (arg :: args) ++ rest)⟩ (arg :: args)
      ⟨.text, p', rest⟩ := by
  induction args generalizing arg p gap with
  | nil =>
      have hclose : (')' :: rest).head? ≠ some '\'' := by simp
      have hnext := next_spellArgument (p := p) hgap arg hclose
      rw [spellArguments_singleton, List.append_assoc]
      exact ⟨_, .last hnext (argument_spell arg _) (next_closeParen _ rest) rfl⟩
  | cons arg' args ih =>
      have hcomma : (',' :: ([' '] ++ (spellArguments (arg' :: args) ++ rest))).head? ≠
          some '\'' := by simp
      have hblank : ∀ c ∈ [' '], Text.isBlank c = true := by
        intro c hc
        rw [List.mem_singleton.mp hc]
        rfl
      have hnext := next_spellArgument (p := p) hgap arg hcomma
      rw [spellArguments_cons_cons, List.append_assoc]
      obtain ⟨p', hargs⟩ := ih hblank arg'
      exact ⟨p', .more hnext (argument_spell arg _) (next_comma _ _) rfl hargs⟩

theorem argumentList_spell (p : Position) (args : List String) (rest : List Char) :
    ∃ p', ArgumentList ⟨.arguments, p, spellArguments args ++ rest⟩ args ⟨.text, p', rest⟩ := by
  cases args with
  | nil => exact ⟨_, .empty (next_closeParen p rest) rfl⟩
  | cons arg args =>
      have hnil : ∀ c ∈ ([] : List Char), Text.isBlank c = true := by simp
      obtain ⟨p', h⟩ := arguments_spell (p := p) hnil arg args rest
      exact ⟨p', .some h⟩

/-! ## Clauses -/

theorem FunctionReading.exists_spell {p p' : Position} {cs rest : List Char} {e : Expr}
    (h : FunctionReading p cs e p' rest) : ∃ cs', e.spell = '#' :: cs' := by
  cases h <;> exact ⟨_, rfl⟩

/-- A function that is written back reads as the same one, if what comes next begins as it
did. -/
theorem FunctionReading.spell {p p' : Position} {cs rest : List Char} {e : Expr}
    (h : FunctionReading p cs e p' rest) {rest' : List Char} (hhead : rest'.head? = rest.head?)
    (q : Position) :
    ∃ cs' q', e.spell ++ rest' = '#' :: cs' ∧ FunctionReading q cs' e q' rest' := by
  -- A call is written with parentheses also where it had none.
  have hcall : ∀ {name : List Char}, IsName name → ∀ args, ∃ cs' q',
      (Expr.call (String.ofList name) args).spell ++ rest' = '#' :: cs' ∧
        FunctionReading q cs' (.call (String.ofList name) args) q' rest' := by
    intro name hname args
    obtain ⟨q', hlist⟩ := argumentList_spell ((q.after name).next '(') args rest'
    exact ⟨_, q', by simp [Expr.spell], .call hname hlist⟩
  cases h with
  | marker hname hrest hdigit hparen =>
      refine ⟨_, _, by simp [Expr.spell], .marker hname ?_ ?_ ?_⟩
      · rwa [NotFirst, hhead]
      · rwa [NotFirst, hhead]
      · rwa [hhead]
  | short hname _ _ _ => exact hcall hname _
  | call hname _ => exact hcall hname _

namespace Reading

variable {style? : Option Style} {count : Nat} {p : Position} {cs : List Char} {c : Clause}

theorem head?_spell (h : Reading style? count p cs c) :
    (spellAll c.exprs).head? = cs.head? := by
  cases h with
  | nil => rfl
  | text hne hclosed h =>
      obtain ⟨ch, run, hrun⟩ := List.exists_cons_of_ne_nil hne
      have happ := verbatim_append none cs
      have hcs : cs.head? = some ch := by
        rw [← happ, hrun]
        rfl
      rw [Clause.exprs_cons, spellAll_cons, Expr.spell, hrun, hcs]
      simp
  | positional => rfl
  | indexed => rfl
  | function hfunction h =>
      obtain ⟨cs', hspell⟩ := hfunction.exists_spell
      simp [hspell]

/-- Where the characters stop, what is written back stops too. -/
theorem stops_spell (h : Reading style? count p cs c) (hstops : Stops cs) :
    Stops (spellAll c.exprs) := by
  cases h with
  | nil => exact hstops
  | text hne _ _ => exact absurd (by rw [hstops]) hne
  | @positional _ _ _ rest c _ hsign _ h => 
      have hhead : (spellAll c.exprs).head? ≠ some '?' := by rwa [h.head?_spell]
      exact stops_sign .positional hhead
  | indexed => exact stops_sign .indexed (head?_digits_append _ _)
  | function hfunction h =>
      obtain ⟨cs', hspell⟩ := hfunction.exists_spell
      rw [Clause.exprs_cons, spellAll_cons, hspell]
      exact stops_hash _

/-- **What is written back reads as the same expressions**, at whatever position. -/
theorem spell (h : Reading style? count p cs c) (q : Position) :
    ∃ c', Reading style? count q (spellAll c.exprs) c' ∧ c'.exprs = c.exprs := by
  induction h generalizing q with
  | nil => exact ⟨[], .nil, rfl⟩
  | @text _ _ _ cs c hne hclosed h ih =>
      obtain ⟨c', hc', hexprs⟩ := ih (q.after (verbatim none cs).1)
      -- A reference came behind the text, and what is written in its place is one too.
      have hverbatim := verbatim_append_of_stops hclosed (h.stops_spell (stops_rest none cs))
      have hreading : Reading _ _ q ((verbatim none cs).1 ++ spellAll c.exprs) _ :=
        .text (by rwa [hverbatim]) (by rw [hverbatim]) (by rwa [hverbatim])
      rw [hverbatim] at hreading
      refine ⟨⟨q, .text _⟩ :: c', ?_, congrArg (List.cons _) hexprs⟩
      rwa [Clause.exprs_cons, spellAll_cons, Expr.spell, String.toList_ofList]
  | @positional _ _ _ rest c hstyle hsign hdigit h ih =>
      obtain ⟨c', hc', hexprs⟩ := ih (q.next '?')
      have hhead : (spellAll c.exprs).head? = rest.head? := h.head?_spell
      rw [← hhead] at hsign
      rw [NotFirst, ← hhead] at hdigit
      exact ⟨_, .positional hstyle hsign hdigit hc', congrArg (List.cons _) hexprs⟩
  | @indexed _ _ _ n rest c hstyle hpos hlimit hdigit h ih =>
      obtain ⟨c', hc', hexprs⟩ := ih ((q.next '$').after (digits n))
      have hhead : (spellAll c.exprs).head? = rest.head? := h.head?_spell
      rw [NotFirst, ← hhead] at hdigit
      exact ⟨_, .indexed hstyle hpos hlimit hdigit hc', congrArg (List.cons _) hexprs⟩
  | @function _ _ _ _ _ _ e c hfunction h ih =>
      obtain ⟨cs', q', hspell, hfunction'⟩ := hfunction.spell h.head?_spell (q.next '#')
      obtain ⟨c', hc', hexprs⟩ := ih q'
      refine ⟨⟨q, e⟩ :: c', ?_, congrArg (List.cons _) hexprs⟩
      rw [Clause.exprs_cons, spellAll_cons, hspell]
      exact .function hfunction' hc'

end Reading

/-- **What is parsed can be written back, and is parsed to the same.** And every call of a
function by a name that can be read is parsed to exactly that call, whatever characters its
arguments have. -/
theorem parse_spell :
    (∀ raw c, parse raw = .ok c → ∃ c', parse c.spell = .ok c' ∧ c'.exprs = c.exprs) ∧
    ∀ (name : String) (args : List String), name ≠ "" → (∀ ch ∈ name.toList, isNameChar ch) →
      parse (Clause.spell [⟨.start, .call name args⟩]) = .ok [⟨.start, .call name args⟩] := by
  constructor
  · intro raw c h
    obtain ⟨c', hc', hexprs⟩ := (parse_eq_ok_iff.mp h).spell .start
    refine ⟨c', parse_eq_ok_iff.mpr ?_, hexprs⟩
    rwa [Clause.spell, String.toList_ofList]
  · intro name args hne hname
    have hisName : IsName name.toList := ⟨by simpa using hne, hname⟩
    obtain ⟨p, hlist⟩ := argumentList_spell
      (((Position.next .start '#').after name.toList).next '(') args []
    have hreading : Reading none 0 .start _ _ := .function (.call hisName hlist) .nil
    rw [String.ofList_toList, List.append_nil] at hreading
    refine parse_eq_ok_iff.mpr ?_
    simpa [Clause.spell, spellAll, Clause.exprs, Expr.spell] using hreading

/-- A digit behind a positional placeholder, a sign twice, a call without parentheses before a
marker, and a quote in an argument. -/
theorem parse_spell_sample : ∃ c c',
    parse "x = ?05, ?? '#' #c1#t, #join(\"it's #$\", ', ')" = .ok c ∧
    c.spell = "x = ?05, ?? '#' #c('1')#t, #join('it''s #$', ', ')" ∧
    parse c.spell = .ok c' ∧ c'.exprs = c.exprs ∧
    parse (Clause.spell [⟨.start, .call "a$" ["", "it's", "#b(', $1)"]⟩]) =
      .ok [⟨.start, .call "a$" ["", "it's", "#b(', $1)"]⟩] := by
  have hspell : (parse "x = ?05, ?? '#' #c1#t, #join(\"it's #$\", ', ')").toOption.map
      Clause.spell = some "x = ?05, ?? '#' #c('1')#t, #join('it''s #$', ', ')" := by
    decide +kernel
  cases hc : parse "x = ?05, ?? '#' #c1#t, #join(\"it's #$\", ', ')" with
  | error e =>
      rw [hc] at hspell
      cases hspell
  | ok c =>
      rw [hc] at hspell
      obtain ⟨c', hc', hexprs⟩ := parse_spell.1 _ c hc
      exact ⟨c, c', rfl, Option.some.inj hspell, hc', hexprs,
        parse_spell.2 _ _ (by decide) (List.all_eq_true.mp (by decide))⟩

end SqlTemplate.Template
