import SqlTemplate.Proofs.Lexing

/-!
# What a template reads as

The lexer and the parser together, as one relation between the characters of a
template and its clause. There is one case for each kind of item, with what must
not come next: a digit behind an index, a letter behind a name, the same sign
behind a placeholder. A template is parsed to a clause exactly if it reads as that
clause (`parse_eq_ok_iff`), so what is true of all clauses can be shown by
induction on the relation, without tokens.
-/

namespace SqlTemplate.Template

open Number

/-! ## Arguments -/

/-- The arguments between two states of the lexer, up to the closing parenthesis. -/
inductive Arguments : Lexer → List String → Lexer → Prop
  | last {l₀ l₁ l₂ : Lexer} {t u : Token} {arg : String} (ht : l₀.next = some (t, l₁))
      (harg : argument t = .ok arg) (hu : l₁.next = some (u, l₂))
      (hclose : u.kind = .closeParen) : Arguments l₀ [arg] l₂
  | more {l₀ l₁ l₂ l₃ : Lexer} {t u : Token} {arg : String} {args : List String}
      (ht : l₀.next = some (t, l₁)) (harg : argument t = .ok arg) (hu : l₁.next = some (u, l₂))
      (hcomma : u.kind = .comma) (h : Arguments l₂ args l₃) : Arguments l₀ (arg :: args) l₃

/-- An argument list behind its opening parenthesis. -/
inductive ArgumentList : Lexer → List String → Lexer → Prop
  | empty {l₀ l₁ : Lexer} {u : Token} (hu : l₀.next = some (u, l₁))
      (hclose : u.kind = .closeParen) : ArgumentList l₀ [] l₁
  | some {l₀ l₁ : Lexer} {args : List String} (h : Arguments l₀ args l₁) :
    ArgumentList l₀ args l₁

namespace Lexer

/-- The next token of some tokens. -/
theorem exists_next {l : Lexer} {t : Token} {ts : List Token} (h : l.tokens = t :: ts) :
    ∃ l', l.next = some (t, l') ∧ l'.tokens = ts := by
  cases hnext : l.next with
  | none =>
      rw [tokens_eq_nil hnext] at h
      cases h
  | some step =>
      obtain ⟨t', l'⟩ := step
      rw [tokens_eq_cons hnext] at h
      cases h
      exact ⟨l', rfl, rfl⟩

/-- Text is not read as anything but text or the beginning of a reference. -/
theorem kind_of_nextText {l l' : Lexer} {t : Token} (h : l.nextText = some (t, l')) :
    (∃ closed, t.kind = .text closed) ∨ t.kind = .hash ∨ ∃ style, t.kind = .marker style := by
  unfold nextText at h
  split at h
  · cases h
  · split at h <;> cases h
    · exact .inr (.inl rfl)
    · exact .inr (.inr ⟨_, rfl⟩)
  · cases h
    exact .inl ⟨_, rfl⟩

theorem kind_of_tokens {p : Position} {cs : List Char} {t : Token} {ts : List Token}
    (h : tokens ⟨.text, p, cs⟩ = t :: ts) :
    (∃ closed, t.kind = .text closed) ∨ t.kind = .hash ∨ ∃ style, t.kind = .marker style := by
  obtain ⟨l', hnext, _⟩ := exists_next h
  exact kind_of_nextText hnext

/-- Behind a closing parenthesis the text goes on. -/
theorem step_of_closeParen {l l' : Lexer} {t : Token} (h : l.next = some (t, l'))
    (hclose : t.kind = .closeParen) : l'.mode = .text ∧ t.lexeme = [')'] := by
  have htext : l.nextText ≠ some (t, l') := by
    intro h
    rcases kind_of_nextText h with ⟨_, hkind⟩ | hkind | ⟨_, hkind⟩ <;> simp [hkind] at hclose
  unfold next at h
  split at h
  · exact absurd h htext
  · split at h
    · exact absurd h htext
    · split at h
      · exact absurd h htext
      · cases h
        cases hclose
  · split at h
    · exact absurd h htext
    · cases h
      cases hclose
  · split at h
    · cases h
      cases hclose
    · exact absurd h htext
    · cases h
      cases hclose
  · simp only at h
    split at h
    · cases h
    · simp only [nextArgument] at h
      split at h
      · cases h
        cases hclose
      · split at h
        · rename_i hparen
          cases h
          exact ⟨rfl, congrArg (fun c => [c]) hparen⟩
        · split at h <;> cases h <;> cases hclose

end Lexer

theorem arguments_of_takeArguments {finish : Position} {l : Lexer} {args : List String}
    {rest : List Token} (h : takeArguments finish l.tokens = .ok (args, rest)) :
    ∃ l', Arguments l args l' ∧ l'.tokens = rest := by
  generalize hts : l.tokens = ts at h
  fun_induction takeArguments finish ts generalizing l args with
  | case1 => cases h
  | case2 => cases h
  | case3 => cases h
  | case4 => cases h
  | case5 t separator tail arg harg hclose =>
      cases h
      obtain ⟨l₁, ht, hl₁⟩ := Lexer.exists_next hts
      obtain ⟨l₂, hu, hl₂⟩ := Lexer.exists_next hl₁
      exact ⟨l₂, .last ht harg hu hclose, hl₂⟩
  | case6 => cases h
  | case7 t separator tail arg harg hcomma args' rest' hrec ih =>
      cases h
      obtain ⟨l₁, ht, hl₁⟩ := Lexer.exists_next hts
      obtain ⟨l₂, hu, hl₂⟩ := Lexer.exists_next hl₁
      obtain ⟨l₃, hargs, hl₃⟩ := ih hl₂ hrec
      exact ⟨l₃, .more ht harg hu hcomma hargs, hl₃⟩
  | case8 => cases h

theorem Arguments.takeArguments (finish : Position) {l l' : Lexer} {args : List String}
    (h : Arguments l args l') : takeArguments finish l.tokens = .ok (args, l'.tokens) := by
  induction h with
  | last ht harg hu hclose =>
      rw [Lexer.tokens_eq_cons ht, Lexer.tokens_eq_cons hu]
      simp [Template.takeArguments, harg, hclose]
  | more ht harg hu hcomma _ ih =>
      rw [Lexer.tokens_eq_cons ht, Lexer.tokens_eq_cons hu]
      simp [Template.takeArguments, harg, hcomma, ih]

theorem Arguments.not_closeParen {l l' : Lexer} {args : List String} (h : Arguments l args l') :
    ∃ t l₁, l.next = some (t, l₁) ∧ t.kind ≠ .closeParen := by
  have hkind : ∀ {t : Token} {arg : String}, argument t = .ok arg → t.kind ≠ .closeParen := by
    intro t arg harg hclose
    simp [argument, hclose] at harg
  cases h with
  | last ht harg _ _ => exact ⟨_, _, ht, hkind harg⟩
  | more ht harg _ _ _ => exact ⟨_, _, ht, hkind harg⟩

theorem argumentList_of_takeArgumentList {finish : Position} {l : Lexer} {args : List String}
    {rest : List Token} (h : takeArgumentList finish l.tokens = .ok (args, rest)) :
    ∃ l', ArgumentList l args l' ∧ l'.tokens = rest := by
  have hsome : takeArguments finish l.tokens = .ok (args, rest) →
      ∃ l', ArgumentList l args l' ∧ l'.tokens = rest := by
    intro h
    obtain ⟨l', hargs, hl'⟩ := arguments_of_takeArguments h
    exact ⟨l', .some hargs, hl'⟩
  cases hts : l.tokens with
  | nil =>
      rw [hts] at h hsome
      exact hsome h
  | cons t ts =>
      rw [hts] at h hsome
      rw [takeArgumentList] at h
      split at h
      · rename_i hclose
        cases h
        obtain ⟨l₁, ht, hl₁⟩ := Lexer.exists_next hts
        exact ⟨l₁, .empty ht hclose, hl₁⟩
      · exact hsome h

theorem ArgumentList.takeArgumentList (finish : Position) {l l' : Lexer} {args : List String}
    (h : ArgumentList l args l') :
    takeArgumentList finish l.tokens = .ok (args, l'.tokens) := by
  cases h with
  | empty hu hclose =>
      rw [Lexer.tokens_eq_cons hu]
      simp [Template.takeArgumentList, hclose]
  | some h =>
      obtain ⟨t, l₁, ht, hkind⟩ := h.not_closeParen
      have htake := h.takeArguments finish
      rw [Lexer.tokens_eq_cons ht] at htake ⊢
      rw [Template.takeArgumentList, if_neg hkind, htake]

/-- The argument list ends behind its closing parenthesis, where the text goes on. -/
theorem ArgumentList.mode_eq {l l' : Lexer} {args : List String} (h : ArgumentList l args l') :
    l'.mode = .text := by
  cases h with
  | empty hu hclose => exact (Lexer.step_of_closeParen hu hclose).1
  | some h =>
      induction h with
      | last _ _ hu hclose => exact (Lexer.step_of_closeParen hu hclose).1
      | more _ _ _ _ _ ih => exact ih

/-! ## Items -/

theorem isNameChar_of_isDigit {c : Char} (h : c.isDigit = true) : isNameChar c = false := by
  obtain ⟨d, hd, rfl⟩ := exists_digitChar h
  have hall : ∀ d < 10, isNameChar (Nat.digitChar d) = false := by decide
  exact hall d hd

/-- A name of a function. -/
def IsName (cs : List Char) : Prop := cs ≠ [] ∧ ∀ c ∈ cs, isNameChar c = true

/-- The characters behind the sign of a function, from `p` on, read as an expression. It ends
at the last position, before the last characters. -/
inductive FunctionReading (p : Position) : List Char → Expr → Position → List Char → Prop
  | marker {name rest : List Char} (hname : IsName name) (hrest : NotFirst isNameChar rest)
      (hdigit : NotFirst Char.isDigit rest) (hparen : rest.head? ≠ some '(') :
    FunctionReading p (name ++ rest) (.marker (String.ofList name)) (p.after name) rest
  | short {name ds rest : List Char} (hname : IsName name) (hne : ds ≠ [])
      (hds : ∀ d ∈ ds, d.isDigit = true) (hdigit : NotFirst Char.isDigit rest) :
    FunctionReading p (name ++ (ds ++ rest)) (.call (String.ofList name) [String.ofList ds])
      ((p.after name).after ds) rest
  | call {p' : Position} {name list rest : List Char} {args : List String} (hname : IsName name)
      (hlist : ArgumentList ⟨.arguments, (p.after name).next '(', list⟩ args ⟨.text, p', rest⟩) :
    FunctionReading p (name ++ '(' :: list) (.call (String.ofList name) args) p' rest

/-- The characters from `p` on read as a clause, behind items with `count` positional
placeholders and with placeholders of the style `style?` only. -/
inductive Reading : Option Style → Nat → Position → List Char → Clause → Prop
  | nil {style? : Option Style} {count : Nat} {p : Position} : Reading style? count p [] []
  | text {style? : Option Style} {count : Nat} {p : Position} {cs : List Char} {c : Clause}
      (hne : (verbatim none cs).1 ≠ []) (hclosed : (verbatim none cs).2.2 = none)
      (h : Reading style? count (p.after (verbatim none cs).1) (verbatim none cs).2.1 c) :
    Reading style? count p cs (⟨p, .text (String.ofList (verbatim none cs).1)⟩ :: c)
  | positional {style? : Option Style} {count : Nat} {p : Position} {rest : List Char}
      {c : Clause} (hstyle : style? = none ∨ style? = some .positional)
      (hsign : rest.head? ≠ some '?') (hdigit : rest.head? = some '0' ∨ NotFirst Char.isDigit rest)
      (h : Reading (some .positional) (count + 1) (p.next '?') rest c) :
    Reading style? count p ('?' :: rest) (⟨p, .bind .positional (count + 1)⟩ :: c)
  | indexed {style? : Option Style} {count : Nat} {p : Position} {n : Nat} {rest : List Char}
      {c : Clause} (hstyle : style? = none ∨ style? = some .indexed) (hpos : 0 < n)
      (hlimit : n < indexLimit) (hdigit : NotFirst Char.isDigit rest)
      (h : Reading (some .indexed) count ((p.next '$').after (digits n)) rest c) :
    Reading style? count p ('$' :: (digits n ++ rest)) (⟨p, .bind .indexed n⟩ :: c)
  | function {style? : Option Style} {count : Nat} {p p' : Position} {cs rest : List Char}
      {expr : Expr} {c : Clause} (hfunction : FunctionReading (p.next '#') cs expr p' rest)
      (h : Reading style? count p' rest c) :
    Reading style? count p ('#' :: cs) (⟨p, expr⟩ :: c)

/-- The style of the placeholders that there were. -/
def Marks.style? (m : Marks) : Option Style := m.first.map Prod.fst

theorem Marks.note_ok {m m' : Marks} {style : Style} {p : Position}
    (h : m.note style p = .ok m') :
    (m.style? = none ∨ m.style? = some style) ∧ m'.style? = some style ∧
      m'.positional = if style = .positional then m.positional + 1 else m.positional := by
  obtain ⟨first, positional⟩ := m
  cases first with
  | none =>
      cases h
      exact ⟨.inl rfl, rfl, rfl⟩
  | some first =>
      obtain ⟨st, q⟩ := first
      simp only [note] at h
      split at h
      · rename_i hst
        cases h
        subst hst
        exact ⟨.inr rfl, rfl, rfl⟩
      · cases h

theorem Marks.exists_note {m : Marks} {style : Style} (p : Position)
    (h : m.style? = none ∨ m.style? = some style) : ∃ m', m.note style p = .ok m' := by
  obtain ⟨first, positional⟩ := m
  cases first with
  | none => exact ⟨_, rfl⟩
  | some first =>
      obtain ⟨st, q⟩ := first
      obtain rfl : st = style := by simpa [style?] using h
      exact ⟨_, if_pos rfl⟩

theorem takeItems_cons_ok {finish : Position} {m : Marks} {t : Token} {rest : List Token}
    {c : Clause} :
    takeItems finish m (t :: rest) = .ok c ↔ ∃ item m' rest' c',
      takeItem finish m t rest = .ok (item, m', rest') ∧ takeItems finish m' rest' = .ok c' ∧
        c = item :: c' := by
  rw [takeItems]
  split
  · rename_i hitem
    simp [hitem]
  · rename_i hitem
    rw [hitem]
    split
    · rename_i hitems
      simp [hitems]
    · rename_i hitems
      simp [hitems, eq_comm]

theorem ArgumentList.length_le {l l' : Lexer} {args : List String} (h : ArgumentList l args l') :
    l'.rest.length ≤ l.rest.length := by
  cases h with
  | empty hu _ =>
      have := Lexer.next_length hu
      omega
  | some h =>
      induction h with
      | last ht _ hu _ =>
          have := Lexer.next_length ht
          have := Lexer.next_length hu
          omega
      | more ht _ hu _ _ ih =>
          have := Lexer.next_length ht
          have := Lexer.next_length hu
          omega

theorem exists_functionReading {finish p : Position} {cs : List Char} {expr : Expr}
    {ts : List Token} (h : takeFunction finish (Lexer.tokens ⟨.name, p, cs⟩) = .ok (expr, ts)) :
    ∃ p' rest, FunctionReading p cs expr p' rest ∧ ts = Lexer.tokens ⟨.text, p', rest⟩ := by
  obtain ⟨name, cs, rfl, hname, hrest⟩ := exists_run isNameChar cs
  by_cases hne : name = []
  · subst hne
    rw [List.nil_append, Lexer.tokens_name_nil hrest] at h
    cases hts : Lexer.tokens ⟨.text, p, cs⟩ with
    | nil =>
        rw [hts] at h
        cases h
    | cons t ts' =>
        rw [hts] at h
        rcases Lexer.kind_of_tokens hts with ⟨_, hkind⟩ | hkind | ⟨_, hkind⟩ <;>
          simp [takeFunction, hkind] at h
  · rw [Lexer.tokens_name hne hname hrest] at h
    simp only [takeFunction, if_true] at h
    obtain ⟨ds, cs, rfl, hds, hdigit⟩ := exists_run Char.isDigit cs
    by_cases hds' : ds = []
    · subst hds'
      rw [List.nil_append] at h hrest
      by_cases hparen : cs.head? = some '('
      · obtain ⟨list, rfl⟩ : ∃ list, cs = '(' :: list := by
          cases cs <;> simp_all
        rw [Lexer.tokens_suffix_paren] at h
        simp only at h
        split at h
        · cases h
        · rename_i args rest hargs
          cases h
          obtain ⟨⟨mode, p', rest⟩, hlist, rfl⟩ := argumentList_of_takeArgumentList hargs
          obtain rfl : mode = .text := hlist.mode_eq
          exact ⟨p', rest, .call ⟨hne, hname⟩ hlist, rfl⟩
      · rw [Lexer.tokens_suffix hdigit hparen] at h
        have hmarker := FunctionReading.marker (p := p) ⟨hne, hname⟩ hrest hdigit hparen
        cases hts : Lexer.tokens ⟨.text, p.after name, cs⟩ with
        | nil =>
            rw [hts] at h
            cases h
            exact ⟨_, _, hmarker, hts.symm⟩
        | cons t ts' =>
            rw [hts] at h
            rcases Lexer.kind_of_tokens hts with ⟨_, hkind⟩ | hkind | ⟨_, hkind⟩ <;>
              simp only [hkind] at h <;> cases h <;> exact ⟨_, _, hmarker, hts.symm⟩
    · rw [Lexer.tokens_suffix_digits hds' hds hdigit] at h
      cases h
      exact ⟨_, _, .short ⟨hne, hname⟩ hds' hds hdigit, rfl⟩

theorem FunctionReading.takeFunction (finish : Position) {p p' : Position} {cs rest : List Char}
    {expr : Expr} (h : FunctionReading p cs expr p' rest) :
    takeFunction finish (Lexer.tokens ⟨.name, p, cs⟩) =
      .ok (expr, Lexer.tokens ⟨.text, p', rest⟩) := by
  cases h with
  | @marker name _ hname hrest hdigit hparen =>
      rw [Lexer.tokens_name hname.1 hname.2 hrest, Lexer.tokens_suffix hdigit hparen]
      simp only [Template.takeFunction, if_true]
      cases hts : Lexer.tokens ⟨.text, p.after name, rest⟩ with
      | nil => rfl
      | cons t ts =>
          rcases Lexer.kind_of_tokens hts with ⟨_, hkind⟩ | hkind | ⟨_, hkind⟩ <;>
            simp only [hkind]
  | @short name ds _ hname hne hds hdigit =>
      have hrest : NotFirst isNameChar (ds ++ rest) := by
        obtain ⟨d, ds', rfl⟩ := List.exists_cons_of_ne_nil hne
        rintro _ ⟨⟩
        exact isNameChar_of_isDigit (hds d (by simp))
      rw [Lexer.tokens_name hname.1 hname.2 hrest, Lexer.tokens_suffix_digits hne hds hdigit]
      rfl
  | @call _ name list _ args hname hlist =>
      have hrest : NotFirst isNameChar ('(' :: list) := by
        rintro _ ⟨⟩
        rfl
      rw [Lexer.tokens_name hname.1 hname.2 hrest, Lexer.tokens_suffix_paren]
      simp only [Template.takeFunction, if_true, hlist.takeArgumentList finish]

theorem FunctionReading.length_le {p p' : Position} {cs rest : List Char} {expr : Expr}
    (h : FunctionReading p cs expr p' rest) : rest.length ≤ cs.length := by
  cases h with
  | marker =>
      rw [List.length_append]
      omega
  | short =>
      rw [List.length_append, List.length_append]
      omega
  | call _ hlist =>
      have := hlist.length_le
      simp only [List.length_append, List.length_cons] at this ⊢
      omega

/-- Behind the sign of a placeholder there is an index, or the text goes on. -/
theorem index_cases (p : Position) (cs : List Char) :
    (cs.head? = some '0' ∨ NotFirst Char.isDigit cs) ∨
      ∃ n rest, 0 < n ∧ NotFirst Char.isDigit rest ∧ cs = digits n ++ rest ∧
        Lexer.tokens ⟨.index, p, cs⟩ =
          ⟨.digits, digits n, p⟩ :: Lexer.tokens ⟨.text, p.after (digits n), rest⟩ := by
  obtain ⟨ds, rest, rfl, hds, hrest⟩ := exists_run Char.isDigit cs
  by_cases hne : ds = []
  · subst hne
    exact .inl (.inr hrest)
  · by_cases hzero : ds.head? = some '0'
    · refine .inl (.inl ?_)
      rw [List.head?_append, hzero, Option.some_or]
    · obtain ⟨hpos, hdigits⟩ := digits_ofDigits hne hds hzero
      have htokens := Lexer.tokens_index_digits (p := p) hne hds hzero hrest
      exact .inr ⟨ofDigits ds, rest, hpos, hrest, by rw [hdigits], by rw [hdigits, htokens]⟩

/-- An index that is taken is written without leading zeros. -/
theorem takeIndex_ok {pos p : Position} {cs : List Char} {n : Nat} {ts : List Token}
    (h : takeIndex pos (Lexer.tokens ⟨.index, p, cs⟩) = .ok (n, ts)) :
    ∃ rest, 0 < n ∧ n < indexLimit ∧ NotFirst Char.isDigit rest ∧ cs = digits n ++ rest ∧
      ts = Lexer.tokens ⟨.text, p.after (digits n), rest⟩ := by
  rcases index_cases p cs with hdigit | ⟨n', rest, hpos, hrest, rfl, htokens⟩
  · rw [Lexer.tokens_index hdigit] at h
    cases hts : Lexer.tokens ⟨.text, p, cs⟩ with
    | nil => simp [hts, takeIndex] at h
    | cons t ts =>
        rcases Lexer.kind_of_tokens hts with ⟨_, hkind⟩ | hkind | ⟨_, hkind⟩ <;>
          simp [hts, takeIndex, hkind] at h
  · rw [htokens] at h
    simp only [takeIndex, if_true, ofDigits_digits] at h
    split at h
    · rename_i hlimit
      cases h
      exact ⟨rest, hpos, hlimit, hrest, rfl, rfl⟩
    · cases h

/-- Items do not begin with an index. -/
theorem takeItems_index {finish p : Position} {m : Marks} {cs : List Char} {c : Clause}
    (h : takeItems finish m (Lexer.tokens ⟨.index, p, cs⟩) = .ok c) :
    (cs.head? = some '0' ∨ NotFirst Char.isDigit cs) ∧
      takeItems finish m (Lexer.tokens ⟨.text, p, cs⟩) = .ok c := by
  rcases index_cases p cs with hdigit | ⟨_, _, _, _, _, htokens⟩
  · rw [Lexer.tokens_index hdigit] at h
    exact ⟨hdigit, h⟩
  · rw [htokens] at h
    obtain ⟨_, _, _, _, hdigits, _⟩ := takeItems_cons_ok.mp h
    simp [takeItem] at hdigits

/-- What is parsed is what the characters read as. -/
theorem reading_of_takeItems {finish p : Position} {m : Marks} {cs : List Char} {c : Clause}
    (h : takeItems finish m (Lexer.tokens ⟨.text, p, cs⟩) = .ok c) :
    Reading m.style? m.positional p cs c := by
  -- By induction on the length of the text, of which every item leaves less.
  induction hlen : cs.length using Nat.strongRecOn generalizing p m cs c with
  | ind n ih =>
      subst hlen
      cases begins cs with
      | nil =>
          rw [Lexer.tokens_nil, takeItems] at h
          cases h
          exact .nil
      | text hne =>
          rw [Lexer.tokens_text hne] at h
          obtain ⟨item, m', rest', c', hitem, hitems, rfl⟩ := takeItems_cons_ok.mp h
          have hclosed : (verbatim none cs).2.2 = none := by
            cases hquote : (verbatim none cs).2.2 with
            | none => rfl
            | some q => simp [takeItem, hquote] at hitem
          have hlt : (verbatim none cs).2.1.length < cs.length := by
            have happ := congrArg List.length (verbatim_append none cs)
            have hpos := List.length_pos_iff.mpr hne
            rw [List.length_append] at happ
            omega
          simp only [takeItem, hclosed, Option.isNone_none] at hitem
          cases hitem
          exact .text hne hclosed (ih _ hlt hitems rfl)
      | hash rest =>
          rw [Lexer.tokens_hash] at h
          obtain ⟨item, m', rest', c', hitem, hitems, rfl⟩ := takeItems_cons_ok.mp h
          simp only [takeItem] at hitem
          split at hitem
          · cases hitem
          · rename_i expr ts hfunction
            cases hitem
            obtain ⟨p', rest', hreading, rfl⟩ := exists_functionReading hfunction
            have hlt : rest'.length < ('#' :: rest).length := by
              have := hreading.length_le
              rw [List.length_cons]
              omega
            exact .function hreading (ih _ hlt hitems rfl)
      | @sign style rest hsign =>
          rw [Lexer.tokens_sign style hsign] at h
          obtain ⟨item, m', rest', c', hitem, hitems, rfl⟩ := takeItems_cons_ok.mp h
          simp only [takeItem] at hitem
          split at hitem
          · cases hitem
          · rename_i m'' hnote
            obtain ⟨hstyle, hstyle', hcount⟩ := Marks.note_ok hnote
            cases style with
            | positional =>
                cases hitem
                rw [if_pos rfl] at hcount
                obtain ⟨hdigit, hitems⟩ := takeItems_index hitems
                have hreading := ih _ (by simp) hitems rfl
                rw [hstyle', hcount] at hreading
                rw [hcount]
                exact .positional hstyle hsign hdigit hreading
            | indexed =>
                simp only at hitem
                split at hitem
                · cases hitem
                · rename_i n ts hindex
                  cases hitem
                  obtain ⟨rest, hpos, hlimit, hdigit, rfl, rfl⟩ := takeIndex_ok hindex
                  have hlt : rest.length < (Style.indexed.sign :: (digits n ++ rest)).length := by
                    rw [List.length_cons, List.length_append]
                    omega
                  have hreading := ih _ hlt hitems rfl
                  rw [hstyle', hcount] at hreading
                  exact .indexed hstyle hpos hlimit hdigit hreading

/-- What the characters read as is parsed. -/
theorem Reading.takeItems (finish : Position) {style? : Option Style} {count : Nat}
    {p : Position} {cs : List Char} {c : Clause} (h : Reading style? count p cs c) (m : Marks)
    (hstyle : m.style? = style?) (hcount : m.positional = count) :
    takeItems finish m (Lexer.tokens ⟨.text, p, cs⟩) = .ok c := by
  induction h generalizing m with
  | nil => rw [Lexer.tokens_nil, Template.takeItems]
  | text hne hclosed _ ih =>
      rw [Lexer.tokens_text hne]
      refine takeItems_cons_ok.mpr ⟨_, m, _, _, ?_, ih m hstyle hcount, rfl⟩
      simp [takeItem, hclosed]
  | @positional style? count p rest c hst hsign hdigit _ ih =>
      obtain ⟨m', hnote⟩ := Marks.exists_note p (hstyle ▸ hst)
      obtain ⟨_, hstyle', hcount'⟩ := Marks.note_ok hnote
      have htokens := Lexer.tokens_sign (p := p) .positional hsign
      rw [Style.sign, Lexer.tokens_index hdigit] at htokens
      rw [htokens]
      refine takeItems_cons_ok.mpr
        ⟨_, m', _, _, ?_, ih m' hstyle' (by simp [hcount', hcount]), rfl⟩
      simp [takeItem, hnote, hcount', hcount]
  | @indexed style? count p n rest c hst hpos hlimit hdigit _ ih =>
      obtain ⟨m', hnote⟩ := Marks.exists_note p (hstyle ▸ hst)
      obtain ⟨_, hstyle', hcount'⟩ := Marks.note_ok hnote
      have htokens := Lexer.tokens_sign (p := p) .indexed (head?_digits_append n rest)
      rw [Style.sign, Lexer.tokens_index_digits (digits_ne_nil n)
        (fun d hd => isDigit_of_mem_digits hd) (head?_digits hpos) hdigit] at htokens
      rw [htokens]
      refine takeItems_cons_ok.mpr
        ⟨_, m', _, _, ?_, ih m' hstyle' (by simp [hcount', hcount]), rfl⟩
      simp [takeItem, hnote, takeIndex, hlimit]
  | function hfunction _ ih =>
      rw [Lexer.tokens_hash]
      refine takeItems_cons_ok.mpr ⟨_, m, _, _, ?_, ih m hstyle hcount, rfl⟩
      simp [takeItem, hfunction.takeFunction finish]

/-- **What a template is parsed to is what it reads as.** -/
theorem parse_eq_ok_iff {raw : String} {c : Clause} :
    parse raw = .ok c ↔ Reading none 0 .start raw.toList c := by
  constructor
  · intro h
    exact reading_of_takeItems h
  · intro h
    exact h.takeItems _ {} rfl rfl

end SqlTemplate.Template
