import SqlTemplate.Template.Token
import SqlTemplate.Text.Basic

/-! The lexer of templates. It is total: each call gives the next token, or nothing when only
blanks of an argument list are left. The main statement is `next_split`: the text that is left
consists of skipped blanks, the lexeme and the text left afterwards, and no lexeme is empty. -/

namespace SqlTemplate.Template

open Text (isBlank trimEnd)

/-- What may come next. -/
inductive Mode
  /-- Text, a placeholder or a function. -/
  | text
  /-- Behind the sign of a placeholder, where an index may stand. -/
  | index
  /-- Behind the sign of a function, where its name may stand. -/
  | name
  /-- Behind a name, where an index or an argument list may stand. -/
  | suffix
  /-- Inside an argument list. -/
  | arguments
deriving DecidableEq, Repr

/-- The state of the lexer: the text that is left and where it begins. -/
structure Lexer where
  mode : Mode
  pos : Position
  rest : List Char
deriving DecidableEq, Repr

def isQuote (c : Char) : Bool := c == '\'' || c == '"' || c == '`'

def isMarker (c : Char) : Bool := c == '$' || c == '?'

def isNameChar (c : Char) : Bool := c.isAlpha || c == '_' || c == '$' || c == '?'

/-- Split off the longest text without a reference. The first argument is the quotation that
the text begins in, the last component the one it ends in. Inside a quotation nothing is a
reference, and the same sign twice is none. -/
def verbatim : Option Char → List Char → List Char × List Char × Option Char
  | quote, [] => ([], [], quote)
  | some q, c :: cs =>
    let (run, rest, quote) := verbatim (if c = q then none else some q) cs
    (c :: run, rest, quote)
  | none, [c] =>
    if isMarker c || c == '#' then ([], [c], none)
    else ([c], [], if isQuote c then some c else none)
  | none, c :: d :: cs =>
    if isMarker c then
      if c = d then
        let (run, rest, quote) := verbatim none cs
        (c :: d :: run, rest, quote)
      else ([], c :: d :: cs, none)
    else if c == '#' then ([], c :: d :: cs, none)
    else
      let (run, rest, quote) := verbatim (if isQuote c then some c else none) (d :: cs)
      (c :: run, rest, quote)

/-- Split off a quoted text behind its opening quote, with the closing quote if there is one.
The quote twice is part of the text. -/
def quotation (q : Char) : List Char → List Char × List Char × Bool
  | [] => ([], [], false)
  | [c] => ([c], [], c == q)
  | c :: d :: cs =>
    if c = q then
      if d = q then
        let (run, rest, closed) := quotation q cs
        (c :: d :: run, rest, closed)
      else ([c], d :: cs, true)
    else
      let (run, rest, closed) := quotation q (d :: cs)
      (c :: run, rest, closed)

namespace Lexer

/-- The lexer at the beginning of a template. -/
def ofString (s : String) : Lexer := ⟨.text, .start, s.toList⟩

/-- Give a token and go on behind it. -/
def emit (l : Lexer) (kind : Kind) (lexeme rest : List Char) (mode : Mode) : Token × Lexer :=
  (⟨kind, lexeme, l.pos⟩, ⟨mode, l.pos.after lexeme, rest⟩)

/-- The next token outside an argument list. -/
def nextText (l : Lexer) : Option (Token × Lexer) :=
  match verbatim none l.rest with
  | ([], [], _) => none
  | ([], c :: rest, _) =>
    if c = '#' then some (l.emit .hash [c] rest .name)
    else some (l.emit (.marker (if c = '?' then .positional else .indexed)) [c] rest .index)
  | (run, rest, quote) => some (l.emit (.text quote.isNone) run rest .text)

/-- The next token of an argument list, at a character that is not blank. -/
def nextArgument (l : Lexer) (c : Char) (rest : List Char) : Token × Lexer :=
  if c = ',' then l.emit .comma [c] rest .arguments
  else if c = ')' then l.emit .closeParen [c] rest .text
  else if c = '\'' ∨ c = '"' then
    let (run, rest, closed) := quotation c rest
    l.emit (.quoted closed) (c :: run) rest .arguments
  else
    let lexeme := trimEnd isBlank ((c :: rest).takeWhile fun d => d ≠ ',' ∧ d ≠ ')')
    l.emit .bare lexeme ((c :: rest).drop lexeme.length) .arguments

/-- The next token. -/
def next (l : Lexer) : Option (Token × Lexer) :=
  match l.mode with
  | .text => l.nextText
  | .index =>
    if l.rest.head? = some '0' then l.nextText
    else
      match l.rest.takeWhile Char.isDigit with
      | [] => l.nextText
      | ds => some (l.emit .digits ds (l.rest.dropWhile Char.isDigit) .text)
  | .name =>
    match l.rest.takeWhile isNameChar with
    | [] => l.nextText
    | name => some (l.emit .name name (l.rest.dropWhile isNameChar) .suffix)
  | .suffix =>
    match l.rest.takeWhile Char.isDigit, l.rest with
    | [], '(' :: rest => some (l.emit .openParen ['('] rest .arguments)
    | [], _ => l.nextText
    | ds, _ => some (l.emit .digits ds (l.rest.dropWhile Char.isDigit) .text)
  | .arguments =>
    let l : Lexer :=
      ⟨.arguments, l.pos.after (l.rest.takeWhile isBlank), l.rest.dropWhile isBlank⟩
    match l.rest with
    | [] => none
    | c :: rest => some (l.nextArgument c rest)

end Lexer

theorem verbatim_append (quote : Option Char) (cs : List Char) :
    (verbatim quote cs).1 ++ (verbatim quote cs).2.1 = cs := by
  fun_induction verbatim quote cs <;> simp_all

theorem quotation_append (q : Char) (cs : List Char) :
    (quotation q cs).1 ++ (quotation q cs).2.1 = cs := by
  fun_induction quotation q cs <;> simp_all

/-- What is skipped, taken and left by one step of the lexer. -/
structure Split (l : Lexer) (t : Token) (l' : Lexer) : Prop where
  /-- Only blanks of an argument list are skipped. -/
  skip : ∃ gap, l.rest = gap ++ (t.lexeme ++ l'.rest) ∧ t.pos = l.pos.after gap ∧
    (∀ c ∈ gap, isBlank c = true) ∧ (l.mode ≠ .arguments → gap = [])
  lexeme_ne_nil : t.lexeme ≠ []
  pos : l'.pos = t.pos.after t.lexeme

namespace Lexer

theorem split_emit {l : Lexer} {kind : Kind} {lexeme rest : List Char} {mode : Mode}
    (hne : lexeme ≠ []) (h : lexeme ++ rest = l.rest) :
    Split l (l.emit kind lexeme rest mode).1 (l.emit kind lexeme rest mode).2 where
  skip := ⟨[], by simp [emit, h], rfl, by simp, fun _ => rfl⟩
  lexeme_ne_nil := hne
  pos := rfl

theorem nextText_split {l l' : Lexer} {t : Token} (h : l.nextText = some (t, l')) :
    Split l t l' := by
  have happ := verbatim_append none l.rest
  unfold nextText at h
  split at h
  · cases h
  · next hv =>
    rw [hv] at happ
    split at h <;> cases h <;> exact split_emit (by simp) (by simpa using happ)
  · next run rest quote hnil hcons hv =>
    rw [hv] at happ
    cases h
    refine split_emit ?_ happ
    rintro rfl
    cases rest with
    | nil => exact hnil rfl rfl
    | cons c rest => exact hcons c rest rfl rfl

theorem nextArgument_split {l : Lexer} {c : Char} {rest : List Char} (hl : l.rest = c :: rest)
    (hc : isBlank c = false) :
    Split l (l.nextArgument c rest).1 (l.nextArgument c rest).2 := by
  unfold nextArgument
  split
  · exact split_emit (by simp) (by simp [hl])
  · split
    · exact split_emit (by simp) (by simp [hl])
    · split
      · exact split_emit (by simp) (by simpa [hl] using quotation_append c rest)
      · next hcomma hparen _ =>
        have hrun : (c :: rest).takeWhile (fun d => d ≠ ',' ∧ d ≠ ')') =
            c :: rest.takeWhile (fun d => d ≠ ',' ∧ d ≠ ')') := by
          simp [hcomma, hparen]
        refine split_emit ?_ ?_
        · rw [hrun]
          exact Text.trimEnd_cons_ne_nil hc
        · rw [hl]
          obtain ⟨tail, htail⟩ := Text.trimEnd_prefix isBlank
            ((c :: rest).takeWhile fun d => d ≠ ',' ∧ d ≠ ')')
          obtain ⟨more, hmore⟩ := List.takeWhile_prefix
            (fun d => decide (d ≠ ',' ∧ d ≠ ')')) (l := c :: rest)
          generalize (c :: rest).takeWhile (fun d => d ≠ ',' ∧ d ≠ ')') = run at htail hmore ⊢
          have hall : c :: rest = trimEnd isBlank run ++ (tail ++ more) := by
            rw [← List.append_assoc, htail, hmore]
          rw [hall, List.drop_left]

theorem next_split {l l' : Lexer} {t : Token} (h : l.next = some (t, l')) : Split l t l' := by
  unfold next at h
  split at h
  · exact nextText_split h
  · split at h
    · exact nextText_split h
    · split at h
      · exact nextText_split h
      · next hne =>
        cases h
        exact split_emit (by assumption) (List.takeWhile_append_dropWhile ..)
  · split at h
    · exact nextText_split h
    · cases h
      exact split_emit (by assumption) (List.takeWhile_append_dropWhile ..)
  · split at h
    · next hrest =>
      cases h
      exact split_emit (by simp) (by simp [hrest])
    · exact nextText_split h
    · cases h
      exact split_emit (by assumption) (List.takeWhile_append_dropWhile ..)
  · next hmode =>
    simp only at h
    split at h
    · cases h
    · next c rest hrest =>
      have hc : isBlank c = false := by
        have := List.head?_dropWhile_not isBlank l.rest
        rw [hrest] at this
        simpa using this
      have hs := nextArgument_split
        (l := ⟨.arguments, l.pos.after (l.rest.takeWhile isBlank), l.rest.dropWhile isBlank⟩)
        hrest hc
      rw [Option.some.inj h] at hs
      obtain ⟨gap, hgap, hpos, hblank, -⟩ := hs.skip
      refine ⟨⟨l.rest.takeWhile isBlank ++ gap, ?_, ?_, ?_, fun h => absurd hmode h⟩,
        hs.lexeme_ne_nil, hs.pos⟩
      · rw [List.append_assoc, ← hgap, List.takeWhile_append_dropWhile]
      · rw [hpos, Position.after_append]
      · intro d hd
        rcases List.mem_append.mp hd with hd | hd
        · exact List.all_eq_true.mp List.all_takeWhile d hd
        · exact hblank d hd

theorem next_length {l l' : Lexer} {t : Token} (h : l.next = some (t, l')) :
    t.lexeme.length + l'.rest.length ≤ l.rest.length ∧ 0 < t.lexeme.length := by
  have hs := next_split h
  obtain ⟨gap, hgap, -⟩ := hs.skip
  refine ⟨?_, List.length_pos_iff.mpr hs.lexeme_ne_nil⟩
  rw [hgap]
  simp only [List.length_append]
  omega

/-- All tokens from here to the end. -/
def tokens (l : Lexer) : List Token :=
  match _hnext : l.next with
  | none => []
  | some (t, l') => t :: l'.tokens
termination_by l.rest.length
decreasing_by have := next_length _hnext; omega

theorem tokens_eq_nil {l : Lexer} (h : l.next = none) : l.tokens = [] := by
  unfold tokens; split <;> simp_all

theorem tokens_eq_cons {l l' : Lexer} {t : Token} (h : l.next = some (t, l')) :
    l.tokens = t :: l'.tokens := by
  rw [tokens]; split <;> simp_all

theorem lexeme_ne_nil_of_mem_tokens {l : Lexer} {t : Token} (h : t ∈ l.tokens) :
    t.lexeme ≠ [] := by
  fun_induction tokens l with
  | case1 => simp at h
  | case2 l t' l' hnext ih =>
    rcases List.mem_cons.mp h with rfl | h
    · exact (next_split hnext).lexeme_ne_nil
    · exact ih h

/-- The tokens together are no longer than the text. -/
theorem weight_tokens_le (l : Lexer) : weight l.tokens ≤ l.rest.length := by
  fun_induction tokens l with
  | case1 => simp
  | case2 l t l' hnext ih =>
    have := next_length hnext
    rw [weight_cons]
    omega

end Lexer

end SqlTemplate.Template
