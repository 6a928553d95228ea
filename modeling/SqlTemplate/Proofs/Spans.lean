import Mathlib.Algebra.Group.Nat.Defs
import SqlTemplate.Proofs.Reading

/-!
# Spans and positions

What is parsed loses nothing of the template: the expressions stand for pieces of
it that follow one another from its beginning to its end. The lexer counts
positions as it goes along; `Position.IsAt` counts them in the text that lies
before. Every position of a clause, and every position that a syntax error
reports, is one of the template in this sense (`parse_lossless`). Offsets are
exact, lines and columns as far as 32 bits go.
-/

namespace SqlTemplate.Template

open Number

/-! ## Positions -/

namespace Position

/-- The line behind the text `front`. -/
def lineBehind (front : List Char) : Nat := 1 + front.count '\n'

/-- The column behind the text `front`: it counts the characters since the last line feed. -/
def columnBehind (front : List Char) : Nat := 1 + (front.reverse.takeWhile (· ≠ '\n')).length

/-- The place behind the text `front`. Line and column are counted in 32 bits. -/
structure IsAt (p : Position) (front : List Char) : Prop where
  offset : p.offset = (String.ofList front).utf8ByteSize
  line : p.line.toNat = lineBehind front % 2 ^ 32
  column : p.column.toNat = columnBehind front % 2 ^ 32

/-- The place is one between characters of the text, or one of its ends. -/
def IsIn (p : Position) (raw : String) : Prop :=
  ∃ front back, raw.toList = front ++ back ∧ p.IsAt front

theorem byteLength_eq (cs : List Char) :
    Text.byteLength cs = (String.ofList cs).utf8ByteSize := by
  induction cs with
  | nil => rfl
  | cons c cs ih =>
      rw [Text.byteLength_cons, ih, String.ofList_cons, String.utf8ByteSize_append,
        String.utf8ByteSize_singleton]

theorem lineBehind_concat (front : List Char) (c : Char) :
    lineBehind (front ++ [c]) = if c = '\n' then lineBehind front + 1 else lineBehind front := by
  unfold lineBehind
  rw [List.count_append, List.count_singleton]
  split <;> simp_all [Nat.add_assoc]

theorem columnBehind_concat (front : List Char) (c : Char) :
    columnBehind (front ++ [c]) = if c = '\n' then 1 else columnBehind front + 1 := by
  unfold columnBehind
  split <;> simp_all [Nat.add_comm 1]

/-- The counters of a position are those of the text that lies before, modulo `2 ^ 32`. -/
theorem isAt_after (front : List Char) : (start.after front).IsAt front := by
  induction front using List.reverseRecOn with
  | nil => exact ⟨rfl, rfl, rfl⟩
  | append_singleton front c ih =>
      refine ⟨?_, ?_, ?_⟩
      · rw [after_offset, ← byteLength_eq]
        exact Nat.zero_add _
      · rw [after_append, after_cons, after_nil, next, lineBehind_concat]
        split
        · rw [UInt32.toNat_add, ih.line, Nat.mod_add_mod]
          rfl
        · exact ih.line
      · rw [after_append, after_cons, after_nil, next, columnBehind_concat]
        split
        · rfl
        · rw [UInt32.toNat_add, ih.column, Nat.mod_add_mod]
          rfl

/-- As far as 32 bits go, line and column are exact. -/
theorem IsAt.exact {p : Position} {front : List Char} (h : p.IsAt front) :
    (lineBehind front < 2 ^ 32 → p.line.toNat = lineBehind front) ∧
      (columnBehind front < 2 ^ 32 → p.column.toNat = columnBehind front) :=
  ⟨fun hline => h.line.trans (Nat.mod_eq_of_lt hline),
    fun hcolumn => h.column.trans (Nat.mod_eq_of_lt hcolumn)⟩

theorem isIn_after {raw : String} {front back : List Char} (h : raw.toList = front ++ back) :
    (start.after front).IsIn raw :=
  ⟨front, back, h, isAt_after front⟩

/-- Where pieces of text begin that follow one another from `p` on. -/
def starts (p : Position) : List (List Char) → List Position
  | [] => []
  | span :: rest => p :: (p.after span).starts rest

theorem getElem_starts (p : Position) (spans : List (List Char)) {i : Nat}
    (hi : i < (p.starts spans).length) :
    (p.starts spans)[i] = p.after (spans.take i).flatten := by
  induction spans generalizing p i with
  | nil => simp [starts] at hi
  | cons span rest ih =>
      cases i with
      | zero => rfl
      | succ i =>
          simp only [starts, List.getElem_cons_succ, List.take_succ_cons, List.flatten_cons]
          rw [ih, after_append]

theorem offset_le_of_mem_starts {p q : Position} {spans : List (List Char)}
    (h : q ∈ p.starts spans) : p.offset ≤ q.offset := by
  induction spans generalizing p with
  | nil => cases h
  | cons span rest ih =>
      rcases List.mem_cons.mp h with rfl | h
      · exact Nat.le_refl _
      · have hrest := ih h
        rw [after_offset] at hrest
        omega

/-- Pieces that are not empty begin one behind the other. -/
theorem offset_starts_pairwise (p : Position) {spans : List (List Char)}
    (h : ∀ span ∈ spans, span ≠ []) :
    ((p.starts spans).map (·.offset)).Pairwise (· < ·) := by
  induction spans generalizing p with
  | nil => exact .nil
  | cons span rest ih =>
      rw [List.forall_mem_cons] at h
      rw [starts, List.map_cons, List.pairwise_cons]
      refine ⟨?_, ih _ h.2⟩
      intro offset hoffset
      obtain ⟨q, hq, rfl⟩ := List.mem_map.mp hoffset
      have hle := offset_le_of_mem_starts hq
      have hlt : 0 < Text.byteLength span := by
        obtain ⟨c, cs, rfl⟩ := List.exists_cons_of_ne_nil h.1
        have := c.utf8Size_pos
        rw [Text.byteLength_cons]
        omega
      rw [after_offset] at hle
      omega

end Position

/-! ## Pieces of a template -/

/-- The characters that an expression is read from. -/
inductive Expr.Spans : Expr → List Char → Prop
  | text {span : List Char} (hne : span ≠ []) : Spans (.text (String.ofList span)) span
  | positional (n : Nat) : Spans (.bind .positional n) ['?']
  | indexed (n : Nat) : Spans (.bind .indexed n) ('$' :: digits n)
  | marker (name : List Char) : Spans (.marker (String.ofList name)) ('#' :: name)
  /-- A call whose argument is the index behind the name. -/
  | short (name : List Char) {ds : List Char} (hne : ds ≠ [])
      (hds : ∀ d ∈ ds, d.isDigit = true) :
    Spans (.call (String.ofList name) [String.ofList ds]) ('#' :: (name ++ ds))
  | call (name list : List Char) (args : List String) :
    Spans (.call (String.ofList name) args) ('#' :: (name ++ '(' :: (list ++ [')'])))

theorem Expr.Spans.ne_nil {e : Expr} {span : List Char} (h : e.Spans span) : span ≠ [] := by
  cases h with
  | text hne => exact hne
  | _ => simp

theorem Clause.ne_nil_of_spans {c : Clause} {spans : List (List Char)}
    (h : List.Forall₂ (fun (item : Item) span => item.expr.Spans span) c spans) :
    ∀ span ∈ spans, span ≠ [] := by
  induction h with
  | nil => simp
  | cons hitem _ ih => exact List.forall_mem_cons.mpr ⟨hitem.ne_nil, ih⟩

/-- The pieces of the template that the items of the clause are read from. -/
structure Clause.Spans (items : Clause) (raw : String) (spans : List (List Char)) : Prop where
  cover : spans.flatten = raw.toList
  item : List.Forall₂ (fun (item : Item) span => item.expr.Spans span) items spans
  /-- Each item is placed behind the pieces of those before. -/
  pos : ∀ i (hi : i < items.length), items[i].pos.IsAt (spans.take i).flatten

namespace Lexer

/-- From one state to the other the lexer takes the characters. -/
structure Takes (l : Lexer) (cs : List Char) (l' : Lexer) : Prop where
  rest : l.rest = cs ++ l'.rest
  pos : l'.pos = l.pos.after cs

theorem Takes.trans {l l' l'' : Lexer} {cs ds : List Char} (h : l.Takes cs l')
    (h' : l'.Takes ds l'') : l.Takes (cs ++ ds) l'' where
  rest := by rw [h.rest, h'.rest, List.append_assoc]
  pos := by rw [h'.pos, h.pos, Position.after_append]

/-- A token is taken with the blanks before it. -/
theorem exists_takes {l l' : Lexer} {t : Token} (h : l.next = some (t, l')) :
    ∃ gap, l.Takes (gap ++ t.lexeme) l' ∧ t.pos = l.pos.after gap := by
  obtain ⟨⟨gap, hrest, hpos, _⟩, _, hnext⟩ := next_split h
  refine ⟨gap, ⟨?_, ?_⟩, hpos⟩
  · rw [hrest, List.append_assoc]
  · rw [hnext, hpos, Position.after_append]

theorem exists_takes_closeParen {l l' : Lexer} {t : Token} (h : l.next = some (t, l'))
    (hclose : t.kind = .closeParen) : ∃ gap, l.Takes (gap ++ [')']) l' := by
  obtain ⟨gap, htakes, _⟩ := exists_takes h
  rw [(step_of_closeParen h hclose).2] at htakes
  exact ⟨gap, htakes⟩

/-- Tokens are placed where they stand in the template. -/
theorem pos_of_mem_tokens {raw : String} {l : Lexer} {front : List Char}
    (hraw : raw.toList = front ++ l.rest) (hpos : l.pos = Position.start.after front) {t : Token}
    (ht : t ∈ l.tokens) : t.pos.IsIn raw := by
  fun_induction tokens l generalizing front with
  | case1 => cases ht
  | case2 l u l' hnext ih =>
      obtain ⟨gap, htakes, hu⟩ := exists_takes hnext
      rw [htakes.rest] at hraw
      rcases List.mem_cons.mp ht with rfl | ht
      · rw [hu, hpos, ← Position.after_append]
        have hsplit : raw.toList = (front ++ gap) ++ (t.lexeme ++ l'.rest) := by
          rw [hraw]
          simp only [List.append_assoc]
        exact Position.isIn_after hsplit
      · have hsplit : raw.toList = (front ++ (gap ++ u.lexeme)) ++ l'.rest := by
          rw [hraw, List.append_assoc, List.append_assoc, List.append_assoc]
        refine ih hsplit ?_ ht
        rw [htakes.pos, hpos, ← Position.after_append]

end Lexer

/-- An argument list ends in its closing parenthesis. -/
theorem Arguments.exists_takes {l l' : Lexer} {args : List String} (h : Arguments l args l') :
    ∃ list, l.Takes (list ++ [')']) l' := by
  induction h with
  | @last _ _ _ t _ _ ht _ hu hclose =>
      obtain ⟨gap, htakes, _⟩ := Lexer.exists_takes ht
      obtain ⟨gap', hend⟩ := Lexer.exists_takes_closeParen hu hclose
      have hall := htakes.trans hend
      rw [← List.append_assoc] at hall
      exact ⟨gap ++ t.lexeme ++ gap', hall⟩
  | @more _ _ _ _ t u _ _ ht _ hu _ _ ih =>
      obtain ⟨gap, htakes, _⟩ := Lexer.exists_takes ht
      obtain ⟨gap', htakes', _⟩ := Lexer.exists_takes hu
      obtain ⟨list, hend⟩ := ih
      have hall := (htakes.trans htakes').trans hend
      rw [← List.append_assoc] at hall
      exact ⟨gap ++ t.lexeme ++ (gap' ++ u.lexeme) ++ list, hall⟩

theorem ArgumentList.exists_takes {l l' : Lexer} {args : List String}
    (h : ArgumentList l args l') : ∃ list, l.Takes (list ++ [')']) l' := by
  cases h with
  | empty hu hclose => exact Lexer.exists_takes_closeParen hu hclose
  | some h => exact h.exists_takes

theorem FunctionReading.exists_span {p p' : Position} {cs rest : List Char} {e : Expr}
    (h : FunctionReading p cs e p' rest) :
    ∃ span, cs = span ++ rest ∧ p' = p.after span ∧ e.Spans ('#' :: span) := by
  cases h with
  | @marker name => exact ⟨name, rfl, rfl, .marker name⟩
  | @short name ds _ _ hne hds =>
      exact ⟨name ++ ds, (List.append_assoc ..).symm, (Position.after_append ..).symm,
        .short name hne hds⟩
  | @call _ name _ _ args _ hlist =>
      obtain ⟨list, hrest, hpos⟩ := hlist.exists_takes
      refine ⟨name ++ '(' :: (list ++ [')']), ?_, ?_, .call name list args⟩
      · simp only at hrest
        rw [hrest, ← List.cons_append, ← List.append_assoc]
      · rw [Position.after_append, Position.after_cons]
        exact hpos

/-- What characters read as stands for pieces of them, from the first to the last. -/
theorem Reading.exists_spans {style? : Option Style} {count : Nat} {p : Position}
    {cs : List Char} {c : Clause} (h : Reading style? count p cs c) :
    ∃ spans, spans.flatten = cs ∧ c.map (·.pos) = p.starts spans ∧
      List.Forall₂ (fun (item : Item) span => item.expr.Spans span) c spans := by
  induction h with
  | nil => exact ⟨[], rfl, rfl, .nil⟩
  | @text _ _ _ cs _ hne _ _ ih =>
      obtain ⟨spans, hcover, hpos, hspans⟩ := ih
      refine ⟨(verbatim none cs).1 :: spans, ?_, congrArg (List.cons _) hpos,
        .cons (.text hne) hspans⟩
      rw [List.flatten_cons, hcover, verbatim_append]
  | @positional _ count _ _ _ _ _ _ _ ih =>
      obtain ⟨spans, hcover, hpos, hspans⟩ := ih
      exact ⟨['?'] :: spans, congrArg (List.cons _) hcover, congrArg (List.cons _) hpos,
        .cons (.positional (count + 1)) hspans⟩
  | @indexed _ _ _ n _ _ _ _ _ _ _ ih =>
      obtain ⟨spans, hcover, hpos, hspans⟩ := ih
      refine ⟨('$' :: digits n) :: spans, ?_, congrArg (List.cons _) hpos,
        .cons (.indexed n) hspans⟩
      rw [List.flatten_cons, hcover, List.cons_append]
  | function hfunction _ ih =>
      obtain ⟨spans, hcover, hpos, hspans⟩ := ih
      obtain ⟨span, rfl, rfl, hspan⟩ := hfunction.exists_span
      refine ⟨('#' :: span) :: spans, ?_, congrArg (List.cons _) hpos, .cons hspan hspans⟩
      rw [List.flatten_cons, hcover, List.cons_append]

/-! ## Positions of errors -/

section Errors

variable {P : Position → Prop} {finish pos : Position} {fault : SyntaxFault}

theorem argument_error {t : Token} (h : argument t = .error (.syntaxError pos fault)) :
    pos = t.pos := by
  unfold argument at h
  split at h
  · cases h
  · cases h
  · split at h
    · cases h
    · cases h
      rfl
  · cases h
    rfl
  · cases h
    rfl

theorem takeArguments_error (hfinish : P finish) {ts : List Token} (hts : ∀ t ∈ ts, P t.pos)
    (h : takeArguments finish ts = .error (.syntaxError pos fault)) : P pos := by
  fun_induction takeArguments finish ts with
  | case1 =>
      cases h
      exact hfinish
  | case2 t e harg =>
      cases h
      rw [argument_error harg]
      exact hts t (by simp)
  | case3 =>
      cases h
      exact hfinish
  | case4 t separator rest e harg =>
      cases h
      rw [argument_error harg]
      exact hts t (by simp)
  | case5 => cases h
  | case6 t separator rest arg harg hcomma e hrec ih =>
      cases h
      exact ih (fun u hu => hts u (by simp [hu])) hrec
  | case7 => cases h
  | case8 t separator rest arg harg =>
      cases h
      exact hts separator (by simp)

theorem takeArgumentList_error (hfinish : P finish) {ts : List Token} (hts : ∀ t ∈ ts, P t.pos)
    (h : takeArgumentList finish ts = .error (.syntaxError pos fault)) : P pos := by
  unfold takeArgumentList at h
  split at h
  · exact takeArguments_error hfinish hts h
  · split at h
    · cases h
    · exact takeArguments_error hfinish hts h

theorem takeIndex_error {sign : Position} (hsign : P sign) {ts : List Token}
    (hts : ∀ t ∈ ts, P t.pos) (h : takeIndex sign ts = .error (.syntaxError pos fault)) :
    P pos := by
  unfold takeIndex at h
  split at h
  · cases h
    exact hsign
  · split at h
    · split at h
      · cases h
      · cases h
        exact hts _ (by simp)
    · cases h
      exact hsign

theorem takeFunction_error (hfinish : P finish) {ts : List Token} (hts : ∀ t ∈ ts, P t.pos)
    (h : takeFunction finish ts = .error (.syntaxError pos fault)) : P pos := by
  unfold takeFunction at h
  split at h
  · cases h
    exact hfinish
  · split at h
    · split at h
      · cases h
      · split at h
        · split at h
          · rename_i hargs
            cases h
            exact takeArgumentList_error hfinish (fun u hu => hts u (by simp [hu])) hargs
          · cases h
        · cases h
        · cases h
    · cases h
      exact hts _ (by simp)

theorem Marks.note_ne_syntaxError {m : Marks} {style : Style} {p : Position} :
    m.note style p ≠ .error (.syntaxError pos fault) := by
  intro h
  obtain ⟨first, positional⟩ := m
  cases first with
  | none => cases h
  | some first =>
      simp only [note] at h
      split at h <;> cases h

theorem takeItem_error (hfinish : P finish) {m : Marks} {t : Token} {rest : List Token}
    (ht : P t.pos) (hrest : ∀ u ∈ rest, P u.pos)
    (h : takeItem finish m t rest = .error (.syntaxError pos fault)) : P pos := by
  unfold takeItem at h
  split at h
  · cases h
  · cases h
    exact ht
  · split at h
    · rename_i hnote
      cases h
      exact absurd hnote Marks.note_ne_syntaxError
    · split at h
      · cases h
      · split at h
        · rename_i hindex
          cases h
          exact takeIndex_error ht hrest hindex
        · cases h
  · split at h
    · rename_i hfunction
      cases h
      exact takeFunction_error hfinish hrest hfunction
    · cases h
  · cases h
    exact ht

/-- A syntax error is reported at a token or at the end. -/
theorem takeItems_error (hfinish : P finish) {m : Marks} {ts : List Token}
    (hts : ∀ t ∈ ts, P t.pos) (h : takeItems finish m ts = .error (.syntaxError pos fault)) :
    P pos := by
  fun_induction takeItems finish m ts with
  | case1 => cases h
  | case2 m t rest e hitem =>
      cases h
      rw [List.forall_mem_cons] at hts
      exact takeItem_error hfinish hts.1 hts.2 hitem
  | case3 m t rest item m' rest' hitem e hitems ih =>
      cases h
      have hsuffix := (takeItem_suffix hitem).1
      exact ih (fun u hu => hts u (by simp [hsuffix.subset hu])) hitems
  | case4 => cases h

end Errors

/-! ## Templates -/

/-- **Parsing loses nothing, and its positions are exact.** The items of a clause are read from
pieces that make up the whole template, one behind the other; and an error is reported at a
place of the template. Lines and columns are counted in 32 bits, so they are exact below
`2 ^ 32`. -/
theorem parse_lossless (raw : String) :
    (∀ c, parse raw = .ok c →
      (∃ spans, c.Spans raw spans) ∧ (c.map (·.pos.offset)).Pairwise (· < ·) ∧
        (raw ≠ "" → (c.map (·.pos.offset)).head? = some 0) ∧ ∀ item ∈ c, item.pos.IsIn raw) ∧
      (∀ pos fault, parse raw = .error (.syntaxError pos fault) → pos.IsIn raw) ∧
      ∀ (pos : Position) (front : List Char), pos.IsAt front →
        (Position.lineBehind front < 2 ^ 32 → pos.line.toNat = Position.lineBehind front) ∧
        (Position.columnBehind front < 2 ^ 32 →
          pos.column.toNat = Position.columnBehind front) := by
  refine ⟨?_, ?_, fun _ _ h => h.exact⟩
  · intro items h
    obtain ⟨spans, hcover, hpos, hspans⟩ := (parse_eq_ok_iff.mp h).exists_spans
    have hat : ∀ i (hi : i < items.length),
        items[i].pos.IsAt (spans.take i).flatten := by
      intro i hi
      have hstart : items[i].pos = Position.start.after (spans.take i).flatten := by
        rw [← Position.getElem_starts _ _ (by simpa [← hpos] using hi)]
        simp [← hpos]
      rw [hstart]
      exact Position.isAt_after _
    have hoffset : items.map (·.pos.offset) = (Position.start.starts spans).map (·.offset) := by
      rw [← hpos, List.map_map]
      rfl
    refine ⟨⟨spans, hcover, hspans, hat⟩, ?_, ?_, ?_⟩
    · rw [hoffset]
      exact Position.offset_starts_pairwise _ (Clause.ne_nil_of_spans hspans)
    · intro hraw
      rw [hoffset]
      cases spans with
      | nil => exact absurd (String.toList_eq_nil_iff.mp hcover.symm) hraw
      | cons span rest => rfl
    · intro item hitem
      obtain ⟨i, hi, rfl⟩ := List.getElem_of_mem hitem
      refine ⟨_, (spans.drop i).flatten, ?_, hat i hi⟩
      rw [← hcover, ← List.flatten_append, List.take_append_drop]
  · intro pos fault h
    have hfinish : (Position.start.after raw.toList).IsIn raw :=
      Position.isIn_after (List.append_nil _).symm
    refine takeItems_error (P := (Position.IsIn · raw)) hfinish ?_ h
    intro t ht
    have hstart : (Lexer.ofString raw).pos = Position.start.after [] := rfl
    exact Lexer.pos_of_mem_tokens rfl hstart ht

/-- Characters of more than one byte, two lines and an escaped sign; and an error behind them. -/
theorem parse_lossless_sample : ∃ c spans,
    parse "é = ?,\n\t#c1 $$ #f( 'ß' )" = .ok c ∧ c.Spans "é = ?,\n\t#c1 $$ #f( 'ß' )" spans ∧
    c.map (·.pos) =
      [⟨0, 1, 1⟩, ⟨5, 1, 5⟩, ⟨6, 1, 6⟩, ⟨9, 2, 2⟩, ⟨12, 2, 5⟩, ⟨16, 2, 9⟩] ∧
    parse "é\n#c(x)" = .error (.syntaxError ⟨6, 2, 4⟩ (.badArgument "x")) ∧
    Position.IsIn ⟨6, 2, 4⟩ "é\n#c(x)" := by
  have hpos : (parse "é = ?,\n\t#c1 $$ #f( 'ß' )").toOption.map (fun c => c.map (·.pos)) =
      some [⟨0, 1, 1⟩, ⟨5, 1, 5⟩, ⟨6, 1, 6⟩, ⟨9, 2, 2⟩, ⟨12, 2, 5⟩, ⟨16, 2, 9⟩] := by
    decide +kernel
  have herror : parse "é\n#c(x)" = .error (.syntaxError ⟨6, 2, 4⟩ (.badArgument "x")) := by
    decide +kernel
  cases hc : parse "é = ?,\n\t#c1 $$ #f( 'ß' )" with
  | error e =>
      rw [hc] at hpos
      cases hpos
  | ok c =>
      rw [hc] at hpos
      obtain ⟨⟨spans, hspans⟩, _⟩ := (parse_lossless _).1 c hc
      exact ⟨c, spans, rfl, hspans, Option.some.inj hpos, herror,
        (parse_lossless _).2.1 _ _ herror⟩

/-- A marker behind `n` line feeds. -/
def farSample (n : Nat) : String := String.ofList (List.replicate n '\n' ++ ['#', 'c'])

theorem verbatim_lineFeeds (n : Nat) (rest : List Char) :
    verbatim none (List.replicate n '\n' ++ '#' :: rest) =
      (List.replicate n '\n', '#' :: rest, none) := by
  induction n with
  | zero => exact stops_hash rest
  | succ n ih =>
      rw [List.replicate_succ, List.cons_append, verbatim_cons rfl (by decide)]
      simp [ih, isQuote]

theorem parse_farSample {n : Nat} (hn : n ≠ 0) :
    parse (farSample n) =
      .ok [⟨.start, .text (String.ofList (List.replicate n '\n'))⟩,
        ⟨Position.start.after (List.replicate n '\n'), .marker "c"⟩] := by
  have hverbatim := verbatim_lineFeeds n ['c']
  have hname : IsName ['c'] := ⟨by simp, by simp [isNameChar]⟩
  have hmarker : ∀ p : Position, Reading none 0 p ['#', 'c'] [⟨p, .marker "c"⟩] :=
    fun p => .function (.marker hname nofun nofun nofun) .nil
  have hreading : Reading none 0 .start (List.replicate n '\n' ++ ['#', 'c'])
      [⟨.start, .text (String.ofList (verbatim none (List.replicate n '\n' ++ ['#', 'c'])).1)⟩,
        ⟨Position.start.after (verbatim none (List.replicate n '\n' ++ ['#', 'c'])).1,
          .marker "c"⟩] := by
    refine .text ?_ ?_ ?_
    · simpa [hverbatim] using hn
    · rw [hverbatim]
    · rw [hverbatim]
      exact hmarker _
  rw [hverbatim] at hreading
  rwa [parse_eq_ok_iff, farSample, String.toList_ofList]

/-- Behind `2 ^ 32 - 1` line feeds the line is none that a place has. -/
theorem parse_farSample_wraps : ∃ c item front back,
    parse (farSample (2 ^ 32 - 1)) = .ok c ∧ item ∈ c ∧
    (farSample (2 ^ 32 - 1)).toList = front ++ back ∧
    item.pos.offset = (String.ofList front).utf8ByteSize ∧ item.pos.line = 0 ∧
    1 + front.count '\n' = 2 ^ 32 := by
  have hat := Position.isAt_after (List.replicate (2 ^ 32 - 1) '\n')
  have hcount : (List.replicate (2 ^ 32 - 1) '\n').count '\n' = 2 ^ 32 - 1 :=
    List.count_replicate_self
  refine ⟨_, ⟨Position.start.after (List.replicate (2 ^ 32 - 1) '\n'), .marker "c"⟩,
    List.replicate (2 ^ 32 - 1) '\n', ['#', 'c'], parse_farSample (by decide), .tail _ (.head _),
    String.toList_ofList, hat.offset, ?_, ?_⟩
  · refine UInt32.toNat_inj.mp ?_
    rw [hat.line, Position.lineBehind, hcount]
    rfl
  · omega

end SqlTemplate.Template
