import SqlTemplate.Proofs.Spans

/-!
# What the tokens cover

The lexer answers every call, whatever the text is: with the tokens in their order, and
with nothing from then on (`Lexer.answer_eq`). A token takes it from one mode to another
in one of eleven ways (`Lexer.next_mode`), so what the tokens so far end with is known in each
mode: in an argument list that is still open, or not. Only there are blanks skipped,
and all other characters lie in the tokens, one behind the other (`tokens_cover`).
-/

namespace SqlTemplate.Template

open Text (isBlank byteLength byteLength_append byteLength_cons)

/-! ## Calls -/

namespace Lexer

/-- One call of the lexer: the next token, or nothing at the end, where the rest is skipped. -/
def call (l : Lexer) : Option Token × Lexer :=
  match l.next with
  | some (t, l') => (some t, l')
  | none => (none, ⟨l.mode, l.pos.after l.rest, []⟩)

/-- What the lexer answers to a call after `k` others. -/
def answer (l : Lexer) : Nat → Option Token
  | 0 => l.call.1
  | k + 1 => l.call.2.answer k

theorem next_nil (mode : Mode) (p : Position) : next ⟨mode, p, []⟩ = none := by
  cases mode <;> rfl

/-- The calls give the tokens in their order, and nothing from then on. -/
theorem answer_eq (l : Lexer) (k : Nat) : l.answer k = l.tokens[k]? := by
  induction k generalizing l with
  | zero =>
      cases hnext : l.next with
      | none => simp [answer, call, hnext, tokens_eq_nil hnext]
      | some step => simp [answer, call, hnext, tokens_eq_cons hnext]
  | succ k ih =>
      rw [answer, ih]
      cases hnext : l.next with
      | none => simp [call, hnext, tokens_eq_nil hnext, tokens_eq_nil (next_nil _ _)]
      | some step => simp [call, hnext, tokens_eq_cons hnext]

end Lexer

/-! ## Modes -/

/-- How a token takes the lexer from one mode to another. -/
inductive Mode.Step : Mode → Kind → Mode → Prop
  | text {mode : Mode} (h : mode ≠ .arguments) (closed : Bool) : Step mode (.text closed) .text
  | marker {mode : Mode} (h : mode ≠ .arguments) (style : Style) :
    Step mode (.marker style) .index
  | hash {mode : Mode} (h : mode ≠ .arguments) : Step mode .hash .name
  | index : Step .index .digits .text
  | name : Step .name .name .suffix
  | suffix : Step .suffix .digits .text
  | openParen : Step .suffix .openParen .arguments
  | closeParen : Step .arguments .closeParen .text
  | comma : Step .arguments .comma .arguments
  | bare : Step .arguments .bare .arguments
  | quoted (closed : Bool) : Step .arguments (.quoted closed) .arguments

namespace Lexer

variable {l l' : Lexer} {t : Token}

theorem nextText_mode (hmode : l.mode ≠ .arguments) (h : l.nextText = some (t, l')) :
    l.mode.Step t.kind l'.mode := by
  unfold nextText at h
  split at h
  · cases h
  · split at h
    · cases h
      exact .hash hmode
    · cases h
      exact .marker hmode _
  · cases h
    exact .text hmode _

theorem nextArgument_mode (l : Lexer) (c : Char) (rest : List Char) :
    Mode.arguments.Step (l.nextArgument c rest).1.kind (l.nextArgument c rest).2.mode := by
  unfold nextArgument
  split
  · exact .comma
  · split
    · exact .closeParen
    · split
      · exact .quoted _
      · exact .bare

/-- What a token takes the lexer to depends on its kind and on the mode that it is found in. -/
theorem next_mode (h : l.next = some (t, l')) : l.mode.Step t.kind l'.mode := by
  obtain ⟨mode, pos, rest⟩ := l
  cases mode with
  | text => exact nextText_mode (by simp) h
  | index =>
      simp only [next] at h
      split at h
      · exact nextText_mode (by simp) h
      · split at h
        · exact nextText_mode (by simp) h
        · cases h
          exact .index
  | name =>
      simp only [next] at h
      split at h
      · exact nextText_mode (by simp) h
      · cases h
        exact .name
  | suffix =>
      simp only [next] at h
      split at h
      · cases h
        exact .openParen
      · exact nextText_mode (by simp) h
      · cases h
        exact .suffix
  | arguments =>
      simp only [next] at h
      split at h
      · cases h
      · rename_i c rest' hrest
        have hstep := nextArgument_mode
          ⟨.arguments, pos.after (rest.takeWhile isBlank), rest.dropWhile isBlank⟩ c rest'
        rw [Option.some.inj h] at hstep
        exact hstep

theorem rest_of_nextText_eq_none (h : l.nextText = none) : l.rest = [] := by
  have happ := verbatim_append none l.rest
  unfold nextText at h
  split at h
  · rename_i hverbatim
    rw [hverbatim] at happ
    exact happ.symm
  · split at h <;> cases h
  · cases h

/-- Where nothing comes next outside an argument list, nothing is left. -/
theorem rest_of_next_eq_none (hmode : l.mode ≠ .arguments) (h : l.next = none) : l.rest = [] := by
  obtain ⟨mode, pos, rest⟩ := l
  cases mode with
  | text => exact rest_of_nextText_eq_none h
  | index =>
      simp only [next] at h
      split at h
      · exact rest_of_nextText_eq_none h
      · split at h
        · exact rest_of_nextText_eq_none h
        · cases h
  | name =>
      simp only [next] at h
      split at h
      · exact rest_of_nextText_eq_none h
      · cases h
  | suffix =>
      simp only [next] at h
      split at h
      · cases h
      · exact rest_of_nextText_eq_none h
      · cases h
  | arguments => exact absurd rfl hmode

/-- Where nothing comes next in an argument list, only blanks are left. -/
theorem isBlank_of_next_eq_none (hmode : l.mode = .arguments) (h : l.next = none) :
    ∀ c ∈ l.rest, isBlank c = true := by
  have hrest : l.rest.dropWhile isBlank = [] := by
    simp only [next, hmode] at h
    split at h
    · assumption
    · cases h
  intro c hc
  rw [← List.takeWhile_append_dropWhile (p := isBlank) (l := l.rest), hrest, List.append_nil] at hc
  exact List.all_eq_true.mp List.all_takeWhile c hc

end Lexer

/-! ## Argument lists -/

/-- The tokens end inside an argument list: a function with its name, the parenthesis that opens
its list, and none that closes it. -/
def Opens (ts : List Token) : Prop :=
  ∃ before hash name paren inside, ts = before ++ hash :: name :: paren :: inside ∧
    hash.kind = .hash ∧ name.kind = .name ∧ paren.kind = .openParen ∧
    ∀ t ∈ inside, t.kind ≠ .closeParen

/-- What the tokens end with when the lexer has taken them and is in the mode. -/
def Mode.Follows : Mode → List Token → Prop
  | .name, ts => ∃ before hash, ts = before ++ [hash] ∧ hash.kind = .hash
  | .suffix, ts => ∃ before hash name, ts = before ++ [hash, name] ∧
    hash.kind = .hash ∧ name.kind = .name
  | .arguments, ts => Opens ts
  | .text, _ | .index, _ => True

theorem Opens.concat {ts : List Token} {t : Token} (h : Opens ts) (ht : t.kind ≠ .closeParen) :
    Opens (ts ++ [t]) := by
  obtain ⟨before, hash, name, paren, inside, rfl, hhash, hname, hparen, hinside⟩ := h
  refine ⟨before, hash, name, paren, inside ++ [t], by simp, hhash, hname, hparen, ?_⟩
  exact List.forall_mem_append.mpr ⟨hinside, List.forall_mem_singleton.mpr ht⟩

theorem Mode.Step.follows {mode mode' : Mode} {ts : List Token} {t : Token}
    (h : mode.Step t.kind mode') (hts : mode.Follows ts) : mode'.Follows (ts ++ [t]) := by
  generalize hkind : t.kind = kind at h
  cases h with
  | text | marker | index | suffix | closeParen => trivial
  | hash => exact ⟨ts, t, rfl, hkind⟩
  | name =>
      obtain ⟨before, hash, rfl, hhash⟩ := hts
      exact ⟨before, hash, t, by simp, hhash, hkind⟩
  | openParen =>
      obtain ⟨before, hash, name, rfl, hhash, hname⟩ := hts
      exact ⟨before, hash, name, t, [], by simp, hhash, hname, hkind, by simp⟩
  | comma | bare | quoted =>
      have hne : t.kind ≠ .closeParen := by simp [hkind]
      exact Opens.concat hts hne

/-! ## Tokens in a text -/

/-- The offset behind the token. -/
def Token.stop (t : Token) : Nat := t.pos.offset + (String.ofList t.lexeme).utf8ByteSize

/-- The token is what stands in the text at its position. -/
def Token.StandsIn (t : Token) (raw : String) : Prop :=
  ∃ front back, raw.toList = front ++ (t.lexeme ++ back) ∧ t.pos.IsAt front

/-- What begins at the offset lies in the token. -/
def Token.Covers (t : Token) (offset : Nat) : Prop :=
  t.pos.offset ≤ offset ∧ offset < t.stop

/-- The offset lies in an argument list: the tokens before it leave the list open, so that the one
that closes it, if there is one, lies behind the offset. -/
def InArguments (ts : List Token) (offset : Nat) : Prop :=
  ∃ front back, ts = front ++ back ∧ Opens front ∧ (∀ t ∈ front, t.stop ≤ offset) ∧
    ∀ t ∈ back, offset < t.pos.offset

theorem InArguments.concat {ts : List Token} {t : Token} {offset : Nat}
    (h : InArguments ts offset) (ht : offset < t.pos.offset) : InArguments (ts ++ [t]) offset := by
  obtain ⟨front, back, rfl, hopens, hfront, hback⟩ := h
  refine ⟨front, back ++ [t], by simp, hopens, hfront, ?_⟩
  exact List.forall_mem_append.mpr ⟨hback, List.forall_mem_singleton.mpr ht⟩

/-- A character whose offset is one of a piece of the text belongs to the piece. -/
theorem mem_of_offset {xs ys zs front back : List Char} {c : Char}
    (h : xs ++ (ys ++ zs) = front ++ c :: back) (hle : byteLength xs ≤ byteLength front)
    (hlt : byteLength front < byteLength (xs ++ ys)) : c ∈ ys := by
  have hbehind (mid : List Char) (hfront : front = xs ++ mid) (hys : ys ++ zs = mid ++ c :: back) :
      c ∈ ys := by
    rw [hfront, byteLength_append, byteLength_append] at hlt
    rcases List.append_eq_append_iff.mp hys with ⟨mid', rfl, -⟩ | ⟨mid', rfl, hc⟩
    · rw [byteLength_append] at hlt
      omega
    · cases mid' with
      | nil =>
          rw [List.append_nil] at hlt
          omega
      | cons d mid' =>
          obtain ⟨rfl, -⟩ := List.cons.inj hc
          simp
  rcases List.append_eq_append_iff.mp h with ⟨mid, hfront, hys⟩ | ⟨mid, hxs, hc⟩
  · exact hbehind mid hfront hys
  · cases mid with
    | nil => exact hbehind [] (by simp [hxs]) hc.symm
    | cons d mid =>
        have hpos := d.utf8Size_pos
        rw [hxs, byteLength_append, byteLength_cons] at hle
        omega

theorem Position.offset_start_after (cs : List Char) : (start.after cs).offset = byteLength cs := by
  rw [after_offset]
  exact Nat.zero_add _

/-! ## From token to token -/

/-- What holds of the tokens taken so far and of the lexer behind them. -/
structure Progress (raw : String) (ts : List Token) (l : Lexer) : Prop where
  place : ∃ front, raw.toList = front ++ l.rest ∧ l.pos = Position.start.after front
  /-- Each token has taken a character at least. -/
  length : ts.length + l.rest.length ≤ raw.length
  token : ∀ t ∈ ts, t.lexeme ≠ [] ∧ t.StandsIn raw
  stop : ∀ t ∈ ts, t.stop ≤ l.pos.offset
  ordered : ts.Pairwise fun t u => t.stop ≤ u.pos.offset
  covered : ∀ front c back, raw.toList = front ++ c :: back → byteLength front < l.pos.offset →
    (∃ t ∈ ts, t.Covers (byteLength front)) ∨
      isBlank c = true ∧ InArguments ts (byteLength front)
  follows : l.mode.Follows ts

namespace Progress

variable {raw : String} {ts : List Token} {l l' : Lexer} {t : Token}

theorem start (raw : String) : Progress raw [] (Lexer.ofString raw) where
  place := ⟨[], rfl, rfl⟩
  length := by simp [Lexer.ofString, String.length_toList]
  token := by simp
  stop := by simp
  ordered := .nil
  covered := fun _ _ _ _ hlt => absurd hlt (Nat.not_lt_zero _)
  follows := trivial

/-- Where a token stands, and what has been skipped before it. -/
theorem exists_gap (h : Progress raw ts l) (hnext : l.next = some (t, l')) :
    ∃ front gap, raw.toList = front ++ (gap ++ (t.lexeme ++ l'.rest)) ∧
      l.pos = Position.start.after front ∧ t.pos = Position.start.after (front ++ gap) ∧
      (∀ c ∈ gap, isBlank c = true) ∧ (gap ≠ [] → l.mode = .arguments) := by
  obtain ⟨front, hraw, hpos⟩ := h.place
  obtain ⟨gap, hrest, hplace, hblank, hmode⟩ := (Lexer.next_split hnext).skip
  refine ⟨front, gap, by rw [hraw, hrest], hpos, ?_, hblank, ?_⟩
  · rw [hplace, hpos, Position.after_append]
  · intro hgap
    by_contra hne
    exact hgap (hmode hne)

theorem stop_eq (hnext : l.next = some (t, l')) : t.stop = l'.pos.offset := by
  rw [(Lexer.next_split hnext).pos, Position.after_offset, Position.byteLength_eq]
  rfl

/-- What lies between the tokens so far and those that are taken next, in an argument list. -/
theorem inArguments (h : Progress raw ts l) (hmode : l.mode = .arguments) {offset : Nat}
    (hle : l.pos.offset ≤ offset) {back : List Token} (hback : ∀ t ∈ back, offset < t.pos.offset) :
    InArguments (ts ++ back) offset := by
  have hopens : l.mode.Follows ts := h.follows
  rw [hmode] at hopens
  exact ⟨ts, back, rfl, hopens, fun t ht => Nat.le_trans (h.stop t ht) hle, hback⟩

/-- The characters up to the end of the next token. -/
theorem covered_concat (h : Progress raw ts l) (hnext : l.next = some (t, l'))
    {pre post : List Char} {c : Char} (hchar : raw.toList = pre ++ c :: post)
    (hlt : byteLength pre < l'.pos.offset) :
    (∃ u ∈ ts ++ [t], u.Covers (byteLength pre)) ∨
      isBlank c = true ∧ InArguments (ts ++ [t]) (byteLength pre) := by
  obtain ⟨front, gap, hraw, hpos, hplace, hblank, hmode⟩ := h.exists_gap hnext
  by_cases htoken : t.pos.offset ≤ byteLength pre
  · have hcovers : t.Covers (byteLength pre) := ⟨htoken, stop_eq hnext ▸ hlt⟩
    exact .inl ⟨t, by simp, hcovers⟩
  · rw [Nat.not_le] at htoken
    by_cases hfront : l.pos.offset ≤ byteLength pre
    · -- The character is one of those before the token.
      have hmem : c ∈ gap := by
        rw [hpos, Position.offset_start_after] at hfront
        rw [hplace, Position.offset_start_after] at htoken
        exact mem_of_offset (hraw.symm.trans hchar) hfront htoken
      have hlist := h.inArguments (hmode (List.ne_nil_of_mem hmem)) hfront
        (List.forall_mem_singleton.mpr htoken)
      exact .inr ⟨hblank c hmem, hlist⟩
    · rcases h.covered pre c post hchar (Nat.lt_of_not_le hfront) with ⟨u, hu, hcovers⟩ | hlist
      · exact .inl ⟨u, List.mem_append_left _ hu, hcovers⟩
      · exact .inr ⟨hlist.1, hlist.2.concat htoken⟩

theorem step (h : Progress raw ts l) (hnext : l.next = some (t, l')) :
    Progress raw (ts ++ [t]) l' := by
  obtain ⟨front, gap, hraw, hpos, hplace, -, -⟩ := h.exists_gap hnext
  have hsplit := Lexer.next_split hnext
  have hstop : t.stop ≤ l'.pos.offset := Nat.le_of_eq (stop_eq hnext)
  have hle : l.pos.offset ≤ t.pos.offset := by
    rw [hplace, Position.after_append, ← hpos, Position.after_offset]
    exact Nat.le_add_right ..
  have hbefore : t.pos.offset ≤ t.stop := Nat.le_add_right ..
  have hstands : t.StandsIn raw :=
    ⟨front ++ gap, l'.rest, by simp [hraw], hplace ▸ Position.isAt_after _⟩
  constructor
  case place =>
    refine ⟨front ++ gap ++ t.lexeme, by simp [hraw], ?_⟩
    rw [hsplit.pos, hplace, ← Position.after_append]
  case length =>
    have hlength := Lexer.next_length hnext
    have hprior := h.length
    rw [List.length_append, List.length_singleton]
    omega
  case token =>
    exact List.forall_mem_append.mpr
      ⟨h.token, List.forall_mem_singleton.mpr ⟨hsplit.lexeme_ne_nil, hstands⟩⟩
  case stop =>
    refine List.forall_mem_append.mpr ⟨fun u hu => ?_, List.forall_mem_singleton.mpr hstop⟩
    have hprior := h.stop u hu
    omega
  case ordered =>
    refine List.pairwise_append.mpr ⟨h.ordered, List.pairwise_singleton .., fun u hu => ?_⟩
    exact List.forall_mem_singleton.mpr (Nat.le_trans (h.stop u hu) hle)
  case covered => exact fun _ _ _ hchar hlt => h.covered_concat hnext hchar hlt
  case follows => exact (Lexer.next_mode hnext).follows h.follows

/-- At the end nothing is left but blanks of an argument list that is not closed. -/
theorem finish (h : Progress raw ts l) (hnext : l.next = none) {front back : List Char} {c : Char}
    (hchar : raw.toList = front ++ c :: back) :
    (∃ t ∈ ts, t.Covers (byteLength front)) ∨
      isBlank c = true ∧ InArguments ts (byteLength front) := by
  obtain ⟨taken, hraw, hpos⟩ := h.place
  by_cases hbehind : l.pos.offset ≤ byteLength front
  · have hmem : c ∈ l.rest := by
      have hall : taken ++ (l.rest ++ []) = front ++ c :: back := by
        rw [List.append_nil, ← hraw, hchar]
      rw [hpos, Position.offset_start_after] at hbehind
      refine mem_of_offset hall hbehind ?_
      have hsize := c.utf8Size_pos
      rw [← hraw, hchar, byteLength_append, byteLength_cons]
      omega
    have hmode : l.mode = .arguments := by
      by_contra hne
      exact List.ne_nil_of_mem hmem (Lexer.rest_of_next_eq_none hne hnext)
    have hnone : ∀ t ∈ ([] : List Token), byteLength front < t.pos.offset := by simp
    have hlist := h.inArguments hmode hbehind hnone
    rw [List.append_nil] at hlist
    exact .inr ⟨Lexer.isBlank_of_next_eq_none hmode hnext c hmem, hlist⟩
  · exact h.covered front c back hchar (Nat.lt_of_not_le hbehind)

theorem tokens (h : Progress raw ts l) :
    ∃ l', Progress raw (ts ++ l.tokens) l' ∧ l'.next = none := by
  fun_induction Lexer.tokens l generalizing ts with
  | case1 l hnext => exact ⟨l, by simpa using h, hnext⟩
  | case2 l t l' hnext ih =>
      obtain ⟨l'', hall, hend⟩ := ih (h.step hnext)
      refine ⟨l'', ?_, hend⟩
      rw [List.append_assoc] at hall
      exact hall

end Progress

/-- **The lexer is total, and it skips nothing but blanks of argument lists.** Called again and
again, whatever the text is, it gives tokens, no more than the text has characters, and then
nothing for ever. No token is empty, each is what stands in the text at its position, and they
lie one behind the other. A character that is in no token is a blank behind the parenthesis
that opens an argument list and before the token that ends the list, or before the end. -/
theorem tokens_cover (raw : String) :
    let ts := (Lexer.ofString raw).tokens
    (∀ k, (Lexer.ofString raw).answer k = ts[k]?) ∧ ts.length ≤ raw.length ∧
    (∀ t ∈ ts, t.lexeme ≠ [] ∧ t.StandsIn raw) ∧
    (ts.Pairwise fun t u => t.stop ≤ u.pos.offset) ∧
    ∀ front c back, raw.toList = front ++ c :: back →
      (∃ t ∈ ts, t.Covers (String.ofList front).utf8ByteSize) ∨
        isBlank c = true ∧ InArguments ts (String.ofList front).utf8ByteSize := by
  obtain ⟨l, h, hend⟩ := (Progress.start raw).tokens
  rw [List.nil_append] at h
  refine ⟨Lexer.answer_eq _, ?_, h.token, h.ordered, ?_⟩
  · have hlength := h.length
    omega
  · intro front c back hchar
    rw [← Position.byteLength_eq]
    exact h.finish hend hchar

/-- An argument list that is not closed: the blank at the end lies in no token. -/
theorem tokens_cover_sample :
    (Lexer.ofString "é?0#f( x ,\n").tokens.map (fun t => String.ofList t.lexeme) =
      ["é", "?", "0", "#", "f", "(", "x", ","] ∧
    (Lexer.ofString "é?0#f( x ,\n").answer 7 = some ⟨.comma, [','], ⟨10, 1, 10⟩⟩ ∧
    (∀ k, 8 ≤ k → (Lexer.ofString "é?0#f( x ,\n").answer k = none) ∧
    "é?0#f( x ,\n".toList = "é?0#f( x ,".toList ++ '\n' :: [] ∧ isBlank '\n' = true ∧
    InArguments (Lexer.ofString "é?0#f( x ,\n").tokens 11 := by
  have hchars : "é?0#f( x ,\n".toList = "é?0#f( x ,".toList ++ '\n' :: [] := by decide
  have hlength : (Lexer.ofString "é?0#f( x ,\n").tokens.length = 8 := by decide +kernel
  have hstop : ∀ t ∈ (Lexer.ofString "é?0#f( x ,\n").tokens, t.stop ≤ 11 := by decide +kernel
  obtain ⟨hanswer, -, -, -, hcover⟩ := tokens_cover "é?0#f( x ,\n"
  refine ⟨by decide +kernel, by decide +kernel, ?_, hchars, ?_⟩
  · intro k hk
    rw [hanswer, List.getElem?_eq_none (by omega)]
  · rcases hcover _ _ _ hchars with ⟨t, ht, -, hlt⟩ | hblank
    · exact absurd (hstop t ht) (Nat.not_le.mpr hlt)
    · exact hblank

end SqlTemplate.Template
