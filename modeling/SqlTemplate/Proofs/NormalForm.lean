import Mathlib.Data.List.Chain
import SqlTemplate.Proofs.Markers
import SqlTemplate.Proofs.Spans
import SqlTemplate.Proofs.Splicing

/-!
# Clauses in normal form

What is parsed has properties that no single check of the parser gives: text is as long as
it can be, the placeholders have one style and are numbered, and nothing follows an item
that could have been read as more of it (`Clause.Normal`). And a template that is rejected
for its styles has a sign of each style where a placeholder can begin (`SignAt`).
-/

namespace SqlTemplate.Template

open Number

/-! ## The normal form -/

/-- The characters that can continue a marker: those of a name, the digits of an index, and the
parenthesis of an argument list. -/
def continuesName (c : Char) : Bool :=
  c.isAlpha || c.isDigit || c == '_' || c == '$' || c == '?' || c == '('

/-- The second expression can stand directly behind the first. -/
def Expr.Precedes : Expr → Expr → Prop
  | .text _, .text _ => False
  | .bind .positional _, .bind .positional _ => False
  | .bind .indexed _, .text s => NotFirst Char.isDigit s.toList
  | .marker _, .bind _ _ => False
  | .marker _, .text s => NotFirst continuesName s.toList
  | _, _ => True

/-- The placeholder of an expression. -/
def Expr.bind? : Expr → Option (Style × Nat)
  | .bind style index => some (style, index)
  | _ => none

/-- The placeholders of a clause in their order. -/
def Clause.binds (c : Clause) : List (Style × Nat) := c.exprs.filterMap Expr.bind?

/-- What holds of every clause that is parsed. -/
structure Clause.Normal (c : Clause) : Prop where
  text_ne : ∀ s, .text s ∈ c.exprs → s ≠ ""
  precedes : c.exprs.IsChain Expr.Precedes
  /-- The placeholders have one style. Positional ones are numbered from one on, indexed ones have
  an index of 64 bits. -/
  binds : (∃ k, c.binds = (List.range' 1 k).map (Prod.mk .positional)) ∨
    ∃ ns : List Nat, c.binds = ns.map (Prod.mk .indexed) ∧ ∀ n ∈ ns, 1 ≤ n ∧ n < indexLimit

/-- The copied text begins as the whole does. -/
theorem notFirst_verbatim {p : Char → Bool} {cs : List Char} (hne : (verbatim none cs).1 ≠ [])
    (h : NotFirst p cs) : NotFirst p (String.ofList (verbatim none cs).1).toList := by
  obtain ⟨c, run, hrun⟩ := List.exists_cons_of_ne_nil hne
  have happ := verbatim_append none cs
  rw [hrun, List.cons_append] at happ
  rw [String.toList_ofList, hrun]
  rintro _ ⟨⟩
  exact h c (by rw [← happ]; rfl)

/-- Behind a marker nothing can be read as more of it. -/
theorem notFirst_continuesName {rest : List Char} (hname : NotFirst isNameChar rest)
    (hdigit : NotFirst Char.isDigit rest) (hparen : rest.head? ≠ some '(') :
    NotFirst continuesName rest := by
  intro c hc
  have hn := hname c hc
  have hd := hdigit c hc
  have hp : c ≠ '(' := fun h => hparen (h ▸ hc)
  unfold isNameChar at hn
  simp_all [continuesName]

namespace Reading

variable {style? : Option Style} {count : Nat} {p : Position} {cs : List Char} {c : Clause}

/-- The first expression shows in the first character. -/
theorem precedes_of_head {e : Expr} (h : Reading style? count p cs c)
    (htext : (verbatim none cs).1 ≠ [] → e.Precedes (.text (String.ofList (verbatim none cs).1)))
    (hbind : ∀ style n, cs.head? = some style.sign → e.Precedes (.bind style n))
    (hcall : ∀ name args, e.Precedes (.call name args))
    (hmarker : ∀ name, e.Precedes (.marker name)) :
    ∀ e' ∈ c.exprs.head?, e.Precedes e' := by
  cases h with
  | nil => simp [Clause.exprs]
  | text hne =>
      rintro _ ⟨⟩
      exact htext hne
  | positional =>
      rintro _ ⟨⟩
      exact hbind .positional _ rfl
  | indexed =>
      rintro _ ⟨⟩
      exact hbind .indexed _ rfl
  | function hfunction =>
      rintro _ ⟨⟩
      cases hfunction with
      | marker => exact hmarker _
      | short => exact hcall _ _
      | call => exact hcall _ _

theorem text_ne (h : Reading style? count p cs c) : ∀ s, .text s ∈ c.exprs → s ≠ "" := by
  induction h with
  | nil => simp [Clause.exprs]
  | text hne _ _ ih =>
      intro s hs
      rcases List.mem_cons.mp hs with hs | hs
      · cases hs
        simpa using hne
      · exact ih s hs
  | positional _ _ _ _ ih => exact fun s hs => ih s (by simpa [Clause.exprs] using hs)
  | indexed _ _ _ _ _ ih => exact fun s hs => ih s (by simpa [Clause.exprs] using hs)
  | function hfunction _ ih =>
      intro s hs
      rcases List.mem_cons.mp hs with hs | hs
      · cases hs
        cases hfunction
      · exact ih s hs

/-- Behind each item stands what could not be read as more of it. -/
theorem precedes (h : Reading style? count p cs c) : c.exprs.IsChain Expr.Precedes := by
  induction h with
  | nil => exact .nil
  | @text _ _ _ cs _ _ _ h ih =>
      -- The text goes on until a reference begins.
      refine List.isChain_cons.mpr ⟨h.precedes_of_head ?_ ?_ ?_ ?_, ih⟩
      · intro hne
        exact absurd (congrArg Prod.fst (stops_rest none cs)) hne
      all_goals intros; trivial
  | positional _ hsign _ h ih =>
      refine List.isChain_cons.mpr ⟨h.precedes_of_head ?_ ?_ ?_ ?_, ih⟩
      · intros; trivial
      · intro style n hhead
        cases style with
        | indexed => trivial
        | positional => exact hsign hhead
      all_goals intros; trivial
  | indexed _ _ _ hdigit h ih =>
      refine List.isChain_cons.mpr ⟨h.precedes_of_head ?_ ?_ ?_ ?_, ih⟩
      · exact fun hne => notFirst_verbatim hne hdigit
      all_goals intros; trivial
  | function hfunction h ih =>
      refine List.isChain_cons.mpr ⟨?_, ih⟩
      cases hfunction with
      | @marker name _ hname hrest hdigit hparen =>
          refine h.precedes_of_head ?_ ?_ ?_ ?_
          · exact fun hne =>
              notFirst_verbatim hne (notFirst_continuesName hrest hdigit hparen)
          · intro style n hhead
            have hsign := hrest _ hhead
            cases style <;> cases hsign
          all_goals intros; trivial
      | short => refine h.precedes_of_head ?_ ?_ ?_ ?_ <;> intros <;> trivial
      | call => refine h.precedes_of_head ?_ ?_ ?_ ?_ <;> intros <;> trivial

/-- The placeholders have the style of those before and the numbers behind theirs. -/
theorem binds_eq (h : Reading style? count p cs c) :
    (style? ≠ some .indexed ∧
      ∃ k, c.binds = (List.range' (count + 1) k).map (Prod.mk .positional)) ∨
    (style? ≠ some .positional ∧
      ∃ ns : List Nat, c.binds = ns.map (Prod.mk .indexed) ∧
        ∀ n ∈ ns, 1 ≤ n ∧ n < indexLimit) := by
  induction h with
  | @nil style? _ _ =>
      by_cases hstyle : style? = some .indexed
      · exact .inr ⟨by simp [hstyle], [], rfl, nofun⟩
      · exact .inl ⟨hstyle, 0, rfl⟩
  | text _ _ _ ih => exact ih
  | @positional _ count _ _ _ hstyle _ _ _ ih =>
      rcases ih with ⟨-, k, hbinds⟩ | ⟨hne, -⟩
      · refine .inl ⟨by rcases hstyle with rfl | rfl <;> simp, k + 1, ?_⟩
        rw [List.range'_succ, List.map_cons, ← hbinds]
        rfl
      · exact absurd rfl hne
  | @indexed _ _ _ n _ _ hstyle hpos hlimit _ _ ih =>
      rcases ih with ⟨hne, -⟩ | ⟨-, ns, hbinds, hns⟩
      · exact absurd rfl hne
      · refine .inr ⟨by rcases hstyle with rfl | rfl <;> simp, n :: ns, ?_, ?_⟩
        · rw [List.map_cons, ← hbinds]
          rfl
        · exact List.forall_mem_cons.mpr ⟨⟨hpos, hlimit⟩, hns⟩
  | function hfunction _ ih =>
      cases hfunction <;> exact ih

theorem normal (h : Reading none count p cs c) (hcount : count = 0) : c.Normal where
  text_ne := h.text_ne
  precedes := h.precedes
  binds := by
    subst hcount
    exact h.binds_eq.imp And.right And.right

end Reading

/-! ## Templates of both styles -/

/-- Behind the clause a sign of the style would neither be a part of a name nor make an escaped one
of the sign before. -/
def Clause.Allows (c : Clause) (style : Style) : Prop :=
  ∀ e ∈ c.exprs.getLast?, (∀ name, e ≠ .marker name) ∧ ∀ n, style = .positional → e ≠ .bind style n

/-- A sign with which a placeholder of the style can begin stands at the place. It is not escaped,
and it is no part of a quotation, a name or an argument list: what stands before is a template of
its own. -/
def SignAt (raw : String) (style : Style) (p : Position) : Prop :=
  ∃ front back c, raw.toList = front ++ style.sign :: back ∧ back.head? ≠ some style.sign ∧
    p.IsAt front ∧ parse (String.ofList front) = .ok c ∧ c.Allows style

/-- Such a sign in characters that are read from `p` on, behind items as for `Reading`. -/
def SignIn (style? : Option Style) (count : Nat) (p : Position) (cs : List Char) (style : Style)
    (q : Position) : Prop :=
  ∃ front back c, cs = front ++ style.sign :: back ∧ back.head? ≠ some style.sign ∧
    q = p.after front ∧ Reading style? count p front c ∧ c.Allows style

namespace SignIn

variable {style? : Option Style} {count : Nat} {p q : Position} {rest : List Char} {style : Style}

theorem signAt {raw : String} (h : SignIn none 0 .start raw.toList style q) :
    SignAt raw style q := by
  obtain ⟨front, back, c, hraw, hsign, rfl, hreading, hallows⟩ := h
  refine ⟨front, back, c, hraw, hsign, Position.isAt_after front, parse_eq_ok_iff.mpr ?_, hallows⟩
  rwa [String.toList_ofList]

theorem here (hsign : rest.head? ≠ some style.sign) :
    SignIn style? count p (style.sign :: rest) style p :=
  ⟨[], rest, [], rfl, hsign, rfl, .nil, nofun⟩

end SignIn

/-- The first placeholder stays the first, and one of another style is refused beside it. -/
theorem Marks.first_of_note {m m' : Marks} {style : Style} {p : Position}
    (h : m.note style p = .ok m') :
    m'.first = m.first ∨ m.first = none ∧ m'.first = some (style, p) := by
  obtain ⟨first, positional⟩ := m
  cases first with
  | none =>
      cases h
      exact .inr ⟨rfl, rfl⟩
  | some first =>
      obtain ⟨st, q⟩ := first
      simp only [note] at h
      split at h
      · cases h
        exact .inl rfl
      · cases h

theorem Marks.exists_first_of_note {m : Marks} {style : Style} {p : Position} {cause : Cause}
    (h : m.note style p = .error cause) :
    ∃ st q, m.first = some (st, q) ∧ st ≠ style ∧
      cause = .mixedStyles (.marker st q) (.marker style p) := by
  obtain ⟨first, positional⟩ := m
  cases first with
  | none => cases h
  | some first =>
      obtain ⟨st, q⟩ := first
      simp only [note] at h
      split at h
      · cases h
      · rename_i hne
        cases h
        exact ⟨st, q, rfl, hne, rfl⟩

/-- The span is read as an item in front of `rest`, and of any beginning of it. Behind the item
the placeholders are marked by `m'`. -/
structure Fronts (m : Marks) (p : Position) (span rest : List Char) (e : Expr) (m' : Marks) :
    Prop where
  span_ne : span ≠ []
  reads : ∀ front c, front <+: rest →
    Reading m'.style? m'.positional (p.after span) front c →
    Reading m.style? m.positional p (span ++ front) (⟨p, e⟩ :: c)
  allows : ∀ style, rest.head? = some style.sign → Clause.Allows [⟨p, e⟩] style
  first : m'.first = m.first ∨ m.first = none ∧ ∃ style, m'.first = some (style, p) ∧
    SignIn m.style? m.positional p (span ++ rest) style p

section Fronts

variable {m m' : Marks} {p : Position} {cs span rest : List Char} {e : Expr}

theorem fronts_text (hne : (verbatim none cs).1 ≠ []) (hclosed : (verbatim none cs).2.2 = none) :
    Fronts m p (verbatim none cs).1 (verbatim none cs).2.1
      (.text (String.ofList (verbatim none cs).1)) m where
  span_ne := hne
  reads _ _ hfront h := .text_replace hne hclosed ((stops_rest none cs).of_beginning hfront) h
  allows style _ := by
    rintro _ ⟨⟩
    exact ⟨by simp, by simp⟩
  first := .inl rfl

theorem exists_fronts_function (m : Marks) {p' : Position}
    (h : FunctionReading (p.next '#') cs e p' rest) :
    ∃ span, cs = span ++ rest ∧ p' = p.after ('#' :: span) ∧ Fronts m p ('#' :: span) rest e m := by
  obtain ⟨span, hspan, hpos, -⟩ := h.exists_span
  obtain ⟨span', hspan', hreplace⟩ := h.replace
  obtain rfl : span' = span := List.append_cancel_right (hspan'.symm.trans hspan)
  refine ⟨span', hspan, hpos, List.cons_ne_nil _ _, fun front c hfront hc => ?_, ?_, .inl rfl⟩
  · rw [hpos] at hreplace
    exact .function (hreplace front (.of_beginning hfront)) hc
  · rintro style hhead _ ⟨⟩
    cases h with
    | marker _ hrest =>
        -- The sign would be a part of the name.
        have hsign := hrest _ hhead
        cases style <;> cases hsign
    | short => exact ⟨by simp, by simp⟩
    | call => exact ⟨by simp, by simp⟩

/-- A placeholder that is noted is the first one, or the first one stays. -/
theorem first_of_sign {style : Style} (hnote : m.note style p = .ok m')
    (hsign : rest.head? ≠ some style.sign) :
    m'.first = m.first ∨ m.first = none ∧ ∃ st, m'.first = some (st, p) ∧
      SignIn m.style? m.positional p (style.sign :: rest) st p :=
  (Marks.first_of_note hnote).imp_right fun h => ⟨h.1, style, h.2, .here hsign⟩

theorem fronts_positional (hnote : m.note .positional p = .ok m') (hsign : rest.head? ≠ some '?')
    (hdigit : rest.head? = some '0' ∨ NotFirst Char.isDigit rest) :
    Fronts m p ['?'] rest (.bind .positional m'.positional) m' := by
  obtain ⟨hstyle, hstyle', hcount⟩ := Marks.note_ok hnote
  rw [if_pos rfl] at hcount
  refine ⟨List.cons_ne_nil _ _, fun front c hfront hc => ?_, ?_, first_of_sign hnote hsign⟩
  · have hbehind := Behind.of_beginning hfront
    rw [hstyle', hcount] at hc
    rw [hcount]
    exact .positional hstyle (hbehind.head?_ne (by decide) hsign) (hbehind.noIndex hdigit) hc
  · rintro style hhead _ ⟨⟩
    refine ⟨by simp, ?_⟩
    rintro _ rfl
    exact absurd hhead hsign

theorem fronts_indexed {n : Nat} (hnote : m.note .indexed p = .ok m') (hpos : 0 < n)
    (hlimit : n < indexLimit) (hdigit : NotFirst Char.isDigit rest) :
    Fronts m p ('$' :: digits n) rest (.bind .indexed n) m' := by
  obtain ⟨hstyle, hstyle', hcount⟩ := Marks.note_ok hnote
  refine ⟨List.cons_ne_nil _ _, fun front c hfront hc => ?_, ?_,
    first_of_sign hnote (head?_digits_append n rest)⟩
  · rw [hstyle', hcount] at hc
    exact .indexed hstyle hpos hlimit ((Behind.of_beginning hfront).notFirst rfl hdigit) hc
  · rintro style - _ ⟨⟩
    refine ⟨by simp, ?_⟩
    rintro _ rfl
    simp

/-- A sign behind an item. The item is read without what stands behind the sign. -/
theorem Fronts.signIn (h : Fronts m p span rest e m') {style : Style} {q : Position}
    (hsign : SignIn m'.style? m'.positional (p.after span) rest style q) :
    SignIn m.style? m.positional p (span ++ rest) style q := by
  obtain ⟨front, back, c, hrest, hback, rfl, hreading, hallows⟩ := hsign
  have hfront : front <+: rest := ⟨style.sign :: back, hrest.symm⟩
  refine ⟨span ++ front, back, ⟨p, e⟩ :: c, ?_, hback, ?_, h.reads front c hfront hreading, ?_⟩
  · rw [hrest, List.append_assoc]
  · rw [Position.after_append]
  · intro e' he'
    cases c with
    | nil =>
        -- The sign stands directly behind the item.
        cases hreading
        exact h.allows style (by rw [hrest]; rfl) e' he'
    | cons item c => exact hallows e' (by simpa [Clause.exprs] using he')

end Fronts

/-- Two signs of which the first is that of the first placeholder, noted before or to come. -/
def Clash (m : Marks) (p : Position) (cs : List Char) (first second : StyleUse) : Prop :=
  ∃ st st' q q', st ≠ st' ∧ first = .marker st q ∧ second = .marker st' q' ∧
    SignIn m.style? m.positional p cs st' q' ∧
    (m.first = some (st, q) ∨ m.first = none ∧ SignIn m.style? m.positional p cs st q)

/-- A clash behind an item is one of the whole. -/
theorem Fronts.clash {m m' : Marks} {p : Position} {span rest : List Char} {e : Expr}
    {first second : StyleUse} (h : Fronts m p span rest e m')
    (hclash : Clash m' (p.after span) rest first second) :
    Clash m p (span ++ rest) first second := by
  obtain ⟨st, st', q, q', hne, hu, hv, hsecond, hfirst⟩ := hclash
  refine ⟨st, st', q, q', hne, hu, hv, h.signIn hsecond, ?_⟩
  rcases h.first with hsame | ⟨hnone, style, hnew, hsign⟩
  · rw [hsame] at hfirst
    exact hfirst.imp_right fun hsign => ⟨hsign.1, h.signIn hsign.2⟩
  · rw [hnew] at hfirst
    rcases hfirst with hfirst | ⟨hfirst, -⟩
    · cases hfirst
      exact .inr ⟨hnone, hsign⟩
    · cases hfirst

/-! ## Where the styles are refused -/

section Refused

variable {finish p : Position} {m : Marks} {cs rest : List Char} {first second : StyleUse}

theorem takeItems_cons_error {t : Token} {ts : List Token} {cause : Cause}
    (h : takeItems finish m (t :: ts) = .error cause) :
    takeItem finish m t ts = .error cause ∨ ∃ item m' ts',
      takeItem finish m t ts = .ok (item, m', ts') ∧ takeItems finish m' ts' = .error cause := by
  rw [takeItems] at h
  split at h
  · rename_i hitem
    cases h
    exact .inl hitem
  · rename_i item m' ts' hitem
    split at h
    · rename_i hitems
      cases h
      exact .inr ⟨item, m', ts', hitem, hitems⟩
    · cases h

/-- Behind the sign of a placeholder without an index. -/
theorem takeItems_index_error
    (h : takeItems finish m (Lexer.tokens ⟨.index, p, cs⟩) = .error (.mixedStyles first second)) :
    (cs.head? = some '0' ∨ NotFirst Char.isDigit cs) ∧
      takeItems finish m (Lexer.tokens ⟨.text, p, cs⟩) = .error (.mixedStyles first second) := by
  rcases index_cases p cs with hdigit | ⟨_, _, _, _, _, htokens⟩
  · rw [Lexer.tokens_index hdigit] at h
    exact ⟨hdigit, h⟩
  · rw [htokens] at h
    rcases takeItems_cons_error h with hitem | ⟨_, _, _, hitem, _⟩ <;>
      simp [takeItem] at hitem

/-- The styles are refused behind an item, where its characters are left. -/
def RefusedBehind (finish : Position) (m : Marks) (p : Position) (cs : List Char)
    (first second : StyleUse) : Prop :=
  ∃ span rest e m', cs = span ++ rest ∧ Fronts m p span rest e m' ∧
    takeItems finish m' (Lexer.tokens ⟨.text, p.after span, rest⟩) =
      .error (.mixedStyles first second)

theorem refusedBehind_of_text (hne : (verbatim none cs).1 ≠ [])
    (h : takeItems finish m (Lexer.tokens ⟨.text, p, cs⟩) = .error (.mixedStyles first second)) :
    RefusedBehind finish m p cs first second := by
  rw [Lexer.tokens_text hne] at h
  cases hclosed : (verbatim none cs).2.2 with
  | some q =>
      rw [hclosed] at h
      rcases takeItems_cons_error h with hitem | ⟨_, _, _, hitem, _⟩ <;> cases hitem
  | none =>
      rw [hclosed] at h
      rcases takeItems_cons_error h with hitem | ⟨_, _, _, hitem, hitems⟩
      · cases hitem
      · cases hitem
        exact ⟨_, _, _, m, (verbatim_append none cs).symm, fronts_text hne hclosed, hitems⟩

theorem refusedBehind_of_hash
    (h : takeItems finish m (Lexer.tokens ⟨.text, p, '#' :: rest⟩) =
      .error (.mixedStyles first second)) :
    RefusedBehind finish m p ('#' :: rest) first second := by
  rw [Lexer.tokens_hash] at h
  rcases takeItems_cons_error h with hitem | ⟨item, m', ts, hitem, hitems⟩
  all_goals
    simp only [takeItem] at hitem
    split at hitem
  · rename_i hfunction
    cases hitem
    exact absurd hfunction takeFunction_ne_mixedStyles
  · cases hitem
  · cases hitem
  · rename_i hfunction
    cases hitem
    obtain ⟨p', rest', hreading, rfl⟩ := exists_functionReading hfunction
    obtain ⟨span, rfl, rfl, hfronts⟩ := exists_fronts_function m hreading
    exact ⟨_, _, _, m, rfl, hfronts, hitems⟩

/-- At a sign the style is refused beside that of the first placeholder, or it is noted. -/
theorem refused_of_sign {style : Style} (hsign : rest.head? ≠ some style.sign)
    (h : takeItems finish m (Lexer.tokens ⟨.text, p, style.sign :: rest⟩) =
      .error (.mixedStyles first second)) :
    Clash m p (style.sign :: rest) first second ∨
      RefusedBehind finish m p (style.sign :: rest) first second := by
  rw [Lexer.tokens_sign style hsign] at h
  cases hnote : m.note style p with
  | error cause =>
      obtain ⟨st, q, hfirst, hne, rfl⟩ := Marks.exists_first_of_note hnote
      rcases takeItems_cons_error h with hitem | ⟨_, _, _, hitem, _⟩ <;>
        simp only [takeItem, hnote] at hitem <;> cases hitem
      exact .inl ⟨st, style, q, p, hne, rfl, rfl, .here hsign, .inl hfirst⟩
  | ok m' =>
      right
      cases style with
      | positional =>
          rcases takeItems_cons_error h with hitem | ⟨_, _, _, hitem, hitems⟩ <;>
            simp only [takeItem, hnote] at hitem <;> cases hitem
          obtain ⟨hdigit, hitems⟩ := takeItems_index_error hitems
          exact ⟨['?'], rest, _, m', rfl, fronts_positional hnote hsign hdigit, hitems⟩
      | indexed =>
          rcases takeItems_cons_error h with hitem | ⟨_, _, _, hitem, hitems⟩
          all_goals
            simp only [takeItem, hnote] at hitem
            split at hitem
          · rename_i hindex
            cases hitem
            exact absurd hindex takeIndex_ne_mixedStyles
          · cases hitem
          · cases hitem
          · rename_i n ts hindex
            cases hitem
            obtain ⟨rest, hpos, hlimit, hdigit, rfl, rfl⟩ := takeIndex_ok hindex
            exact ⟨_, _, _, m', rfl, fronts_indexed hnote hpos hlimit hdigit, hitems⟩

/-- The styles are refused only at two signs with which placeholders of both begin. -/
theorem clash_of_takeItems
    (h : takeItems finish m (Lexer.tokens ⟨.text, p, cs⟩) = .error (.mixedStyles first second)) :
    Clash m p cs first second := by
  -- By induction on the length of the text, of which every item leaves less.
  induction hlen : cs.length using Nat.strongRecOn generalizing p m cs with
  | ind n ih =>
      subst hlen
      have hbehind : RefusedBehind finish m p cs first second → Clash m p cs first second := by
        rintro ⟨span, rest, e, m', rfl, hfronts, h⟩
        have hpos := List.length_pos_iff.mpr hfronts.span_ne
        exact hfronts.clash (ih _ (by rw [List.length_append]; omega) h rfl)
      cases begins cs with
      | nil =>
          rw [Lexer.tokens_nil, takeItems] at h
          cases h
      | text hne => exact hbehind (refusedBehind_of_text hne h)
      | hash rest => exact hbehind (refusedBehind_of_hash h)
      | sign style hsign => exact (refused_of_sign hsign h).elim id hbehind

end Refused

/-! ## Templates -/

/-- **What is parsed is in normal form, and the styles are refused only where both occur.** The
two places in the error are those of signs with which placeholders of the two styles begin. -/
theorem parse_normal (raw : String) :
    (∀ c, parse raw = .ok c → c.Normal) ∧
      ∀ first second, parse raw = .error (.mixedStyles first second) →
        ∃ style style' p p', style ≠ style' ∧ first = .marker style p ∧
          second = .marker style' p' ∧ SignAt raw style p ∧ SignAt raw style' p' := by
  constructor
  · exact fun c h => (parse_eq_ok_iff.mp h).normal rfl
  · intro first second h
    have hclash : Clash {} .start raw.toList first second := clash_of_takeItems h
    obtain ⟨style, style', p, p', hne, hfirst, hsecond, hsign', hsign⟩ := hclash
    rcases hsign with hsign | ⟨-, hsign⟩
    · cases hsign
    · exact ⟨style, style', p, p', hne, hfirst, hsecond, hsign.signAt, hsign'.signAt⟩

/-- Signs that are escaped, quoted, or part of a name or an argument do not count. -/
theorem parse_normal_sample : ∃ c, parse "a = ? #f$ '?' $$ #c('$1')" = .ok c ∧ c.Normal ∧
    SignAt "'?' ?? #f? #c('?') $1 #c1 ?" .indexed ⟨19, 1, 20⟩ ∧
    SignAt "'?' ?? #f? #c('?') $1 #c1 ?" .positional ⟨26, 1, 27⟩ := by
  have herror : parse "'?' ?? #f? #c('?') $1 #c1 ?" =
      .error (.mixedStyles (.marker .indexed ⟨19, 1, 20⟩) (.marker .positional ⟨26, 1, 27⟩)) := by
    decide +kernel
  obtain ⟨style, style', p, p', -, hfirst, hsecond, hsign, hsign'⟩ :=
    (parse_normal _).2 _ _ herror
  cases hfirst
  cases hsecond
  have hok : (parse "a = ? #f$ '?' $$ #c('$1')").toOption.isSome = true := by decide +kernel
  cases hc : parse "a = ? #f$ '?' $$ #c('$1')" with
  | error e =>
      rw [hc] at hok
      cases hok
  | ok c => exact ⟨c, rfl, (parse_normal _).1 c hc, hsign, hsign'⟩

end SqlTemplate.Template
