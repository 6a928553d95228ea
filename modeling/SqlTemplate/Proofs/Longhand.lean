import SqlTemplate.Proofs.Prefixes
import SqlTemplate.Proofs.RoundTrip
import SqlTemplate.Proofs.Spans
import SqlTemplate.Proofs.Splicing

/-!
# Templates in longhand

A reference is written short, as `$2`, `?` or `#c2`, or as a call with its argument in
parentheses, as `#$(2)`, `#?(1)` or `#c(2)`. A template is put in longhand piece by piece:
what the other items are read from is left as it is (`longhand`). What was read from a
template is read from its longhand too, but that each placeholder is a call
(`exists_parse_longhand`).
-/

namespace SqlTemplate

theorem Number.index?_repr {n : Nat} (h : n < indexLimit) : index? (Nat.repr n) = some n := by
  have hdigits : (Nat.repr n).toList = digits n := String.toList_ofList
  obtain ⟨d, ds, hds⟩ := List.exists_cons_of_ne_nil (digits_ne_nil n)
  have hd : d.isDigit = true := isDigit_of_mem_digits (n := n) (by simp [hds])
  have hplus : d ≠ '+' := by
    rintro rfl
    cases hd
  have hall : (d :: ds).all Char.isDigit = true :=
    List.all_eq_true.mpr fun c hc => isDigit_of_mem_digits (hds ▸ hc)
  have hvalue : ofDigits (d :: ds) = n := by rw [← hds, ofDigits_digits]
  simp [index?, hdigits, hds, hplus, hall, hvalue, h]

namespace Template

open Number
open Text (isBlank trimEnd)

/-! ## Pieces -/

/-- The characters from each item up to the next one. The positions say where to cut. -/
def Clause.pieces : Clause → List Char → List (List Char)
  | [], _ => []
  | [_], cs => [cs]
  | item :: next :: rest, cs =>
    let piece := Text.takeBytes (next.pos.offset - item.pos.offset) cs
    piece :: pieces (next :: rest) (cs.drop piece.length)

theorem takeBytes_byteLength (cs rest : List Char) :
    Text.takeBytes (Text.byteLength cs) (cs ++ rest) = cs := by
  induction cs with
  | nil =>
      cases rest with
      | nil => rfl
      | cons c rest =>
          have hpos := c.utf8Size_pos
          simp [Text.takeBytes, Nat.ne_of_gt hpos]
  | cons c cs ih =>
      rw [List.cons_append, Text.byteLength_cons, Text.takeBytes, if_pos (Nat.le_add_right ..),
        Nat.add_sub_cancel_left, ih]

/-- Cut where the positions say, the text falls into the pieces that the positions come from. -/
theorem Clause.pieces_eq {c : Clause} {p : Position} {spans : List (List Char)}
    (h : c.map (·.pos) = p.starts spans) : c.pieces spans.flatten = spans := by
  induction spans generalizing c p with
  | nil =>
      obtain rfl := List.map_eq_nil_iff.mp h
      rfl
  | cons span rest ih =>
      obtain ⟨item, c, rfl, rfl, hrest⟩ := List.map_eq_cons_iff.mp h
      have hpieces := ih hrest
      cases c with
      | nil =>
          obtain rfl : rest = [] := hpieces.symm
          simp [pieces]
      | cons next c =>
          cases rest with
          | nil => cases hrest
          | cons span' rest =>
              -- The next item begins where the piece ends.
              have hnext : next.pos = item.pos.after span := (List.cons.inj hrest).1
              have hlength : next.pos.offset - item.pos.offset = Text.byteLength span := by
                rw [hnext, Position.after_offset, Nat.add_sub_cancel_left]
              rw [pieces, hlength, List.flatten_cons, takeBytes_byteLength, List.drop_left, hpieces]

theorem Reading.pieces_cons {style? : Option Style} {count : Nat} {p : Position} {e : Expr}
    {span rest : List Char} {c : Clause} (h : Reading style? count (p.after span) rest c) :
    Clause.pieces (⟨p, e⟩ :: c) (span ++ rest) = span :: c.pieces rest := by
  obtain ⟨spans, rfl, hpos, -⟩ := h.exists_spans
  have hcons : List.map (·.pos) (⟨p, e⟩ :: c) = p.starts (span :: spans) :=
    congrArg (List.cons p) hpos
  rw [Clause.pieces_eq hpos, ← List.flatten_cons, Clause.pieces_eq hcons]

/-- The pieces of a template are those that its items are read from. -/
theorem spans_pieces {raw : String} {items : Clause} (h : parse raw = .ok items) :
    items.Spans raw (items.pieces raw.toList) := by
  obtain ⟨spans, hcover, hpos, hspans⟩ := (parse_eq_ok_iff.mp h).exists_spans
  rw [← hcover, Clause.pieces_eq hpos]
  refine ⟨hcover, hspans, fun i hi => ?_⟩
  have hstart : items[i].pos = Position.start.after (spans.take i).flatten := by
    rw [← Position.getElem_starts _ _ (by simpa [← hpos] using hi)]
    simp [← hpos]
  rw [hstart]
  exact Position.isAt_after _

/-! ## Calls of one argument -/

/-- A call with its argument in parentheses. -/
def spellCall (name arg : String) : List Char :=
  '#' :: (name.toList ++ '(' :: (arg.toList ++ [')']))

theorem isBlank_of_isDigit {d : Char} (h : d.isDigit = true) : isBlank d = false := by
  obtain ⟨n, hn, rfl⟩ := exists_digitChar h
  have hall : ∀ n < 10, isBlank (Nat.digitChar n) = false := by decide
  exact hall n hn

theorem isConstant_digits {ds : List Char} (hne : ds ≠ []) (hds : ∀ d ∈ ds, d.isDigit = true) :
    isConstant ds = true := by
  obtain ⟨d, ds, rfl⟩ := List.exists_cons_of_ne_nil hne
  have hnil : ∀ c ∈ ([] : List Char).head?, c.isDigit = false := by simp
  have hrun := takeWhile_run hds hnil
  have hrest := dropWhile_run hds hnil
  rw [List.append_nil] at hrun hrest
  have hsign : takeSign (d :: ds) = (false, d :: ds) := by
    have hd := hds d (by simp)
    unfold takeSign
    split
    · rename_i heq
      cases heq
      cases hd
    · rename_i heq
      cases heq
      cases hd
    · rfl
  have hdecimal : (decimal? (d :: ds)).isSome = true := by
    simp [decimal?, hrun, hrest, exponent?]
  have hnumeral : (numeral? (d :: ds)).isSome = true := by
    simp only [numeral?, hsign]
    split
    · rfl
    · split
      · rfl
      · simpa using hdecimal
  simp [isConstant, hnumeral]

theorem bare_digits {ds : List Char} (hds : ∀ d ∈ ds, d.isDigit = true) (rest : List Char) :
    Lexer.bare (ds ++ ')' :: rest) = ds := by
  have hin : ∀ d ∈ ds, decide (d ≠ ',' ∧ d ≠ ')') = true := by
    intro d hd
    have hdigit := hds d hd
    rw [decide_eq_true_iff]
    constructor <;> rintro rfl <;> cases hdigit
  have hout : NotFirst (fun d => decide (d ≠ ',' ∧ d ≠ ')')) (')' :: rest) := by
    rintro _ ⟨⟩
    rfl
  have hblank : ∀ d ∈ ds.reverse.head?, isBlank d = false := by
    intro d hd
    exact isBlank_of_isDigit (hds d (List.mem_reverse.mp (List.mem_of_head? hd)))
  have hnil : ∀ d ∈ ([] : List Char), isBlank d = true := nofun
  have hdrop := dropWhile_run hnil hblank
  rw [List.nil_append] at hdrop
  rw [Lexer.bare, takeWhile_run hin hout, trimEnd, hdrop, List.reverse_reverse]

/-- An index in parentheses is the only argument. -/
theorem argumentList_digits {ds : List Char} (hne : ds ≠ []) (hds : ∀ d ∈ ds, d.isDigit = true)
    (p : Position) (rest : List Char) :
    ∃ p', ArgumentList ⟨.arguments, p, ds ++ ')' :: rest⟩ [String.ofList ds] ⟨.text, p', rest⟩ := by
  have hbare := bare_digits hds rest
  obtain ⟨d, ds, rfl⟩ := List.exists_cons_of_ne_nil hne
  have hd := hds d (by simp)
  have hnil : ∀ c ∈ ([] : List Char), isBlank c = true := nofun
  have hnext : Lexer.next ⟨.arguments, p, [] ++ d :: (ds ++ ')' :: rest)⟩ = _ :=
    Lexer.next_arguments hnil (isBlank_of_isDigit hd)
  rw [Lexer.nextArgument_bare _ (by rintro rfl; cases hd) (by rintro rfl; cases hd)
    (by rintro (rfl | rfl) <;> cases hd), ← List.cons_append, hbare, List.drop_left] at hnext
  exact ⟨_, .some (.last hnext (by simp [argument, isConstant_digits hne hds])
    (next_closeParen _ rest) rfl)⟩

theorem functionReading_spellCall {name : List Char} (hname : IsName name) {ds : List Char}
    (hne : ds ≠ []) (hds : ∀ d ∈ ds, d.isDigit = true) (p : Position) (rest : List Char) :
    ∃ cs p', spellCall (String.ofList name) (String.ofList ds) ++ rest = '#' :: cs ∧
      FunctionReading p cs (.call (String.ofList name) [String.ofList ds]) p' rest := by
  obtain ⟨p', hlist⟩ := argumentList_digits hne hds ((p.after name).next '(') rest
  exact ⟨_, p', by simp [spellCall], .call hname hlist⟩

/-! ## Longhand -/

/-- What an expression becomes when it is read from its longhand. -/
def Expr.toCall : Expr → Expr
  | .bind style index => .call style.sign.toString [Nat.repr index]
  | e => e

/-- A placeholder, or a call without parentheses, is written as a call. Any other expression
keeps the characters it is read from. -/
def Expr.longhand (span : List Char) : Expr → List Char
  | .bind style index => spellCall style.sign.toString (Nat.repr index)
  | .call name [arg] => if '(' ∈ span then span else spellCall name arg
  | _ => span

/-- The characters of a clause in longhand, piece by piece. -/
def Clause.longhand (c : Clause) (cs : List Char) : List Char :=
  (List.zipWith (fun (item : Item) span => item.expr.longhand span) c (c.pieces cs)).flatten

/-- The template in longhand. -/
def longhand (raw : String) : String :=
  match parse raw with
  | .ok c => String.ofList (c.longhand raw.toList)
  | .error _ => raw

theorem Expr.longhand_of_paren {name : String} {args : List String} {span : List Char}
    (h : '(' ∈ span) : (Expr.call name args).longhand span = span := by
  match args with
  | [arg] => exact if_pos h
  | [] => rfl
  | _ :: _ :: _ => rfl

/-- A short call is one without a parenthesis. -/
theorem Expr.longhand_short {name ds : List Char} (hname : IsName name)
    (hds : ∀ d ∈ ds, d.isDigit = true) :
    (Expr.call (String.ofList name) [String.ofList ds]).longhand ('#' :: (name ++ ds)) =
      spellCall (String.ofList name) (String.ofList ds) := by
  refine if_neg ?_
  rw [List.mem_cons, List.mem_append]
  rintro (hparen | hparen | hparen)
  · cases hparen
  · cases hname.2 _ hparen
  · cases hds _ hparen

/-- A function is read from its longhand, before any text that can stand behind it. -/
theorem FunctionReading.exists_longhand {p p' : Position} {cs rest : List Char} {e : Expr}
    (h : FunctionReading p cs e p' rest) :
    ∃ span, cs = span ++ rest ∧ p' = p.after span ∧ e.toCall = e ∧
      ∀ rest', Behind rest rest' → ∃ cs' q, e.longhand ('#' :: span) ++ rest' = '#' :: cs' ∧
        FunctionReading p cs' e q rest' := by
  obtain ⟨span, hspan, hpos, -⟩ := h.exists_span
  obtain ⟨span', hspan', hreplace⟩ := h.replace
  obtain rfl : span' = span := List.append_cancel_right (hspan'.symm.trans hspan)
  -- What is no short call keeps its characters.
  have hkept : e.longhand ('#' :: span') = '#' :: span' → ∀ rest', Behind rest rest' →
      ∃ cs' q, e.longhand ('#' :: span') ++ rest' = '#' :: cs' ∧
        FunctionReading p cs' e q rest' :=
    fun hsame rest' hrest => ⟨_, _, by rw [hsame, List.cons_append], hreplace rest' hrest⟩
  cases h with
  | marker => exact ⟨span', hspan, hpos, rfl, hkept rfl⟩
  | @short name ds _ hname hne hds _ =>
      rw [← List.append_assoc] at hspan
      obtain rfl := List.append_cancel_right hspan
      refine ⟨name ++ ds, by simp, hpos, rfl, fun rest' _ => ?_⟩
      rw [Expr.longhand_short hname hds]
      exact functionReading_spellCall hname hne hds p rest'
  | @call _ name list _ args _ hlist =>
      obtain ⟨list', hlist', -⟩ := hlist.exists_takes
      have hlist' : list = list' ++ [')'] ++ rest := hlist'
      rw [hlist', ← List.cons_append, ← List.append_assoc] at hspan
      obtain rfl := List.append_cancel_right hspan
      exact ⟨_, by rw [hlist']; simp, hpos, rfl, hkept (Expr.longhand_of_paren (by simp))⟩

/-- The characters `cs'` stand for the clause in longhand, where it is read from `cs`. -/
structure InLonghand (cs : List Char) (c : Clause) (cs' : List Char) : Prop where
  /-- Where text comes first it still does; else a function does. -/
  head : ∀ d ∈ cs'.head?, d = '#' ∨ (verbatim none cs).1 ≠ [] ∧ cs.head? = some d
  reads : ∃ p c', Reading none 0 p cs' c' ∧ c'.exprs = c.exprs.map Expr.toCall

namespace InLonghand

variable {p : Position} {cs cs' ds : List Char} {c : Clause}

theorem behind (h : InLonghand cs c cs') : Behind cs cs' :=
  fun d hd => (h.head d hd).symm.imp_left And.right

theorem stops (h : InLonghand cs c cs') (hstops : Stops cs) : Stops cs' := by
  cases cs' with
  | nil => rfl
  | cons d cs' =>
      rcases h.head d rfl with rfl | ⟨hne, -⟩
      · exact stops_hash cs'
      · exact absurd (congrArg Prod.fst hstops) hne

theorem nil : InLonghand [] [] [] := ⟨nofun, .start, [], .nil, rfl⟩

theorem text (hne : (verbatim none cs).1 ≠ []) (hclosed : (verbatim none cs).2.2 = none)
    (h : InLonghand (verbatim none cs).2.1 c cs') :
    InLonghand cs (⟨p, .text (String.ofList (verbatim none cs).1)⟩ :: c)
      ((verbatim none cs).1 ++ cs') where
  head := by
    have happ := verbatim_append none cs
    obtain ⟨d, run, hrun⟩ := List.exists_cons_of_ne_nil hne
    rw [hrun, List.cons_append] at happ ⊢
    rintro _ ⟨⟩
    exact .inr ⟨List.cons_ne_nil d run, by rw [← happ]; rfl⟩
  reads := by
    obtain ⟨q, c', hreading, hexprs⟩ := h.reads
    obtain ⟨c'', hmoved, hexprs'⟩ := hreading.moved (p.after (verbatim none cs).1)
    -- Behind the text there was a reference, and there is one again.
    have hstops := h.stops (stops_rest none cs)
    refine ⟨p, _, .text_replace hne hclosed hstops hmoved, ?_⟩
    rw [Clause.exprs_cons, Clause.exprs_cons, hexprs', hexprs]
    rfl

/-- What is a function in longhand. -/
theorem function {e : Expr} {q q' : Position} (hfunction : FunctionReading q ds e.toCall q' cs')
    {rest : List Char} (h : InLonghand rest c cs') :
    InLonghand cs (⟨p, e⟩ :: c) ('#' :: ds) where
  head := by
    rintro _ ⟨⟩
    exact .inl rfl
  reads := by
    obtain ⟨_, c', hreading, hexprs⟩ := h.reads
    obtain ⟨q', hmoved⟩ := hfunction.moved (p.next '#')
    obtain ⟨c'', hrest, hexprs'⟩ := hreading.moved q'
    refine ⟨p, _, .function hmoved hrest, ?_⟩
    rw [Clause.exprs_cons, Clause.exprs_cons, hexprs', hexprs]
    rfl

/-- A placeholder becomes a call of the function that has its sign as the name. -/
theorem bind {rest : List Char} (h : InLonghand rest c cs') (style : Style) (n : Nat) :
    InLonghand cs (⟨p, .bind style n⟩ :: c)
      (spellCall style.sign.toString (Nat.repr n) ++ cs') := by
  have hname : IsName [style.sign] := by
    refine ⟨by simp, fun d hd => ?_⟩
    rw [List.mem_singleton.mp hd]
    cases style <;> rfl
  obtain ⟨ds, q, hcall, hfunction⟩ := functionReading_spellCall hname (digits_ne_nil n)
    (fun d hd => isDigit_of_mem_digits hd) p cs'
  have hsign : String.ofList [style.sign] = style.sign.toString := rfl
  have hrepr : String.ofList (digits n) = Nat.repr n := rfl
  rw [hsign, hrepr] at hcall hfunction
  rw [hcall]
  exact function hfunction h

end InLonghand

namespace Reading

variable {style? : Option Style} {count : Nat} {p : Position} {cs : List Char} {c : Clause}

theorem longhand_cons {rest : List Char} (span : List Char) (e : Expr)
    (h : Reading style? count (p.after span) rest c) :
    Clause.longhand (⟨p, e⟩ :: c) (span ++ rest) = e.longhand span ++ c.longhand rest := by
  rw [Clause.longhand, h.pieces_cons]
  rfl

/-- **What a text reads as is read from its longhand**, with calls for the placeholders. -/
theorem inLonghand (h : Reading style? count p cs c) : InLonghand cs c (c.longhand cs) := by
  induction h with
  | nil => exact .nil
  | @text _ _ _ cs c hne hclosed h ih =>
      have hcons :=
        longhand_cons (verbatim none cs).1 (.text (String.ofList (verbatim none cs).1)) h
      rw [verbatim_append] at hcons
      rw [hcons]
      exact .text hne hclosed ih
  | @positional _ count _ rest _ _ _ _ h ih =>
      have hcons := longhand_cons ['?'] (.bind .positional (count + 1)) h
      rw [List.singleton_append] at hcons
      rw [hcons]
      exact ih.bind .positional (count + 1)
  | @indexed _ _ _ n rest _ _ _ _ _ h ih =>
      have hcons := longhand_cons ('$' :: digits n) (.bind .indexed n) h
      rw [List.cons_append] at hcons
      rw [hcons]
      exact ih.bind .indexed n
  | @function _ _ _ _ _ rest e _ hfunction h ih =>
      obtain ⟨span, rfl, rfl, hcall, hlonghand⟩ := hfunction.exists_longhand
      have hcons := longhand_cons ('#' :: span) e h
      rw [List.cons_append] at hcons
      obtain ⟨ds, q, hds, hfunction'⟩ := hlonghand _ ih.behind
      rw [hcons, hds]
      rw [← hcall] at hfunction'
      exact .function hfunction' ih

end Reading

theorem parse_longhand {raw : String} {c : Clause} (h : parse raw = .ok c) :
    ∃ c', parse (longhand raw) = .ok c' ∧ c'.exprs = c.exprs.map Expr.toCall := by
  obtain ⟨_, c', hreading, hexprs⟩ := (parse_eq_ok_iff.mp h).inLonghand.reads
  obtain ⟨c'', hmoved, hexprs'⟩ := hreading.moved .start
  refine ⟨c'', parse_eq_ok_iff.mpr ?_, hexprs'.trans hexprs⟩
  rwa [longhand, h, String.toList_ofList]

example : longhand "a = $2, #c1#t(1) '$3' #join('#$', '?') $1" =
    "a = #$(2), #c(1)#t(1) '$3' #join('#$', '?') #$(1)" := by
  decide +kernel

/-- An index is smaller than the limit if no positional one can reach it. -/
theorem Reading.index_lt {style? : Option Style} {count : Nat} {p : Position} {cs : List Char}
    {c : Clause} (h : Reading style? count p cs c) (hlimit : count + cs.length < indexLimit) :
    ∀ style n, .bind style n ∈ c.exprs → n < indexLimit := by
  induction h with
  | nil => simp [Clause.exprs]
  | @text _ _ _ cs _ _ _ _ ih =>
      have hlength := congrArg List.length (verbatim_append none cs)
      rw [List.length_append] at hlength
      intro style n hn
      exact ih (by omega) style n (by simpa [Clause.exprs] using hn)
  | positional _ _ _ _ ih =>
      rw [List.length_cons] at hlimit
      intro style n hn
      rcases List.mem_cons.mp hn with hn | hn
      · cases hn
        omega
      · exact ih (by omega) style n hn
  | indexed _ _ hn' _ _ ih =>
      rw [List.length_cons, List.length_append] at hlimit
      intro style n hn
      rcases List.mem_cons.mp hn with hn | hn
      · cases hn
        exact hn'
      · exact ih (by omega) style n hn
  | function hfunction _ ih =>
      have hle := hfunction.length_le
      rw [List.length_cons] at hlimit
      intro style n hn
      rcases List.mem_cons.mp hn with hn | hn
      · cases hn
        cases hfunction
      · exact ih (by omega) style n hn

end Template

end SqlTemplate
