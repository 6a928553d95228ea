import Mathlib.Algebra.Group.Nat.Even
import Mathlib.Algebra.Ring.Parity
import SqlTemplate.Proofs.Inlining
import SqlTemplate.Proofs.Usage
import SqlTemplate.Query.Terminal

/-!
# Quotes and doubled signs

Which texts a template copies can be told without reading it: count the quotes and the
signs. `quoteAfter` follows the quotations of a text, where a quote of another kind
inside a quotation counts for nothing; a text is inert when it ends outside quotations
and has, outside of them, no sign of a function and the signs of placeholders in even
numbers only. The lexer looks ahead for doubled signs and has no counts, and copies
exactly the inert texts (`verbatim_eq_iff`).
-/

namespace SqlTemplate

namespace Template

/-- The quotation that the text stands in behind one more character. -/
def quoteStep : Option Char → Char → Option Char
  | none, c => if isQuote c then some c else none
  | some q, c => if c = q then none else some q

/-- The quotation that a text ends in, when it begins in `quote`. -/
def quoteAfter (quote : Option Char) (cs : List Char) : Option Char := cs.foldl quoteStep quote

/-- The text begins in `quote` and refers to nothing: every quotation is closed, and what
stands outside quotations is no sign of a function, nor a run of signs of odd length. -/
structure Inert (quote : Option Char) (cs : List Char) : Prop where
  closed : quoteAfter quote cs = none
  hash : ∀ front back, cs = front ++ '#' :: back → quoteAfter quote front ≠ none
  /-- A run is as long as possible: no sign of the same style stands on either side. -/
  runs : ∀ (style : Style) front n back, cs = front ++ (List.replicate n style.sign ++ back) →
    quoteAfter quote front = none → front.getLast? ≠ some style.sign →
    back.head? ≠ some style.sign → Even n

/-! ## One character, or one pair -/

section Steps

variable {quote : Option Char} {c : Char} {cs : List Char}

theorem exists_sign (h : isMarker c = true) : ∃ style : Style, c = style.sign := by
  rcases Bool.or_eq_true_iff.mp h with hc | hc
  · exact ⟨.indexed, eq_of_beq hc⟩
  · exact ⟨.positional, eq_of_beq hc⟩

theorem isMarker_sign (style : Style) : isMarker style.sign = true := by
  cases style <;> rfl

theorem sign_inj {style style' : Style} (h : style.sign = style'.sign) : style = style' := by
  cases style <;> cases style' <;> first | rfl | exact absurd h (by decide)

theorem sign_ne_hash (style : Style) : style.sign ≠ '#' := by
  cases style <;> decide

theorem isMarker_of_isQuote (h : isQuote c = true) : isMarker c = false ∧ c ≠ '#' := by
  simp only [isQuote, Bool.or_eq_true, beq_iff_eq] at h
  rcases h with (rfl | rfl) | rfl <;> decide

theorem quoteStep_sign (style : Style) : quoteStep none style.sign = none := by
  cases style <;> rfl

theorem isQuote_of_mem_quoteStep (hquote : ∀ q ∈ quote, isQuote q = true) :
    ∀ q ∈ quoteStep quote c, isQuote q = true := by
  intro q hq
  cases quote with
  | none =>
      by_cases hc : isQuote c
      · simp only [quoteStep, hc, if_true, Option.mem_some_iff] at hq
        rwa [← hq]
      · simp [quoteStep, hc] at hq
  | some q' =>
      by_cases hc : c = q'
      · simp [quoteStep, hc] at hq
      · simp only [quoteStep, hc, if_false] at hq
        exact hquote q hq

theorem inert_nil : Inert quote [] ↔ quote = none := by
  refine ⟨fun h => h.closed, fun h => ⟨h, by simp, ?_⟩⟩
  intro style front n back happ _ _ _
  have hlength := congrArg List.length happ
  simp only [List.length_nil, List.length_append, List.length_replicate] at hlength
  have hn : n = 0 := by omega
  simp [hn]

/-- A character that begins no reference where it stands changes the quotation and nothing
else. -/
theorem inert_cons (hquote : ∀ q ∈ quote, isQuote q = true)
    (hplain : quote = none → isMarker c = false ∧ c ≠ '#') :
    Inert quote (c :: cs) ↔ Inert (quoteStep quote c) cs := by
  constructor
  · intro h
    refine ⟨h.closed, fun front back happ => ?_, fun style front n back happ hout hlast => ?_⟩
    · exact h.hash (c :: front) back (by rw [happ, List.cons_append])
    · refine h.runs style (c :: front) n back (by rw [happ, List.cons_append]) hout ?_
      cases front with
      | cons d front => simpa using hlast
      | nil =>
          -- The character is no sign: it is plain, or the quote that ends the quotation.
          have hmarker : isMarker c = false := by
            cases quote with
            | none => exact (hplain rfl).1
            | some q =>
                have hq : c = q := by
                  by_contra hne
                  simp [quoteAfter, quoteStep, hne] at hout
                rw [hq]
                exact (isMarker_of_isQuote (hquote q rfl)).1
          rintro hc
          rw [List.getLast?_singleton, Option.some.injEq] at hc
          rw [hc, isMarker_sign] at hmarker
          cases hmarker
  · intro h
    refine ⟨h.closed, fun front back happ => ?_, fun style front n back happ hout hlast => ?_⟩
    · cases front with
      | nil =>
          intro hout
          exact (hplain hout).2 (List.cons.inj happ).1
      | cons d front =>
          obtain ⟨rfl, hcs⟩ := List.cons.inj happ
          exact h.hash front back hcs
    · cases front with
      | nil =>
          cases n with
          | zero => simp
          | succ n =>
              have hmarker := (hplain hout).1
              rw [(List.cons.inj happ).1, isMarker_sign] at hmarker
              cases hmarker
      | cons d front =>
          obtain ⟨rfl, hcs⟩ := List.cons.inj happ
          refine h.runs style front n back hcs hout ?_
          cases front with
          | nil => simp
          | cons e front => simpa using hlast

/-- A sign that comes twice is copied, and what stands behind is read as if it stood alone. -/
theorem inert_pair (style : Style) :
    Inert none (style.sign :: style.sign :: cs) ↔ Inert none cs := by
  have hstep : ∀ front, quoteAfter none (style.sign :: style.sign :: front) =
      quoteAfter none front := by
    intro front
    simp only [quoteAfter, List.foldl_cons, quoteStep_sign]
  constructor
  · intro h
    refine ⟨hstep cs ▸ h.closed, fun front back happ => ?_,
      fun style' front n back happ hout hlast hhead => ?_⟩
    · rw [← hstep]
      exact h.hash (style.sign :: style.sign :: front) back (by rw [happ]; rfl)
    · cases front with
      | cons d front =>
          refine h.runs style' (style.sign :: style.sign :: d :: front) n back
            (by rw [happ]; rfl) (by rwa [hstep]) ?_ hhead
          simpa using hlast
      | nil =>
          by_cases hstyle : style' = style
          · -- The run at the beginning is longer by the pair.
            subst hstyle
            have heven := h.runs style' [] (n + 2) back
              (by rw [happ]; rfl) rfl (by simp) hhead
            exact (Nat.even_add.mp heven).mpr even_two
          · refine h.runs style' [style.sign, style.sign] n back (by rw [happ]; rfl)
              (hstep []) ?_ hhead
            simpa [eq_comm] using fun heq => hstyle (sign_inj heq)
  · intro h
    refine ⟨(hstep cs).trans h.closed, fun front back happ => ?_,
      fun style' front n back happ hout hlast hhead => ?_⟩
    · match front, happ with
      | [], happ => exact absurd (List.cons.inj happ).1 (sign_ne_hash style)
      | [d], happ =>
          exact absurd (List.cons.inj (List.cons.inj happ).2).1 (sign_ne_hash style)
      | d :: e :: front, happ =>
          simp only [List.cons_append, List.cons.injEq] at happ
          obtain ⟨rfl, rfl, hcs⟩ := happ
          rw [hstep]
          exact h.hash front back hcs
    · match front, n, happ with
      | [], 0, _ => simp
      | [d], 0, _ => simp
      | [], n + 1, happ =>
          simp only [List.nil_append, List.replicate_succ, List.cons_append,
            List.cons.injEq] at happ
          obtain ⟨hsign, hcs⟩ := happ
          obtain rfl := sign_inj hsign
          cases n with
          | zero =>
              rw [List.replicate_zero, List.nil_append] at hcs
              exact absurd (by rw [← hcs]; rfl) hhead
          | succ n =>
              have heven := h.runs style [] n back (List.cons.inj hcs).2 rfl (by simp) hhead
              exact heven.add even_two
      | [d], n + 1, happ =>
          simp only [List.cons_append, List.nil_append, List.replicate_succ,
            List.cons.injEq] at happ
          obtain ⟨rfl, hsign, -⟩ := happ
          exact absurd (congrArg some hsign) hlast
      | d :: e :: front, n, happ =>
          simp only [List.cons_append, List.cons.injEq] at happ
          obtain ⟨rfl, rfl, hcs⟩ := happ
          refine h.runs style' front n back hcs (by rwa [hstep] at hout) ?_ hhead
          cases front with
          | nil => simp
          | cons c front => simpa using hlast

theorem not_inert_hash : ¬ Inert none ('#' :: cs) :=
  fun h => h.hash [] cs rfl rfl

theorem not_inert_sign (style : Style) (hne : cs.head? ≠ some style.sign) :
    ¬ Inert none (style.sign :: cs) := by
  intro h
  have heven := h.runs style [] 1 cs rfl rfl (by simp) hne
  exact Nat.not_even_one heven

end Steps

/-! ## Whole texts -/

/-- **The lexer copies the inert texts** and no others, from any quotation on. Its recursion takes
a character or a doubled sign at a time, and where it stops the text is not inert. -/
theorem verbatim_eq_iff {quote : Option Char} {cs : List Char}
    (hquote : ∀ q ∈ quote, isQuote q = true) :
    verbatim quote cs = (cs, [], none) ↔ Inert quote cs := by
  fun_induction verbatim quote cs with
  | case1 quote => simp [inert_nil]
  | case2 q c cs run rest quote hrun ih =>
      rw [hrun] at ih
      rw [inert_cons hquote fun h => (by cases h), quoteStep,
        ← ih (isQuote_of_mem_quoteStep hquote)]
      simp
  | case3 c hc =>
      refine iff_of_false (by simp) ?_
      rcases Bool.or_eq_true_iff.mp hc with hmarker | hhash
      · obtain ⟨style, rfl⟩ := exists_sign hmarker
        exact not_inert_sign style (by simp)
      · obtain rfl := eq_of_beq hhash
        exact not_inert_hash
  | case4 c hc =>
      have hplain : isMarker c = false ∧ c ≠ '#' := by simpa using hc
      rw [inert_cons hquote fun _ => hplain, inert_nil, quoteStep]
      simp
  | case5 c cs run rest quote hrun hmarker ih =>
      obtain ⟨style, rfl⟩ := exists_sign hmarker
      rw [inert_pair, ← ih hquote, hrun]
      simp
  | case6 c d cs hmarker hne =>
      obtain ⟨style, rfl⟩ := exists_sign hmarker
      refine iff_of_false (by simp) (not_inert_sign style ?_)
      simpa [eq_comm] using hne
  | case7 c d cs hmarker hhash =>
      obtain rfl := eq_of_beq hhash
      exact iff_of_false (by simp) not_inert_hash
  | case8 c d cs hmarker hhash run rest quote hrun ih =>
      have hplain : isMarker c = false ∧ c ≠ '#' := by simpa using And.intro hmarker hhash
      rw [hrun] at ih
      rw [inert_cons hquote fun _ => hplain, quoteStep, ← ih (isQuote_of_mem_quoteStep hquote)]
      simp

theorem copied_iff {cs : List Char} : Copied cs ↔ Inert none cs :=
  verbatim_eq_iff (by simp)

instance (cs : List Char) : Decidable (Inert none cs) :=
  decidable_of_iff (verbatim none cs = (cs, [], none)) copied_iff

section Texts

variable {style? : Option Style} {count : Nat} {p : Position} {cs : List Char} {c : Clause}
  {item : Item} {s : String}

theorem Reading.eq_nil (h : Reading style? count p cs []) : cs = [] := by
  cases h
  rfl

/-- A text at the beginning is the copied part of the characters, and the reading goes on at the
reference behind it. -/
theorem Reading.verbatim_eq (h : Reading style? count p cs (item :: c))
    (hs : item.expr = .text s) : s ≠ "" ∧ ∃ p' rest,
      verbatim none cs = (s.toList, rest, none) ∧ Reading style? count p' rest c := by
  cases h with
  | text hne hclosed hrest =>
      cases hs
      refine ⟨fun hempty => hne (by simpa using hempty), _, _, ?_, hrest⟩
      rw [String.toList_ofList]
      exact congrArg (fun quote => ((verbatim none cs).1, (verbatim none cs).2.1, quote)) hclosed
  | positional => cases hs
  | indexed => cases hs
  | function hfunction =>
      obtain rfl : _ = Expr.text s := hs
      cases hfunction

theorem Reading.not_text_of_stops (h : Reading style? count p cs (item :: c))
    (hstops : Stops cs) : item.expr ≠ .text s := by
  intro hs
  obtain ⟨hne, p', rest, hverbatim, -⟩ := h.verbatim_eq hs
  rw [hstops, Prod.mk.injEq] at hverbatim
  exact hne (String.toList_eq_nil_iff.mp hverbatim.1.symm)

/-- What is read as texts only is copied as a whole: a text goes on to the first reference, so
there is no second text behind it. -/
theorem Reading.copied_of_texts (h : Reading style? count p cs c)
    (htexts : ∀ item ∈ c, ∃ s, item.expr = .text s) : Copied cs := by
  cases c with
  | nil =>
      rw [h.eq_nil]
      exact copied_nil
  | cons item c =>
      obtain ⟨⟨s, hs⟩, htexts⟩ := List.forall_mem_cons.mp htexts
      obtain ⟨-, p', rest, hverbatim, hrest⟩ := h.verbatim_eq hs
      have happ := verbatim_append none cs
      have hstops := stops_rest none cs
      rw [hverbatim] at happ hstops
      cases c with
      | nil =>
          have happ : s.toList = cs := by rwa [hrest.eq_nil, List.append_nil] at happ
          rw [Copied, hverbatim, hrest.eq_nil, happ]
      | cons item' c =>
          obtain ⟨⟨s', hs'⟩, -⟩ := List.forall_mem_cons.mp htexts
          exact absurd hs' (hrest.not_text_of_stops hstops)

end Texts

end Template

/-! ## Segments of copied text -/

open Template (Copied Inert parse)
open Render (evaluate evaluate_eq)

/-- The text without the blanks at its ends. -/
def Text.trimmed (s : String) : String := String.ofList (trim isBlank s.toList)

theorem Output.trim_ofString (s : String) : (ofString s).trim = ofString (Text.trimmed s) := by
  have hblank : Symbol.isBlank ∘ Symbol.char = Text.isBlank := rfl
  simp only [trim, ofString, Text.trimmed, Text.trim, Text.trimEnd, List.dropWhile_map, hblank,
    ← List.map_reverse, String.toList_ofList]

theorem Output.text_ofString (s : String) : (ofString s).text = s := by
  rw [text, chars_ofString, String.ofList_toList]

namespace Segment

theorem wrap_empty (body : Output) : wrap "" "" body = body.trim := by
  unfold wrap
  split
  · rename_i h
    exact h.symm
  · simp

/-- A copied text without declarations is rendered to itself, whatever the session is. -/
theorem render_of_copied {raw : String} (h : Copied raw.toList) (registry : Registry)
    (s : Session) : render registry { raw } s = .ok (.ofString (Text.trimmed raw)) s := by
  have heval : evaluate registry (scope registry { raw })
      (if raw = "" then [] else [⟨.start, .text raw⟩]) { session := s } =
        .ok (.ofString raw) { session := s } := by
    rw [evaluate_eq]
    split
    · rename_i hraw
      subst hraw
      rfl
    · show EStateM.Result.ok [Output.ofString raw].reverse.flatten _ = _
      simp
  rw [render_eq, map_of_ok (Render.Scope.render_of_used h.parse heval rfl), wrap_empty,
    Output.trim_ofString]

theorem build_of_copied {raw : String} (h : Copied raw.toList) :
    build { raw } = .ok ⟨Text.trimmed raw, [], none⟩ := by
  unfold build Built.ofRender
  rw [render_of_copied h]
  show Except.ok (Built.ofSession _ _) = _
  rw [Output.text_ofString]
  rfl

end Segment

/-- **The copied texts are those with even signs and closed quotes.** A text is parsed to itself,
as the one text of its clause, if and only if it is inert. Then it is built to itself without
blanks at the ends, with no arguments, and in no session it leaves anything behind; every other
text is an error or refers to something. -/
theorem Template.parse_eq_text_iff (t : String) :
    (parse t = .ok (if t = "" then [] else [⟨.start, .text t⟩]) ↔ Inert none t.toList) ∧
    (Inert none t.toList →
      Segment.build { raw := t } = .ok ⟨Text.trimmed t, [], none⟩ ∧
      ∀ registry s,
        Segment.render registry { raw := t } s = .ok (.ofString (Text.trimmed t)) s) ∧
    (¬ Inert none t.toList → (∃ cause, parse t = .error cause) ∨
      ∃ c, parse t = .ok c ∧ ∃ item ∈ c, ∀ s, item.expr ≠ .text s) := by
  have htexts : ∀ c, parse t = .ok c → (∀ item ∈ c, ∃ s, item.expr = .text s) →
      Inert none t.toList := fun c hparse hall =>
    copied_iff.mp ((parse_eq_ok_iff.mp hparse).copied_of_texts hall)
  refine ⟨⟨fun hparse => htexts _ hparse ?_, fun h => (copied_iff.mpr h).parse⟩,
    fun h => ⟨Segment.build_of_copied (copied_iff.mpr h),
      Segment.render_of_copied (copied_iff.mpr h)⟩, fun h => ?_⟩
  · intro item hitem
    split at hitem
    · cases hitem
    · exact ⟨t, congrArg Item.expr (List.mem_singleton.mp hitem)⟩
  · cases hparse : parse t with
    | error cause => exact .inl ⟨cause, rfl⟩
    | ok c =>
        refine .inr ⟨c, rfl, ?_⟩
        by_contra hnone
        push Not at hnone
        exact h (htexts c hparse hnone)

/-- Quotes of each kind in quotations of another, and three signs in a row. -/
theorem Template.parse_eq_text_sample :
    Inert none " $$ '$1 `' ?? \"'#\" 'it''s' ".toList ∧
    Segment.build { raw := " $$ '$1 `' ?? \"'#\" 'it''s' " } =
      .ok ⟨"$$ '$1 `' ?? \"'#\" 'it''s'", [], none⟩ ∧
    ¬ Inert none "'$' $$$".toList ∧
    ((∃ cause, parse "'$' $$$" = .error cause) ∨
      ∃ c, parse "'$' $$$" = .ok c ∧ ∃ item ∈ c, ∀ s, item.expr ≠ .text s) := by
  have hinert : Inert none " $$ '$1 `' ?? \"'#\" 'it''s' ".toList := by decide +kernel
  have hodd : ¬ Inert none "'$' $$$".toList := by decide +kernel
  have htrimmed : Text.trimmed " $$ '$1 `' ?? \"'#\" 'it''s' " =
      "$$ '$1 `' ?? \"'#\" 'it''s'" := by decide +kernel
  refine ⟨hinert, ?_, hodd, (parse_eq_text_iff _).2.2 hodd⟩
  rw [← htrimmed]
  exact ((parse_eq_text_iff _).2.1 hinert).1

end SqlTemplate
