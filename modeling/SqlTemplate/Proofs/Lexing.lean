import Mathlib.Data.List.Induction
import SqlTemplate.Template.Parser

/-!
# What the lexer takes

The tokens of a text by how the text begins. Copied text ends where a reference
begins, and where it ends does not depend on what the reference is
(`verbatim_append_of_stops`); digits and names are as long as they can be. Each
mode of the lexer has an equation for each token that can come next, with what must
not stand behind that token.
-/

namespace SqlTemplate

/-! ## Indices -/

namespace Number

theorem isDigit_of_mem_digits {n : Nat} {c : Char} (h : c ∈ digits n) : c.isDigit = true :=
  Nat.isDigit_of_mem_toDigits (by decide) (by decide) h

theorem digits_ne_nil (n : Nat) : digits n ≠ [] := Nat.toDigits_ne_nil

theorem digits_of_lt {n : Nat} (h : n < 10) : digits n = [Nat.digitChar n] :=
  Nat.toDigits_of_lt_base h

theorem head?_digits_append (n : Nat) (rest : List Char) :
    (digits n ++ rest).head? ≠ some '$' := by
  obtain ⟨d, ds, hds⟩ := List.exists_cons_of_ne_nil (digits_ne_nil n)
  have hd : d.isDigit = true := isDigit_of_mem_digits (n := n) (by simp [hds])
  rw [hds, List.cons_append, List.head?_cons, ne_eq, Option.some.injEq]
  rintro rfl
  cases hd

/-- The last digit of a number that has another before. -/
theorem digits_append {n d : Nat} (hn : 0 < n) (hd : d < 10) :
    digits (10 * n + d) = digits n ++ [Nat.digitChar d] := by
  rw [← digits_of_lt hd]
  exact (Nat.toDigits_append_toDigits (by decide) hn hd).symm

theorem head?_digits {n : Nat} (h : 0 < n) : (digits n).head? ≠ some '0' := by
  induction n using Nat.strongRecOn with
  | ind n ih =>
      by_cases hlt : n < 10
      · rw [digits_of_lt hlt, List.head?_cons, ne_eq, Option.some.injEq]
        intro hzero
        have hvalue := Nat.toNat_digitChar_of_lt_ten hlt
        rw [hzero] at hvalue
        have h48 : '0'.toNat = 48 := rfl
        omega
      · have hn : n = 10 * (n / 10) + n % 10 := by omega
        have hhead := ih (n / 10) (by omega) (by omega)
        rw [hn, digits_append (by omega) (by omega)]
        cases hd : digits (n / 10) with
        | nil => exact absurd hd (digits_ne_nil _)
        | cons c cs => simpa [hd] using hhead

theorem exists_digitChar {c : Char} (h : c.isDigit = true) : ∃ d < 10, c = Nat.digitChar d := by
  have hrange : 48 ≤ c.toNat ∧ c.toNat ≤ 57 := by
    simpa [Char.isDigit, UInt32.le_iff_toNat_le] using h
  refine ⟨c.toNat - 48, by omega, Char.toNat_inj.mp ?_⟩
  rw [Nat.toNat_digitChar_of_lt_ten (by omega)]
  omega

/-- A numeral without leading zeros is the one of its value. -/
theorem digits_ofDigits {cs : List Char} (hne : cs ≠ []) (hdigit : ∀ c ∈ cs, c.isDigit = true)
    (hzero : cs.head? ≠ some '0') : 0 < ofDigits cs ∧ digits (ofDigits cs) = cs := by
  induction cs using List.reverseRecOn with
  | nil => exact absurd rfl hne
  | append_singleton cs c ih =>
      obtain ⟨d, hd, rfl⟩ := exists_digitChar (hdigit c (by simp))
      have hvalue : ofDigits (cs ++ [Nat.digitChar d]) = 10 * ofDigits cs + d := by
        rw [ofDigits, Nat.ofDigitChars_append, Nat.ofDigitChars_cons_digitChar_of_lt_ten hd,
          Nat.ofDigitChars_nil]
        rfl
      by_cases hcs : cs = []
      · subst hcs
        have hpos : d ≠ 0 := by
          rintro rfl
          exact hzero rfl
        have hvalue' : ofDigits ([] ++ [Nat.digitChar d]) = d := by simpa [ofDigits] using hvalue
        rw [hvalue', digits_of_lt hd]
        exact ⟨by omega, rfl⟩
      · obtain ⟨hpos, hcs'⟩ := ih hcs (fun c hc => hdigit c (by simp [hc])) (by
          cases cs with
          | nil => exact absurd rfl hcs
          | cons c cs => simpa using hzero)
        rw [hvalue, digits_append hpos hd, hcs']
        exact ⟨by omega, rfl⟩

end Number

namespace Template

open Number

/-! ## The text up to a reference -/

/-- Nothing of the text can be copied: it is empty or begins with a reference. -/
def Stops (cs : List Char) : Prop := verbatim none cs = ([], cs, none)

/-- No character with the property comes first. -/
def NotFirst (p : Char → Bool) (cs : List Char) : Prop := ∀ c ∈ cs.head?, p c = false

theorem stops_hash (cs : List Char) : Stops ('#' :: cs) := by
  cases cs <;> rfl

theorem stops_sign (style : Style) {cs : List Char} (h : cs.head? ≠ some style.sign) :
    Stops (style.sign :: cs) := by
  have hmarker : isMarker style.sign = true := by cases style <;> rfl
  cases cs with
  | nil => simp [Stops, verbatim, hmarker]
  | cons c cs =>
      have hne : style.sign ≠ c := by
        rintro rfl
        exact h rfl
      simp [Stops, verbatim, hmarker, hne]

theorem verbatim_cons {c : Char} (hmarker : isMarker c = false) (hhash : c ≠ '#')
    (cs : List Char) : verbatim none (c :: cs) =
      (c :: (verbatim (if isQuote c then some c else none) cs).1,
        (verbatim (if isQuote c then some c else none) cs).2) := by
  cases cs with
  | nil => simp [verbatim, hmarker, hhash]
  | cons d cs => simp [verbatim, hmarker, hhash]

/-- A reference begins with the sign of a function or with one of a placeholder, which does not
come twice. -/
theorem cases_of_stops {c : Char} {cs : List Char} (h : Stops (c :: cs)) :
    c = '#' ∨ ∃ style : Style, c = style.sign ∧ cs.head? ≠ some style.sign := by
  by_cases hhash : c = '#'
  · exact .inl hhash
  · right
    cases hmarker : isMarker c with
    | false =>
        rw [Stops, verbatim_cons hmarker hhash] at h
        simp at h
    | true =>
        have hne : cs.head? ≠ some c := by
          cases cs with
          | nil => simp
          | cons d cs =>
              intro hd
              obtain rfl : d = c := by simpa using hd
              simp [Stops, verbatim, hmarker] at h
        rcases Bool.or_eq_true_iff.mp hmarker with hc | hc
        · obtain rfl := eq_of_beq hc
          exact ⟨.indexed, rfl, hne⟩
        · obtain rfl := eq_of_beq hc
          exact ⟨.positional, rfl, hne⟩

/-- What is left behind the copied text begins with a reference. -/
theorem stops_rest (quote : Option Char) (cs : List Char) : Stops (verbatim quote cs).2.1 := by
  fun_induction verbatim quote cs with
  | case1 => rfl
  | case2 q c cs run rest quote hrun ih => rwa [hrun] at ih
  | case3 c hc => simp [Stops, verbatim, hc]
  | case4 => rfl
  | case5 c cs run rest quote hrun hmarker ih => rwa [hrun] at ih
  | case6 c d cs hmarker hne => simp [Stops, verbatim, hmarker, hne]
  | case7 c d cs hmarker hhash => simp [Stops, verbatim, hmarker, hhash]
  | case8 c d cs hmarker hhash run rest quote hrun ih => rwa [hrun] at ih

theorem stops_of_fst_eq_nil {cs : List Char} (h : (verbatim none cs).1 = []) : Stops cs := by
  have hrest := stops_rest none cs
  have happ := verbatim_append none cs
  rw [h, List.nil_append] at happ
  rwa [happ] at hrest

/-- What is copied does not depend on what comes behind, as long as that stops too. -/
theorem verbatim_append_of_stops {quote : Option Char} {cs : List Char}
    (hclosed : (verbatim quote cs).2.2 = none) {more : List Char} (hmore : Stops more) :
    verbatim quote ((verbatim quote cs).1 ++ more) = ((verbatim quote cs).1, more, none) := by
  fun_induction verbatim quote cs with
  | case1 quote =>
      obtain rfl : quote = none := hclosed
      exact hmore
  | case2 q c cs run rest quote hrun ih =>
      rw [hrun] at ih
      simp [verbatim, ih hclosed]
  | case3 c hc => exact hmore
  | case4 c hc =>
      have hplain : isMarker c = false ∧ c ≠ '#' := by simpa using hc
      have hquote : isQuote c = false := by simpa using hclosed
      have hmore : verbatim none more = ([], more, none) := hmore
      simp [verbatim_cons hplain.1 hplain.2, hquote, hmore]
  | case5 c cs run rest quote hrun hmarker ih =>
      rw [hrun] at ih
      simp [verbatim, hmarker, ih hclosed]
  | case6 c d cs hmarker hne => exact hmore
  | case7 c d cs hmarker hhash => exact hmore
  | case8 c d cs hmarker hhash run rest quote hrun ih =>
      rw [hrun] at ih
      have hplain : isMarker c = false ∧ c ≠ '#' := by simpa using And.intro hmarker hhash
      simp [verbatim_cons hplain.1 hplain.2, ih hclosed]

/-- How a text can begin. -/
inductive Begins : List Char → Prop
  | nil : Begins []
  | text {cs : List Char} (hne : (verbatim none cs).1 ≠ []) : Begins cs
  | hash (rest : List Char) : Begins ('#' :: rest)
  | sign (style : Style) {rest : List Char} (h : rest.head? ≠ some style.sign) :
    Begins (style.sign :: rest)

theorem begins (cs : List Char) : Begins cs := by
  by_cases hrun : (verbatim none cs).1 = []
  · have hstops := stops_of_fst_eq_nil hrun
    cases cs with
    | nil => exact .nil
    | cons c rest =>
        rcases cases_of_stops hstops with rfl | ⟨style, rfl, hne⟩
        · exact .hash rest
        · exact .sign style hne
  · exact .text hrun

/-! ## Runs of characters -/

section Runs

variable {p : Char → Bool} {xs rest : List Char}

/-- The longest run of characters with a property. -/
theorem exists_run (p : Char → Bool) (cs : List Char) :
    ∃ xs rest, cs = xs ++ rest ∧ (∀ x ∈ xs, p x = true) ∧ NotFirst p rest := by
  refine ⟨cs.takeWhile p, cs.dropWhile p, List.takeWhile_append_dropWhile.symm, ?_, ?_⟩
  · exact List.all_eq_true.mp List.all_takeWhile
  · intro c hc
    have hhead := List.head?_dropWhile_not p cs
    rw [Option.mem_def.mp hc] at hhead
    simpa using hhead

theorem takeWhile_run (hxs : ∀ x ∈ xs, p x = true) (hrest : NotFirst p rest) :
    (xs ++ rest).takeWhile p = xs := by
  rw [List.takeWhile_append_of_pos hxs]
  cases rest with
  | nil => simp
  | cons c rest => simp [hrest c rfl]

theorem dropWhile_run (hxs : ∀ x ∈ xs, p x = true) (hrest : NotFirst p rest) :
    (xs ++ rest).dropWhile p = rest := by
  rw [List.dropWhile_append_of_pos hxs]
  cases rest with
  | nil => rfl
  | cons c rest => simp [hrest c rfl]

theorem takeWhile_of_notFirst (hrest : NotFirst p rest) : rest.takeWhile p = [] := by
  have hnil : ∀ x ∈ ([] : List Char), p x = true := by simp
  exact takeWhile_run hnil hrest

end Runs

/-! ## Tokens -/

namespace Lexer

theorem tokens_congr {l l' : Lexer} (h : l.next = l'.next) : l.tokens = l'.tokens := by
  cases hnext : l.next with
  | none => rw [tokens_eq_nil hnext, tokens_eq_nil (h ▸ hnext)]
  | some step =>
      obtain ⟨t, l''⟩ := step
      have hnext' : l'.next = some (t, l'') := h ▸ hnext
      rw [tokens_eq_cons hnext, tokens_eq_cons hnext']

variable {p : Position} {ds name rest : List Char}

theorem tokens_nil : tokens ⟨.text, p, []⟩ = [] := tokens_eq_nil rfl

theorem tokens_text {cs : List Char} (hne : (verbatim none cs).1 ≠ []) :
    tokens ⟨.text, p, cs⟩ =
      ⟨.text (verbatim none cs).2.2.isNone, (verbatim none cs).1, p⟩ ::
        tokens ⟨.text, p.after (verbatim none cs).1, (verbatim none cs).2.1⟩ := by
  refine tokens_eq_cons ?_
  show nextText _ = _
  unfold nextText
  split
  · rename_i h
    exact absurd (by rw [h]) hne
  · rename_i h
    exact absurd (by rw [h]) hne
  · rename_i h
    rw [h]
    rfl

theorem tokens_hash : tokens ⟨.text, p, '#' :: rest⟩ =
    ⟨.hash, ['#'], p⟩ :: tokens ⟨.name, p.next '#', rest⟩ := by
  have hstops : verbatim none ('#' :: rest) = ([], '#' :: rest, none) := stops_hash rest
  refine tokens_eq_cons ?_
  show nextText _ = _
  simp [nextText, hstops, emit]

theorem tokens_sign (style : Style) (h : rest.head? ≠ some style.sign) :
    tokens ⟨.text, p, style.sign :: rest⟩ =
      ⟨.marker style, [style.sign], p⟩ :: tokens ⟨.index, p.next style.sign, rest⟩ := by
  have hstops : verbatim none (style.sign :: rest) = ([], style.sign :: rest, none) :=
    stops_sign style h
  refine tokens_eq_cons ?_
  show nextText _ = _
  simp only [nextText, hstops]
  cases style <;> rfl

/-- Where no index can begin, the text goes on behind the sign of a placeholder. -/
theorem tokens_index (h : rest.head? = some '0' ∨ NotFirst Char.isDigit rest) :
    tokens ⟨.index, p, rest⟩ = tokens ⟨.text, p, rest⟩ := by
  refine tokens_congr ?_
  show _ = nextText _
  rcases h with h | h
  · simp [next, h, nextText, emit]
  · simp [next, takeWhile_of_notFirst h, nextText, emit]

theorem tokens_index_digits (hne : ds ≠ []) (hds : ∀ d ∈ ds, d.isDigit = true)
    (hzero : ds.head? ≠ some '0') (hrest : NotFirst Char.isDigit rest) :
    tokens ⟨.index, p, ds ++ rest⟩ =
      ⟨.digits, ds, p⟩ :: tokens ⟨.text, p.after ds, rest⟩ := by
  refine tokens_eq_cons ?_
  have htake := takeWhile_run hds hrest
  have hdrop := dropWhile_run hds hrest
  cases ds with
  | nil => exact absurd rfl hne
  | cons d ds =>
      simp only [next, htake, hdrop]
      exact if_neg hzero

theorem tokens_name_nil (h : NotFirst isNameChar rest) :
    tokens ⟨.name, p, rest⟩ = tokens ⟨.text, p, rest⟩ := by
  refine tokens_congr ?_
  show _ = nextText _
  simp [next, takeWhile_of_notFirst h, nextText, emit]

theorem tokens_name (hne : name ≠ []) (hname : ∀ c ∈ name, isNameChar c = true)
    (hrest : NotFirst isNameChar rest) :
    tokens ⟨.name, p, name ++ rest⟩ =
      ⟨.name, name, p⟩ :: tokens ⟨.suffix, p.after name, rest⟩ := by
  refine tokens_eq_cons ?_
  simp [next, takeWhile_run hname hrest, dropWhile_run hname hrest, emit]

/-- Behind a name without an index and without an argument list the text goes on. -/
theorem tokens_suffix (hdigit : NotFirst Char.isDigit rest) (hparen : rest.head? ≠ some '(') :
    tokens ⟨.suffix, p, rest⟩ = tokens ⟨.text, p, rest⟩ := by
  refine tokens_congr ?_
  show _ = nextText _
  cases rest with
  | nil => simp [next, nextText, emit]
  | cons c rest =>
      have hc : c ≠ '(' := by simpa using hparen
      simp [next, takeWhile_of_notFirst hdigit, nextText, emit, hc]

theorem tokens_suffix_digits (hne : ds ≠ []) (hds : ∀ d ∈ ds, d.isDigit = true)
    (hrest : NotFirst Char.isDigit rest) :
    tokens ⟨.suffix, p, ds ++ rest⟩ =
      ⟨.digits, ds, p⟩ :: tokens ⟨.text, p.after ds, rest⟩ := by
  refine tokens_eq_cons ?_
  have htake := takeWhile_run hds hrest
  have hdrop := dropWhile_run hds hrest
  cases ds with
  | nil => exact absurd rfl hne
  | cons d ds =>
      simp only [next, htake, hdrop]
      rfl

theorem tokens_suffix_paren : tokens ⟨.suffix, p, '(' :: rest⟩ =
    ⟨.openParen, ['('], p⟩ :: tokens ⟨.arguments, p.next '(', rest⟩ :=
  tokens_eq_cons rfl

end Lexer

end Template

end SqlTemplate
