import Mathlib.Data.List.Forall2
import SqlTemplate.Built
import SqlTemplate.Proofs.Reading

/-!
# Interpolated text

Whatever the arguments are, nothing in an interpolated query is read as a reference
again. A text that is copied as a whole ends outside a quotation, so copied texts
can be put one behind the other, also where the quotes of two of them meet
(`Copied.append`). The text of a query is made of such pieces, and every literal is
one: it is quoted, with the quotes in it doubled, or has no special characters.
-/

namespace SqlTemplate

open Number

namespace Template

/-! ## Copied text -/

/-- The whole text is copied: there is no reference in it and no quotation open at its end. -/
def Copied (cs : List Char) : Prop := verbatim none cs = (cs, [], none)

/-- The character is no sign of a reference and no quote. -/
def isPlain (c : Char) : Bool := !isMarker c && c != '#' && !isQuote c

theorem isPlain_iff {c : Char} :
    isPlain c = true ↔ isMarker c = false ∧ c ≠ '#' ∧ isQuote c = false := by
  simp [isPlain, and_assoc]

theorem copied_nil : Copied [] := rfl

/-- Behind a copied text the next one is read as if it stood alone. -/
theorem verbatim_append_of_copied {quote : Option Char} {cs : List Char}
    (h : verbatim quote cs = (cs, [], none)) (more : List Char) :
    verbatim quote (cs ++ more) = (cs ++ (verbatim none more).1, (verbatim none more).2) := by
  fun_induction verbatim quote cs with
  | case1 quote =>
      obtain rfl : quote = none := by simpa using h
      rfl
  | case2 q c cs run rest quote hrun ih =>
      obtain ⟨rfl, rfl, rfl⟩ : run = cs ∧ rest = [] ∧ quote = none := by simpa using h
      simp [verbatim, ih hrun]
  | case3 c hc => simp at h
  | case4 c hc =>
      have hplain : isMarker c = false ∧ c ≠ '#' := by simpa using hc
      have hquote : isQuote c = false := by simpa using h
      simp [verbatim_cons hplain.1 hplain.2, hquote]
  | case5 c cs run rest quote hrun hmarker ih =>
      obtain ⟨rfl, rfl, rfl⟩ : run = cs ∧ rest = [] ∧ quote = none := by simpa using h
      simp [verbatim, hmarker, ih hrun]
  | case6 c d cs hmarker hne => simp at h
  | case7 c d cs hmarker hhash => simp at h
  | case8 c d cs hmarker hhash run rest quote hrun ih =>
      obtain ⟨rfl, rfl, rfl⟩ : run = d :: cs ∧ rest = [] ∧ quote = none := by simpa using h
      have hplain : isMarker c = false ∧ c ≠ '#' := by simpa using And.intro hmarker hhash
      rw [List.cons_append, verbatim_cons hplain.1 hplain.2, ih hrun]
      rfl

theorem Copied.append {cs ds : List Char} (h : Copied cs) (h' : Copied ds) :
    Copied (cs ++ ds) := by
  rw [Copied, verbatim_append_of_copied h, h']

theorem copied_of_isPlain {cs : List Char} (h : ∀ c ∈ cs, isPlain c = true) : Copied cs := by
  induction cs with
  | nil => rfl
  | cons c cs ih =>
      rw [List.forall_mem_cons] at h
      obtain ⟨hmarker, hhash, hquote⟩ := isPlain_iff.mp h.1
      have hcs : verbatim none cs = (cs, [], none) := ih h.2
      simp [Copied, verbatim_cons hmarker hhash, hquote, hcs]

/-- A quotation ends at the quote that is not doubled. -/
theorem verbatim_double {q : Char} (hq : isQuote q = true) (cs : List Char) :
    verbatim (some q) (Text.double q cs ++ [q]) = (Text.double q cs ++ [q], [], none) := by
  obtain ⟨hmarker, hhash⟩ : isMarker q = false ∧ q ≠ '#' := by
    simp only [isQuote, Bool.or_eq_true, beq_iff_eq] at hq
    rcases hq with (rfl | rfl) | rfl <;> decide
  induction cs with
  | nil => simp [Text.double, verbatim]
  | cons c cs ih =>
      by_cases hc : c = q
      · subst hc
        simp [Text.double, verbatim, verbatim_cons hmarker hhash, hq, ih]
      · simp [Text.double, verbatim, hc, ih]

theorem copied_enclose (cs : List Char) : Copied (Text.enclose '\'' cs) := by
  have hquote : isQuote '\'' = true := rfl
  rw [Copied, Text.enclose, verbatim_cons rfl (by decide), if_pos hquote, verbatim_double hquote]

/-- The texts of a clause are copied as a whole. -/
theorem Reading.copied {style? : Option Style} {count : Nat} {p : Position} {cs : List Char}
    {c : Clause} (h : Reading style? count p cs c) {item : Item} (hitem : item ∈ c) {s : String}
    (hs : item.expr = .text s) : Copied s.toList := by
  induction h with
  | nil => cases hitem
  | @text _ _ _ cs _ _ hclosed _ ih =>
      rcases List.mem_cons.mp hitem with rfl | hitem
      · cases hs
        have hend : Stops [] := rfl
        have hcopied := verbatim_append_of_stops hclosed hend
        rw [List.append_nil] at hcopied
        rwa [String.toList_ofList]
      · exact ih hitem
  | positional _ _ _ _ ih =>
      rcases List.mem_cons.mp hitem with rfl | hitem
      · cases hs
      · exact ih hitem
  | indexed _ _ _ _ _ ih =>
      rcases List.mem_cons.mp hitem with rfl | hitem
      · cases hs
      · exact ih hitem
  | function hfunction _ ih =>
      rcases List.mem_cons.mp hitem with rfl | hitem
      · obtain rfl : _ = Expr.text s := hs
        cases hfunction
      · exact ih hitem

/-- A copied text is read as itself. -/
theorem Copied.reading {s : String} (h : Copied s.toList) (style? : Option Style) (count : Nat)
    (p : Position) :
    Reading style? count p s.toList (if s = "" then [] else [⟨p, .text s⟩]) := by
  split
  · rename_i hs
    subst hs
    exact .nil
  · rename_i hs
    have hne : s.toList ≠ [] := fun hnil => hs (String.toList_eq_nil_iff.mp hnil)
    have hreading : Reading style? count p s.toList _ :=
      .text (by rwa [h]) (by rw [h]) (by rw [h]; exact .nil)
    rwa [h, String.ofList_toList] at hreading

/-- A copied text is parsed to itself. -/
theorem Copied.parse {s : String} (h : Copied s.toList) :
    parse s = .ok (if s = "" then [] else [⟨.start, .text s⟩]) :=
  parse_eq_ok_iff.mpr (h.reading none 0 .start)

end Template

/-! ## Literals -/

open Template (Copied isPlain)

theorem Number.isPlain_of_mem_digits {n : Nat} {c : Char} (h : c ∈ digits n) :
    isPlain c = true := by
  obtain ⟨d, hd, rfl⟩ := exists_digitChar (isDigit_of_mem_digits h)
  have hall : ∀ d < 10, isPlain (Nat.digitChar d) = true := by decide
  exact hall d hd

theorem Number.isPlain_of_mem_ofInt {n : Int} {c : Char} (h : c ∈ (ofInt n).toList) :
    isPlain c = true := by
  rw [ofInt, String.toList_ofList] at h
  split at h
  · rcases List.mem_cons.mp h with rfl | h
    · rfl
    · exact isPlain_of_mem_digits h
  · exact isPlain_of_mem_digits h

theorem Number.isPlain_of_mem_positional {d : Decimal} {c : Char} (h : c ∈ d.positional) :
    isPlain c = true := by
  have hzeros : ∀ {n : Nat}, c ∈ List.replicate n '0' → isPlain c = true := by
    intro n h
    rw [List.eq_of_mem_replicate h]
    rfl
  have hpoint (n : Int) (h : c ∈ if n ≤ 0 then
      '0' :: '.' :: (List.replicate (-n).toNat '0' ++ digits d.coefficient)
      else (digits d.coefficient).take n.toNat ++ '.' :: (digits d.coefficient).drop n.toNat) :
      isPlain c = true := by
    split at h
    · rw [List.mem_cons, List.mem_cons, List.mem_append] at h
      rcases h with rfl | rfl | h | h
      · rfl
      · rfl
      · exact hzeros h
      · exact isPlain_of_mem_digits h
    · rw [List.mem_append, List.mem_cons] at h
      rcases h with h | rfl | h
      · exact isPlain_of_mem_digits (List.mem_of_mem_take h)
      · rfl
      · exact isPlain_of_mem_digits (List.mem_of_mem_drop h)
  simp only [Decimal.positional, Decimal.digitsAndPoint] at h
  split at h
  · rw [List.mem_singleton.mp h]
    rfl
  · split at h
    · rcases List.mem_append.mp h with h | h
      · exact isPlain_of_mem_digits h
      · exact hzeros h
    · exact hpoint _ h

theorem Number.isPlain_of_mem_display {f : Format} {x : Binary f} {c : Char}
    (h : c ∈ x.display.toList) : isPlain c = true := by
  have hletters : ∀ c ∈ "NaN".toList ++ "inf".toList, isPlain c = true :=
    List.all_eq_true.mp rfl
  unfold Binary.display at h
  split at h
  · exact hletters c (List.mem_append_left _ h)
  · have hbody : ∀ c ∈ (if x.isInfinite then "inf".toList
        else (f.shortest .awayFromZero x.magnitude).positional), isPlain c = true := by
      intro c h
      split at h
      · exact hletters c (List.mem_append_right _ h)
      · exact isPlain_of_mem_positional h
    rw [String.toList_ofList] at h
    split at h
    · rcases List.mem_cons.mp h with rfl | h
      · rfl
      · exact hbody c h
    · exact hbody c h

theorem Text.double_of_not_mem {q : Char} {cs : List Char} (h : q ∉ cs) : double q cs = cs := by
  induction cs with
  | nil => rfl
  | cons c cs ih =>
      rw [List.mem_cons, not_or] at h
      rw [double, if_neg (Ne.symm h.1), ih h.2]

theorem Text.quote_not_mem_hexOfBytes (bs : List UInt8) : '\'' ∉ hexOfBytes bs := by
  have hdigit : ∀ n < 16, Nat.digitChar n ≠ '\'' := by decide
  intro h
  obtain ⟨b, _, hb⟩ := List.mem_flatMap.mp h
  have hlt := b.toNat_lt
  rcases List.mem_cons.mp hb with hb | hb
  · exact hdigit _ (by omega) hb.symm
  · exact hdigit _ (by omega) (List.mem_singleton.mp hb).symm

/-- **A literal is copied text**, whatever the value. -/
theorem Value.copied_literal (v : Value) : Copied v.literal.toList := by
  have hquoted : ∀ s, Copied (Text.literal s).toList := by
    intro s
    rw [Text.literal, String.toList_ofList]
    exact Template.copied_enclose _
  cases v with
  | null => exact Template.copied_of_isPlain (List.all_eq_true.mp rfl)
  | bool b => cases b <;> exact Template.copied_of_isPlain (List.all_eq_true.mp rfl)
  | int n => exact Template.copied_of_isPlain fun _ => isPlain_of_mem_ofInt
  | float x => exact Template.copied_of_isPlain fun _ => isPlain_of_mem_display
  | bytes bs =>
      have hnot : '\'' ∉ '\\' :: 'x' :: Text.hexOfBytes bs := by
        simp [Text.quote_not_mem_hexOfBytes]
      have hliteral : (literal (.bytes bs)).toList =
          Text.enclose '\'' ('\\' :: 'x' :: Text.hexOfBytes bs) := by
        rw [Text.enclose, Text.double_of_not_mem hnot]
        simp [literal]
      rw [hliteral]
      exact Template.copied_enclose _
  | text s => exact hquoted _
  | date d => exact hquoted _
  | timestamp t => exact hquoted _
  | timestampTz t => exact hquoted _
  | uuid u => exact hquoted _
  | json j => exact hquoted _

/-! ## Queries -/

theorem mapM_eq_ok {ε α β : Type} {f : α → Except ε β} {xs : List α} {ys : List β} :
    xs.mapM f = .ok ys ↔ List.Forall₂ (fun x y => f x = .ok y) xs ys := by
  induction xs generalizing ys with
  | nil =>
      constructor
      · rintro ⟨⟩
        exact .nil
      · rintro ⟨⟩
        rfl
  | cons x xs ih =>
      rw [List.mapM_cons, List.forall₂_cons_left_iff]
      constructor
      · intro h
        cases hx : f x with
        | error e =>
            rw [hx] at h
            cases h
        | ok y =>
            rw [hx] at h
            cases hxs : xs.mapM f with
            | error e =>
                rw [hxs] at h
                cases h
            | ok ys =>
                rw [hxs] at h
                cases h
                exact ⟨y, ys, rfl, ih.mp hxs, rfl⟩
      · rintro ⟨y, ys, hx, hxs, rfl⟩
        rw [hx, ih.mpr hxs]
        rfl

theorem interpolate_eq_ok {query out : String} {args : List Value} :
    interpolate query args = .ok out ↔ ∃ c texts, Template.parse query = .ok c ∧
      List.Forall₂ (fun item text => interpolateItem args item = .ok text) c texts ∧
      out = String.join texts := by
  unfold interpolate
  cases Template.parse query with
  | error e => simp
  | ok c =>
      simp only [← mapM_eq_ok]
      cases htexts : c.mapM (interpolateItem args) with
      | error e => simp [htexts]
      | ok texts => simp [htexts, eq_comm]

theorem copied_of_interpolateItem {args : List Value} {item : Template.Item} {text : String}
    (hitem : ∀ s, item.expr = .text s → Copied s.toList)
    (h : interpolateItem args item = .ok text) : Copied text.toList := by
  unfold interpolateItem at h
  split at h
  · rename_i hs
    cases h
    exact hitem _ hs
  · split at h
    · cases h
      exact Value.copied_literal _
    · cases h
  · cases h
  · cases h

/-- The texts of a query stand one behind the other. -/
theorem copied_join {args : List Value} {c : Template.Clause} {texts : List String}
    (hitems : ∀ item ∈ c, ∀ s, item.expr = .text s → Copied s.toList)
    (h : List.Forall₂ (fun item text => interpolateItem args item = .ok text) c texts) :
    Copied (String.join texts).toList := by
  induction h with
  | nil => exact Template.copied_nil
  | cons hitem _ ih =>
      rw [List.forall_mem_cons] at hitems
      rw [String.join_cons, String.toList_append]
      exact (copied_of_interpolateItem hitems.1 hitem).append (ih hitems.2)

theorem Template.Copied.interpolate {s : String} (h : Copied s.toList) (args : List Value) :
    interpolate s args = .ok s := by
  by_cases hs : s = ""
  · refine interpolate_eq_ok.mpr ⟨[], [], ?_, .nil, by simp [hs]⟩
    rw [h.parse, if_pos hs]
  · refine interpolate_eq_ok.mpr ⟨[⟨.start, .text s⟩], [s], ?_, .cons rfl .nil, by simp⟩
    rw [h.parse, if_neg hs]

/-- **Interpolated text is closed.** It is parsed to itself as one text, so nothing in it is a
placeholder, a call or a marker, and interpolating it again changes nothing. -/
theorem interpolate_closed {query out : String} {args : List Value}
    (h : interpolate query args = .ok out) :
    Template.parse out = .ok (if out = "" then [] else [⟨.start, .text out⟩]) ∧
      ∀ args', interpolate out args' = .ok out := by
  obtain ⟨c, texts, hparse, htexts, rfl⟩ := interpolate_eq_ok.mp h
  have hreading := Template.parse_eq_ok_iff.mp hparse
  have hcopied : Copied (String.join texts).toList :=
    copied_join (fun _ hitem _ hs => hreading.copied hitem hs) htexts
  exact ⟨hcopied.parse, hcopied.interpolate⟩

/-- The literals of a text and of some bytes touch the quotes of the query. -/
theorem interpolate_closed_sample :
    let query := "SELECT 'a'$1'b' || $2, '#$9', $$1, $3"
    let args := [.text "'; $1 #c1 ??", .bytes [0x27], .int (-5)]
    let out := "SELECT 'a''''; $1 #c1 ??''b' || '\\x27', '#$9', $$1, -5"
    interpolate query args = .ok out ∧
      Template.parse out = .ok (if out = "" then [] else [⟨.start, .text out⟩]) ∧
        ∀ args', interpolate out args' = .ok out := by
  have hout : interpolate "SELECT 'a'$1'b' || $2, '#$9', $$1, $3"
      [.text "'; $1 #c1 ??", .bytes [0x27], .int (-5)] =
      .ok "SELECT 'a''''; $1 #c1 ??''b' || '\\x27', '#$9', $$1, -5" := by decide +kernel
  exact ⟨hout, interpolate_closed hout⟩

end SqlTemplate
