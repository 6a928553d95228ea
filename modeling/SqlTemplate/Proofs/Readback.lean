import SqlTemplate.Proofs.Alignment
import SqlTemplate.Proofs.Inlining
import SqlTemplate.Proofs.Numbering
import SqlTemplate.Proofs.Verbatim

/-!
# Reading a query back

A query is flat text: where a placeholder ends is told by what comes next. Nothing is
put between a placeholder and its neighbours, so a digit behind a number is read as
part of it, and a `?` behind a `?` as its escape. Where the output keeps them apart
(`Output.Apart`), and only there, a parse of the query finds the placeholders that
were written, and interpolation puts every argument where it belongs.
-/

namespace SqlTemplate

open Number Render

namespace Template

def Expr.isText : Expr → Bool
  | .text _ => true
  | _ => false

/-- The expressions of a clause that are no text. -/
def Clause.references (c : Clause) : List Expr := c.exprs.filter fun expr => !expr.isText

@[simp] theorem Clause.references_nil : Clause.references [] = [] := rfl

theorem Clause.references_cons (item : Item) (c : Clause) :
    Clause.references (item :: c) =
      if item.expr.isText then c.references else item.expr :: c.references := by
  simp only [Clause.references, Clause.exprs, List.map_cons, List.filter_cons]
  cases item.expr.isText <;> rfl

/-- The clause gives the text with these arguments. -/
def Clause.Gives (args : List Value) (c : Clause) (cs : List Char) : Prop :=
  ∃ texts, List.Forall₂ (fun item text => interpolateItem args item = .ok text) c texts ∧
    cs = (String.join texts).toList

namespace Clause.Gives

variable {args : List Value} {item : Item} {c : Clause} {cs : List Char}

theorem nil : Clause.Gives args [] [] := ⟨[], .nil, by simp⟩

theorem cons {text : String} (hitem : interpolateItem args item = .ok text)
    (h : c.Gives args cs) : Clause.Gives args (item :: c) (text.toList ++ cs) := by
  obtain ⟨texts, htexts, rfl⟩ := h
  exact ⟨text :: texts, .cons hitem htexts, by simp⟩

theorem exists_cons (h : Clause.Gives args (item :: c) cs) :
    ∃ text cs', interpolateItem args item = .ok text ∧ c.Gives args cs' ∧
      cs = text.toList ++ cs' := by
  obtain ⟨texts, htexts, rfl⟩ := h
  obtain ⟨text, texts', hitem, htexts', rfl⟩ := List.forall₂_cons_left_iff.mp htexts
  exact ⟨text, _, hitem, ⟨texts', htexts', rfl⟩, by simp⟩

end Clause.Gives

/-! ## A character more -/

theorem verbatim_cons_of_isPlain {c : Char} (hc : isPlain c = true) (cs : List Char) :
    verbatim none (c :: cs) = (c :: (verbatim none cs).1, (verbatim none cs).2) := by
  obtain ⟨hmarker, hhash, hquote⟩ := isPlain_iff.mp hc
  simp [verbatim_cons hmarker hhash, hquote]

/-- A plain character in front becomes part of the text that comes first. -/
theorem Reading.cons_plain {style? : Option Style} {count : Nat} {p : Position}
    {ch : Char} {cs : List Char} {c : Clause} (hch : isPlain ch = true)
    (h : Reading style? count (p.next ch) cs c) :
    ∃ c', Reading style? count p (ch :: cs) c' ∧ c'.references = c.references ∧
      ∀ args out, c.Gives args out → c'.Gives args (ch :: out) := by
  have hverbatim := verbatim_cons_of_isPlain hch cs
  by_cases hrun : (verbatim none cs).1 = []
  · -- The character stands in front of a reference, as a text of its own.
    have hv : verbatim none (ch :: cs) = ([ch], cs, none) := by
      rw [hverbatim, stops_of_fst_eq_nil hrun]
    have hreading : Reading style? count p (ch :: cs) _ :=
      .text (by simp [hv]) (by simp [hv]) (by simpa [hv] using h)
    refine ⟨_, hreading, by simp [Clause.references_cons, Expr.isText], fun args out hout => ?_⟩
    have hitem : interpolateItem args ⟨p, .text (String.ofList [ch])⟩ =
        .ok (String.ofList [ch]) := rfl
    simpa [hv] using hout.cons hitem
  · cases h with
    | text hne hclosed h =>
        have hreading : Reading style? count p (ch :: cs) _ :=
          .text (by simp [hverbatim]) (by simp [hverbatim, hclosed])
            (by simpa [hverbatim] using h)
        refine ⟨_, hreading, by simp [Clause.references_cons, Expr.isText], fun args out hout => ?_⟩
        obtain ⟨_, out', ⟨⟩, hout', rfl⟩ := hout.exists_cons
        have hitem : interpolateItem args ⟨p, .text (String.ofList (ch :: (verbatim none cs).1))⟩ =
            .ok (String.ofList (ch :: (verbatim none cs).1)) := rfl
        simpa [hverbatim] using hout'.cons hitem
    | nil => exact absurd rfl hrun
    | positional _ hsign =>
        exact absurd (congrArg Prod.fst (stops_sign .positional hsign)) hrun
    | @indexed _ _ _ n rest =>
        exact absurd (congrArg Prod.fst (stops_sign .indexed (head?_digits_append n rest))) hrun
    | function => exact absurd (congrArg Prod.fst (stops_hash _)) hrun

/-- Without a plain character in front the same references are read. -/
theorem Reading.of_cons_plain {style? : Option Style} {count : Nat} {p : Position}
    {ch : Char} {cs : List Char} {c : Clause} (hch : isPlain ch = true)
    (h : Reading style? count p (ch :: cs) c) :
    ∃ p' c', Reading style? count p' cs c' ∧ c'.references = c.references := by
  have hverbatim := verbatim_cons_of_isPlain hch cs
  cases h with
  | text hne hclosed h =>
      rw [hverbatim] at hclosed h
      by_cases hrun : (verbatim none cs).1 = []
      · have hstops : verbatim none cs = ([], cs, none) := stops_of_fst_eq_nil hrun
        rw [hstops] at h
        exact ⟨_, _, h, by simp [Clause.references_cons, Expr.isText]⟩
      · exact ⟨p.next ch, _, .text hrun hclosed h,
          by simp [Clause.references_cons, Expr.isText]⟩
  | positional => exact absurd hch (by decide)
  | indexed => exact absurd hch (by decide)
  | function => exact absurd hch (by decide)

theorem isMarker_of_mem_digits {n : Nat} {c : Char} (h : c ∈ digits n) : isMarker c = false :=
  (isPlain_iff.mp (isPlain_of_mem_digits h)).1

theorem countP_isMarker_digits (n : Nat) : (digits n).countP isMarker = 0 :=
  List.countP_eq_zero.mpr fun _ hc => by simp [isMarker_of_mem_digits hc]

/-- Without functions, a reference has a sign of its own. -/
theorem Reading.length_references_le {style? : Option Style} {count : Nat} {p : Position}
    {cs : List Char} {c : Clause} (h : Reading style? count p cs c) (hhash : '#' ∉ cs) :
    c.references.length ≤ cs.countP isMarker := by
  induction h with
  | nil => simp
  | @text _ _ _ cs c hne hclosed h ih =>
      have happ := verbatim_append none cs
      rw [← happ, List.mem_append, not_or] at hhash
      have hrest := ih hhash.2
      rw [← happ, List.countP_append]
      simp only [Clause.references_cons, Expr.isText, if_true]
      omega
  | positional _ _ _ h ih =>
      rw [List.mem_cons, not_or] at hhash
      have hrest := ih hhash.2
      simpa [Clause.references_cons, Expr.isText, isMarker] using hrest
  | indexed _ _ _ _ h ih =>
      rw [List.mem_cons, List.mem_append, not_or, not_or] at hhash
      have hrest := ih hhash.2.2
      simpa [Clause.references_cons, Expr.isText, isMarker, countP_isMarker_digits] using hrest
  | function => simp at hhash

/-- A number that is read whole has no digit behind it. -/
theorem Reading.of_index {style? : Option Style} {count : Nat} {p : Position} {n : Nat}
    {cs : List Char} {c : Clause} (h : Reading style? count p ('$' :: (digits n ++ cs)) c)
    {exprs : List Expr} (hreferences : c.references = .bind .indexed n :: exprs) :
    n < indexLimit ∧ NotFirst Char.isDigit cs ∧
      ∃ p' c', Reading (some .indexed) count p' cs c' ∧ c'.references = exprs := by
  have hstops := congrArg Prod.fst (stops_sign .indexed (head?_digits_append n cs))
  generalize hcs : '$' :: (digits n ++ cs) = all at h
  cases h with
  | nil => cases hcs
  | text hne =>
      rw [← hcs] at hne
      exact absurd hstops hne
  | positional => cases hcs
  | @indexed _ _ _ n' rest c' _ _ hlimit hdigit h =>
      obtain ⟨rfl, hc'⟩ : n' = n ∧ c'.references = exprs := by
        simpa [Clause.references_cons, Expr.isText] using hreferences
      obtain rfl : cs = rest := by simpa using hcs
      exact ⟨hlimit, hdigit, _, _, h, hc'⟩
  | function => cases hcs

/-- Where every sign is a reference, none is doubled. -/
theorem Reading.of_question {style? : Option Style} {count : Nat} {p : Position}
    {cs : List Char} {c : Clause} (h : Reading style? count p ('?' :: cs) c) (hhash : '#' ∉ cs)
    (hlength : c.references.length = ('?' :: cs).countP isMarker) :
    cs.head? ≠ some '?' ∧ (cs.head? = some '0' ∨ NotFirst Char.isDigit cs) ∧
      ∃ p' c', Reading (some .positional) (count + 1) p' cs c' ∧
        c.references = .bind .positional (count + 1) :: c'.references := by
  cases h with
  | text hne hclosed h =>
      -- A text here begins with the sign twice, which leaves too few for the references.
      obtain ⟨ds, rfl⟩ : ∃ ds, cs = '?' :: ds := by
        by_contra hds
        have hhead : cs.head? ≠ some '?' := fun hhead => hds (List.head?_eq_some_iff.mp hhead)
        exact hne (congrArg Prod.fst (stops_sign .positional hhead))
      have hverbatim : verbatim none ('?' :: '?' :: ds) =
          ('?' :: '?' :: (verbatim none ds).1, (verbatim none ds).2) := by
        simp [verbatim, isMarker]
      have happ := verbatim_append none ds
      rw [List.mem_cons, not_or, ← happ, List.mem_append, not_or] at hhash
      rw [hverbatim] at h
      have hle := h.length_references_le hhash.2.2
      rw [← happ] at hlength
      simp only [Clause.references_cons, Expr.isText, if_true, isMarker, List.countP_cons,
        List.countP_append] at hlength hle
      simp at hlength
      omega
  | positional _ hsign hdigit h =>
      exact ⟨hsign, hdigit, _, _, h, by simp [Clause.references_cons, Expr.isText]⟩

end Template

open Template (Clause Expr Reading NotFirst isPlain isMarker)

/-! ## Output -/

namespace Output

/-- The placeholders as they are read behind `count` positional ones: an indexed one by its
slot, a positional one by its place. -/
def binds (count : Nat) : Output → List Expr
  | [] => []
  | .char _ :: o => binds count o
  | .placeholder .indexed slot :: o => .bind .indexed slot :: binds count o
  | .placeholder .positional _ :: o => .bind .positional (count + 1) :: binds (count + 1) o

/-- No placeholder runs into what comes next: behind a number there is no digit, and behind a
`?` there is neither another one nor a number. And every number can be read. -/
def Apart : Output → Prop
  | [] => True
  | .char _ :: o => Apart o
  | .placeholder .indexed slot :: o =>
    slot < indexLimit ∧ NotFirst Char.isDigit (chars o) ∧ Apart o
  | .placeholder .positional _ :: o =>
    (chars o).head? ≠ some '?' ∧ ((chars o).head? = some '0' ∨ NotFirst Char.isDigit (chars o)) ∧
      Apart o

instance {p : Char → Bool} : (cs : List Char) → Decidable (NotFirst p cs)
  | [] => .isTrue fun _ hc => nomatch hc
  | c :: _ => decidable_of_iff (p c = false) (by simp [NotFirst])

instance decidableApart : (o : Output) → Decidable o.Apart
  | [] => .isTrue trivial
  | .char _ :: o => decidableApart o
  | .placeholder .indexed slot :: o =>
    have := decidableApart o
    inferInstanceAs (Decidable (slot < indexLimit ∧ NotFirst Char.isDigit (chars o) ∧ Apart o))
  | .placeholder .positional _ :: o =>
    have := decidableApart o
    inferInstanceAs (Decidable ((chars o).head? ≠ some '?' ∧
      ((chars o).head? = some '0' ∨ NotFirst Char.isDigit (chars o)) ∧ Apart o))

/-- The output with the literals of the arguments in their slots. -/
def inline (args : List Value) (o : Output) : List Char :=
  o.flatMap fun
    | .char c => [c]
    | .placeholder _ slot => ((declaration? args slot).map fun v => v.literal.toList).getD []

end Output

/-- Plain characters and placeholders of one style. -/
inductive Symbol.Fits (st : Style) : Symbol → Prop
  | char {c : Char} (h : isPlain c = true) : Fits st (.char c)
  | placeholder {slot : Nat} (hpos : st = .indexed → 0 < slot) : Fits st (.placeholder st slot)

namespace Output

/-- **Where the placeholders are apart, they are read.** -/
theorem Apart.reading {st : Style} {o : Output} (hapart : o.Apart)
    (hfits : ∀ symbol ∈ o, symbol.Fits st) {style? : Option Style}
    (hstyle : style? = none ∨ style? = some st) (count : Nat) (p : Template.Position) :
    ∃ c, Reading style? count p o.chars c ∧ c.references = o.binds count ∧
      ∀ args, (∀ slot, .placeholder .indexed slot ∈ o → (declaration? args slot).isSome) →
        st = .indexed → c.Gives args (o.inline args) := by
  induction o generalizing style? count p with
  | nil => exact ⟨[], .nil, rfl, fun _ _ _ => .nil⟩
  | cons symbol o ih =>
      rw [List.forall_mem_cons] at hfits
      obtain ⟨hfit, hfits⟩ := hfits
      cases hfit with
      | @char ch hch =>
          obtain ⟨c, hreading, hbinds, hgives⟩ := ih hapart hfits hstyle count (p.next ch)
          obtain ⟨c', hreading', hreferences, hgives'⟩ := hreading.cons_plain hch
          refine ⟨c', hreading', hreferences.trans hbinds, fun args hargs hst => ?_⟩
          have hrest : ∀ slot, .placeholder .indexed slot ∈ o → (declaration? args slot).isSome :=
            fun slot hs => hargs slot (List.mem_cons_of_mem _ hs)
          exact hgives' _ _ (hgives args hrest hst)
      | @placeholder slot hpos =>
          cases st with
          | indexed =>
              obtain ⟨hlimit, hdigit, hapart⟩ := hapart
              obtain ⟨c, hreading, hbinds, hgives⟩ :=
                ih hapart hfits (.inr rfl) count ((p.next '$').after (digits slot))
              refine ⟨_, .indexed hstyle (hpos rfl) hlimit hdigit hreading, ?_, ?_⟩
              · simp [Clause.references_cons, Expr.isText, binds, hbinds]
              · intro args hargs hst
                obtain ⟨v, hv⟩ := Option.isSome_iff_exists.mp (hargs slot (by simp))
                have hitem : interpolateItem args ⟨p, .bind .indexed slot⟩ = .ok v.literal := by
                  have hlookup : (if slot = 0 then none else args[slot - 1]?) = some v := hv
                  simp [interpolateItem, hlookup]
                have htail := hgives args
                  (fun slot hs => hargs slot (List.mem_cons_of_mem _ hs)) hst
                simpa [inline, hv] using htail.cons hitem
          | positional =>
              obtain ⟨hsign, hdigit, hapart⟩ := hapart
              obtain ⟨c, hreading, hbinds, _⟩ :=
                ih hapart hfits (.inr rfl) (count + 1) (p.next '?')
              refine ⟨_, .positional hstyle hsign hdigit hreading, ?_, fun _ _ hst => nomatch hst⟩
              simp [Clause.references_cons, Expr.isText, binds, hbinds]

theorem hash_not_mem {st : Style} {o : Output} (hfits : ∀ symbol ∈ o, symbol.Fits st) :
    '#' ∉ o.chars := by
  intro hmem
  obtain ⟨symbol, hsymbol, hchar⟩ := List.mem_flatMap.mp hmem
  cases hfits symbol hsymbol with
  | char hch =>
      obtain rfl := List.mem_singleton.mp hchar
      exact absurd hch (by decide)
  | placeholder =>
      cases st with
      | positional => simp [Symbol.chars] at hchar
      | indexed =>
          rcases List.mem_cons.mp hchar with hchar | hchar
          · exact absurd hchar (by decide)
          · exact absurd (isPlain_of_mem_digits hchar) (by decide)

theorem countP_isMarker {st : Style} {o : Output} (hfits : ∀ symbol ∈ o, symbol.Fits st)
    (count : Nat) : o.chars.countP isMarker = (o.binds count).length := by
  induction o generalizing count with
  | nil => rfl
  | cons symbol o ih =>
      rw [List.forall_mem_cons] at hfits
      have hsplit : chars (symbol :: o) = symbol.chars ++ chars o := rfl
      rw [hsplit, List.countP_append]
      cases hfits.1 with
      | char hch => simp [Symbol.chars, (Template.isPlain_iff.mp hch).1, binds, ih hfits.2 count]
      | placeholder =>
          cases st with
          | indexed =>
              simp [Symbol.chars, isMarker, Template.countP_isMarker_digits, binds,
                ih hfits.2 count, Nat.add_comm]
          | positional =>
              simp [Symbol.chars, isMarker, binds, ih hfits.2 (count + 1), Nat.add_comm]

/-- **And where they are read, they are apart.** -/
theorem apart_of_reading {st : Style} {o : Output} (hfits : ∀ symbol ∈ o, symbol.Fits st)
    {style? : Option Style} {count : Nat} {p : Template.Position} {c : Clause}
    (h : Reading style? count p o.chars c) (hbinds : c.references = o.binds count) :
    o.Apart := by
  induction o generalizing style? count p c with
  | nil => trivial
  | cons symbol o ih =>
      have hall := hfits
      rw [List.forall_mem_cons] at hfits
      obtain ⟨hfit, hfits⟩ := hfits
      cases hfit with
      | @char ch hch =>
          obtain ⟨p', c', hreading, hreferences⟩ := Reading.of_cons_plain hch h
          exact ih hfits hreading (hreferences.trans hbinds)
      | @placeholder slot hpos =>
          cases st with
          | indexed =>
              obtain ⟨hlimit, hdigit, p', c', hreading, hreferences⟩ := Reading.of_index h hbinds
              exact ⟨hlimit, hdigit, ih hfits hreading hreferences⟩
          | positional =>
              obtain ⟨hsign, hdigit, p', c', hreading, hreferences⟩ :=
                Reading.of_question h (hash_not_mem hfits)
                  (by rw [hbinds, ← countP_isMarker hall count]; rfl)
              rw [hreferences] at hbinds
              exact ⟨hsign, hdigit, ih hfits hreading (List.tail_eq_of_cons_eq hbinds)⟩

/-- **A query is parsed to the placeholders of its output exactly if these are apart.** -/
theorem parse_text_iff {st : Style} {o : Output} (hfits : ∀ symbol ∈ o, symbol.Fits st) :
    (∃ c, Template.parse o.text = .ok c ∧ c.references = o.binds 0) ↔ o.Apart := by
  have hchars : o.text.toList = o.chars := String.toList_ofList
  simp only [Template.parse_eq_ok_iff, hchars]
  constructor
  · rintro ⟨c, hreading, hreferences⟩
    exact apart_of_reading hfits hreading hreferences
  · intro hapart
    obtain ⟨c, hreading, hreferences, _⟩ := hapart.reading hfits (.inl rfl) 0 .start
    exact ⟨c, hreading, hreferences⟩

/-- Every placeholder that is apart is interpolated with the argument in its slot. -/
theorem Apart.interpolate {o : Output} (hapart : o.Apart)
    (hfits : ∀ symbol ∈ o, symbol.Fits .indexed) {args : List Value}
    (hargs : ∀ slot, .placeholder .indexed slot ∈ o → (declaration? args slot).isSome) :
    interpolate o.text args = .ok (String.ofList (o.inline args)) := by
  have hchars : o.text.toList = o.chars := String.toList_ofList
  obtain ⟨c, hreading, _, hgives⟩ := hapart.reading hfits (.inl rfl) 0 .start
  obtain ⟨texts, htexts, hinline⟩ := hgives args hargs rfl
  rw [← hchars] at hreading
  refine interpolate_eq_ok.mpr ⟨c, texts, Template.parse_eq_ok_iff.mpr hreading, htexts, ?_⟩
  rw [hinline, String.ofList_toList]

end Output

/-! ## Expansions -/

/-- The expansion with a literal in the place of every argument. -/
def Expansion.inline (value : Site → Option Value) (e : Expansion) : List Char :=
  e.flatMap fun
    | .char c => [c]
    | .argument site => ((value site).map fun v => v.literal.toList).getD []

/-- Output that shows an expansion of plain characters has plain characters. -/
theorem Output.Shows.fits {M : Style → Nat → Site → Prop} {st : Style} {o : Output}
    {e : Expansion} (h : o.Shows M e) (hplain : ∀ c, .char c ∈ e → isPlain c = true)
    (hM : ∀ st' slot site, M st' slot site → st' = st ∧ (st = .indexed → 0 < slot)) :
    ∀ symbol ∈ o, symbol.Fits st := by
  induction h with
  | nil => simp
  | cons hpiece _ ih =>
      rw [List.forall_mem_cons]
      refine ⟨?_, ih fun c hc => hplain c (List.mem_cons_of_mem _ hc)⟩
      cases hpiece with
      | char c => exact .char (hplain c (List.mem_cons_self ..))
      | placeholder hm =>
          obtain ⟨rfl, hpos⟩ := hM _ _ _ hm
          exact .placeholder hpos

/-- The slot of a site holds its value. -/
theorem Expansion.declaration?_number {e : Expansion} (base : List Value) {vs : List Value}
    {value : Site → Option Value} (hvs : vs.map some = e.firstSites.map value) {site : Site}
    (hsite : site ∈ e.sites) :
    ∃ v, value site = some v ∧
      declaration? (base ++ vs) (base.length + (e.firstSites.idxOf site + 1)) = some v := by
  have hi : e.firstSites.idxOf site < e.firstSites.length :=
    List.idxOf_lt_length_of_mem (List.mem_eraseDups.mpr hsite)
  have hlookup : (vs.map some)[e.firstSites.idxOf site]? = some (value site) := by
    rw [hvs, List.getElem?_map, List.getElem?_eq_getElem hi, List.getElem_idxOf hi]
    rfl
  rw [List.getElem?_map] at hlookup
  obtain ⟨v, hv, hvalue⟩ := Option.map_eq_some_iff.mp hlookup
  refine ⟨v, hvalue.symm, ?_⟩
  have hindex : base.length + (e.firstSites.idxOf site + 1) - 1 =
      base.length + e.firstSites.idxOf site := by omega
  rw [declaration?, if_neg (by omega), hindex, List.getElem?_append_right (by omega),
    Nat.add_sub_cancel_left, hv]

theorem Expansion.mem_sites {e : Expansion} {site : Site} :
    site ∈ e.sites ↔ .argument site ∈ e := by
  constructor
  · intro h
    obtain ⟨piece, hpiece, hsite⟩ := List.mem_filterMap.mp h
    cases piece with
    | char c => cases hsite
    | argument site' =>
        cases hsite
        exact hpiece
  · intro h
    exact List.mem_filterMap.mpr ⟨_, h, rfl⟩

/-- Numbered output with the arguments in their slots is the expansion with the values of its
sites. -/
theorem Expansion.inline_number {e : Expansion} {base vs : List Value}
    {value : Site → Option Value} (hvs : vs.map some = e.firstSites.map value) :
    (e.number base.length).inline (base ++ vs) = e.inline value := by
  rw [Output.inline, number, write, List.flatMap_map, inline]
  refine List.flatMap_congr fun piece hpiece => ?_
  cases piece with
  | char c => rfl
  | argument site =>
      obtain ⟨v, hvalue, hslot⟩ := declaration?_number base hvs (mem_sites.mpr hpiece)
      simp [hvalue, hslot]

theorem Expansion.isSome_of_mem_number {e : Expansion} {base vs : List Value}
    {value : Site → Option Value} (hvs : vs.map some = e.firstSites.map value) {st : Style}
    {slot : Nat} (hslot : .placeholder st slot ∈ e.number base.length) :
    (declaration? (base ++ vs) slot).isSome := by
  obtain ⟨piece, hpiece, heq⟩ := List.mem_map.mp hslot
  cases piece with
  | char c => cases heq
  | argument site =>
      cases heq
      obtain ⟨v, _, hv⟩ := declaration?_number base hvs (mem_sites.mpr hpiece)
      rw [hv]
      rfl

theorem Segment.isPlain_of_expand {seg : Segment} {e : Expansion} (he : seg.expand = some e)
    (hplain : ∀ t ∈ seg.texts, ∀ c ∈ t.toList, isPlain c = true) :
    ∀ c, .char c ∈ e → isPlain c = true := by
  intro c hc
  by_contra hspecial
  have hblank : c ≠ ' ' := by
    rintro rfl
    exact hspecial rfl
  exact seg.avoids_of_expand hblank he (fun t ht hmem => hspecial (hplain t ht c hmem)) hc

theorem Segment.exists_fits {seg : Segment} {s s' : Session} {out : Output}
    (hplain : ∀ t ∈ seg.texts, ∀ c ∈ t.toList, isPlain c = true)
    (h : seg.render .standard s = .ok out s') :
    ∃ st, (s'.style ≠ some .positional → st = .indexed) ∧ ∀ symbol ∈ out, symbol.Fits st := by
  by_cases hstyle : s'.style = some .positional
  · obtain ⟨e, _, he, hshows, _⟩ := seg.render_emits h
      fun st hst => Option.some.inj (hst.symm.trans hstyle)
    refine ⟨.positional, fun hne => absurd hstyle hne,
      hshows.fits (isPlain_of_expand he hplain) ?_⟩
    intro st' _ _ hst'
    exact ⟨hst', fun hst => nomatch hst⟩
  · have hopen : s'.OpenTo .indexed := by
      intro st hst
      cases st with
      | indexed => rfl
      | positional => exact absurd hst hstyle
    obtain ⟨e, _, he, hshows, _⟩ := seg.render_numbers h hopen
    refine ⟨.indexed, fun _ => rfl, hshows.fits (isPlain_of_expand he hplain) ?_⟩
    rintro st' slot _ ⟨rfl, _, rfl⟩
    exact ⟨rfl, fun _ => by omega⟩

/-- **A query reads back exactly if its placeholders are apart.** Where a tree writes no sign and
no quote, the query is parsed to the placeholders that were written, and to nothing else but
text, exactly if none of them runs into what comes next. An indexed query whose placeholders are
apart is interpolated to its full expansion with the literal of the right argument at each
place. -/
theorem Segment.render_reads_back {registry : Registry} (hr : registry.HasBuiltins)
    {seg : Segment} (hb : seg.UsesBuiltins)
    (hplain : ∀ t ∈ seg.texts, ∀ c ∈ t.toList, isPlain c = true) {s s' : Session} {out : Output}
    (h : seg.render registry s = .ok out s') :
    ((∃ c, Template.parse out.text = .ok c ∧ c.references = out.binds 0) ↔ out.Apart) ∧
      (out.Apart → s'.style ≠ some .positional →
        ∃ e, seg.expand = some e ∧ out = e.number s.args.length ∧
          (∀ site ∈ e.sites, (seg.argument? site).isSome) ∧
          interpolate out.text s'.args = .ok (String.ofList (e.inline seg.argument?))) := by
  have hstandard := h
  rw [render_eq_standard hr hb] at hstandard
  obtain ⟨st, hindexed, hfits⟩ := exists_fits hplain hstandard
  refine ⟨Output.parse_text_iff hfits, fun hapart hstyle => ?_⟩
  obtain rfl := hindexed hstyle
  obtain ⟨e, vs, he, rfl, hargs, hvs⟩ := render_indexed hr hb h (.inr hstyle)
  refine ⟨e, he, rfl, fun site hsite => ?_, ?_⟩
  · obtain ⟨v, hv, _⟩ := Expansion.declaration?_number s.args hvs hsite
    rw [hv]
    rfl
  · rw [hargs, hapart.interpolate hfits fun slot hslot => Expansion.isSome_of_mem_number hvs hslot,
      Expansion.inline_number hvs]

namespace Segment

theorem isPlain_of_check {seg : Segment} (h : seg.texts.all fun t => t.toList.all isPlain) :
    ∀ t ∈ seg.texts, ∀ c ∈ t.toList, isPlain c = true :=
  fun t ht => List.all_eq_true.mp (List.all_eq_true.mp h t ht)

/-- A join of arguments, and a child with an argument of its own that is referred to twice. -/
def readbackSample : Segment where
  raw := "a IN (#join('#$', ', ')) AND (#s1 OR #s1)"
  args := [.text "it's $2", .int 2]
  segments := [{ raw := "b > $1", args := [.null] }]

theorem render_reads_back_sample : ∃ out s' c,
    readbackSample.render .standard {} = .ok out s' ∧
    out.text = "a IN ($1, $2) AND (b > $3 OR b > $3)" ∧ out.Apart ∧
    Template.parse out.text = .ok c ∧ c.references = out.binds 0 ∧
    interpolate out.text s'.args = .ok "a IN ('it''s $2', 2) AND (b > NULL OR b > NULL)" := by
  obtain ⟨out, s', h, hcheck⟩ := exists_ok_of_check (x := readbackSample.render .standard)
    (s := {})
    (fun out s' => decide (out.text = "a IN ($1, $2) AND (b > $3 OR b > $3)" ∧ out.Apart ∧
      s'.style ≠ some .positional))
    (by decide +kernel)
  obtain ⟨htext, hapart, hstyle⟩ := of_decide_eq_true hcheck
  obtain ⟨hparse, hinline⟩ := render_reads_back Registry.hasBuiltins_standard
    (usesBuiltins_of_check 2 (by decide +kernel)) (isPlain_of_check (by decide +kernel)) h
  obtain ⟨c, hc, hreferences⟩ := hparse.mpr hapart
  obtain ⟨e, he, _, _, hinterpolate⟩ := hinline hapart hstyle
  have hliterals : (readbackSample.expand.map fun e =>
      String.ofList (e.inline readbackSample.argument?)) =
      some "a IN ('it''s $2', 2) AND (b > NULL OR b > NULL)" := by decide +kernel
  rw [he, Option.map_some, Option.some_inj] at hliterals
  rw [hliterals] at hinterpolate
  exact ⟨out, s', c, h, htext, hapart, hc, hreferences, hinterpolate⟩

/-- A placeholder with a digit behind it. -/
def meetingSample : Segment where
  raw := "#$(1)5"
  args := [.int 7]

/-- The query has another placeholder than the one that was written, and no argument for it. -/
theorem render_meetingSample : meetingSample.UsesBuiltins ∧
    (∀ t ∈ meetingSample.texts, ∀ c ∈ t.toList, isPlain c = true) ∧
    ∃ out s', meetingSample.render .standard {} = .ok out s' ∧ out.text = "$15" ∧
      out.binds 0 = [.bind .indexed 1] ∧
      (Template.parse out.text).toOption.map Clause.references = some [.bind .indexed 15] ∧
      (interpolate out.text s'.args).toOption = none := by
  refine ⟨usesBuiltins_of_check 1 (by decide +kernel), isPlain_of_check (by decide +kernel), ?_⟩
  obtain ⟨out, s', h, hcheck⟩ := exists_ok_of_check (x := meetingSample.render .standard)
    (s := {})
    (fun out s' => decide (out.text = "$15" ∧ out.binds 0 = [.bind .indexed 1] ∧
      (Template.parse out.text).toOption.map Clause.references = some [.bind .indexed 15] ∧
      (interpolate out.text s'.args).toOption = none))
    (by decide +kernel)
  exact ⟨out, s', h, of_decide_eq_true hcheck⟩

end Segment

end SqlTemplate
