import SqlTemplate.Log
import SqlTemplate.Proofs.Spans

/-!
# Cut texts

Where a long text is cut, the search for a place between characters goes back from the
limit, byte by byte. What it keeps is what whole characters taken one by one from the
beginning give as long as they fit (`toList_cut`). So nothing longer fits, and the
search is over after three bytes at most (`shorten_longest`).
-/

namespace SqlTemplate

namespace Text

open Template (Position)

/-! ## Whole characters -/

/-- The characters that are taken are the longest prefix that fits. -/
theorem takeBytes_longest (budget : Nat) (cs : List Char) :
    takeBytes budget cs <+: cs ∧ byteLength (takeBytes budget cs) ≤ budget ∧
      ∀ p, p <+: cs → byteLength p ≤ budget → p <+: takeBytes budget cs := by
  induction cs generalizing budget with
  | nil => exact ⟨List.prefix_rfl, Nat.zero_le _, fun p hp _ => hp⟩
  | cons c cs ih =>
      rw [takeBytes]
      split
      case isTrue hfits =>
        obtain ⟨hbegins, hlength, hlongest⟩ := ih (budget - c.utf8Size)
        refine ⟨List.cons_prefix_cons.mpr ⟨rfl, hbegins⟩, ?_, ?_⟩
        · rw [byteLength_cons]
          omega
        · intro p hp hbudget
          cases p with
          | nil => exact List.nil_prefix
          | cons d p =>
              obtain ⟨rfl, hrest⟩ := List.cons_prefix_cons.mp hp
              rw [byteLength_cons] at hbudget
              exact List.cons_prefix_cons.mpr ⟨rfl, hlongest p hrest (by omega)⟩
      case isFalse hfits =>
        refine ⟨?_, Nat.zero_le _, ?_⟩
        · exact List.nil_prefix
        · intro p hp hbudget
          cases p with
          | nil => exact List.prefix_rfl
          | cons d p =>
              obtain ⟨rfl, -⟩ := List.cons_prefix_cons.mp hp
              rw [byteLength_cons] at hbudget
              omega

/-- Where a text does not fit, the next character is too much. -/
theorem exists_next_of_lt {budget : Nat} {cs : List Char} (h : budget < byteLength cs) :
    ∃ c rest, cs = takeBytes budget cs ++ c :: rest ∧
      budget < byteLength (takeBytes budget cs ++ [c]) := by
  obtain ⟨⟨rest, hrest⟩, hfits, hlongest⟩ := takeBytes_longest budget cs
  cases rest with
  | nil =>
      rw [List.append_nil] at hrest
      rw [hrest] at hfits
      omega
  | cons c rest =>
      refine ⟨c, rest, hrest.symm, Nat.lt_of_not_le fun hle => ?_⟩
      have hlonger : takeBytes budget cs ++ [c] <+: cs := ⟨rest, by simpa using hrest⟩
      have hlength := (hlongest _ hlonger hle).length_le
      rw [List.length_append, List.length_singleton] at hlength
      omega

theorem eq_of_prefix_of_byteLength_le {cs ds : List Char} (h : cs <+: ds)
    (hle : byteLength ds ≤ byteLength cs) : cs = ds := by
  obtain ⟨rest, rfl⟩ := h
  cases rest with
  | nil => rw [List.append_nil]
  | cons c rest =>
      have hpos := c.utf8Size_pos
      rw [byteLength_append, byteLength_cons] at hle
      omega

theorem byteLength_toList (s : String) : byteLength s.toList = s.utf8ByteSize := by
  rw [Position.byteLength_eq, String.ofList_toList]

/-! ## The search from the limit -/

variable {s : String} {n : Nat}

theorem offset_lastPos_le (s : String) (n : Nat) : (lastPos s n).offset.byteIdx ≤ n := by
  induction n with
  | zero => exact Nat.le_refl 0
  | succ n ih =>
      rw [lastPos]
      split
      · exact Nat.le_refl _
      · exact Nat.le_succ_of_le ih

/-- The search passes over no place between characters. -/
theorem le_offset_lastPos {p : s.Pos} (h : p.offset.byteIdx ≤ n) :
    p.offset.byteIdx ≤ (lastPos s n).offset.byteIdx := by
  induction n with
  | zero =>
      rw [Nat.le_zero.mp h]
      exact Nat.zero_le _
  | succ n ih =>
      rw [lastPos]
      split
      · exact h
      · rename_i hinside
        have hne : p.offset.byteIdx ≠ n + 1 := by
          intro hp
          exact hinside (hp ▸ p.isValid)
        exact ih (by omega)

/-- **Searching back from the limit is the same as taking characters as long as they fit.** -/
theorem toList_cut (budget : Nat) (s : String) :
    (cut budget s).toList = takeBytes budget s.toList := by
  obtain ⟨hbegins, hfits, hlongest⟩ := takeBytes_longest budget s.toList
  rw [cut]
  split
  · rename_i hall
    rw [← byteLength_toList] at hall
    exact (hlongest _ List.prefix_rfl hall).eq_of_length_le hbegins.length_le
  · have hsplits := (lastPos s budget).splits
    generalize (s.sliceTo (lastPos s budget)).copy = kept at hsplits ⊢
    have hoffset : (lastPos s budget).offset.byteIdx = byteLength kept.toList := by
      rw [hsplits.offset_eq_rawEndPos, byteLength_toList]
      rfl
    have hkept : kept.toList <+: takeBytes budget s.toList := by
      refine hlongest _ ?_ (hoffset ▸ offset_lastPos_le s budget)
      rw [hsplits.eq_append, String.toList_append]
      exact List.prefix_append ..
    -- The characters taken end at a place between characters, which the search does not miss.
    have htaken : byteLength (takeBytes budget s.toList) ≤ byteLength kept.toList := by
      obtain ⟨rest, hrest⟩ := hbegins
      have hs : s = String.ofList (takeBytes budget s.toList) ++ String.ofList rest := by
        rw [← String.ofList_append, hrest, String.ofList_toList]
      have hvalid := String.Pos.Raw.isValid_iff_exists_append.mpr ⟨_, _, hs, rfl⟩
      rw [Position.byteLength_eq] at hfits ⊢
      rw [← hoffset]
      exact le_offset_lastPos (p := ⟨_, hvalid⟩) hfits
    exact eq_of_prefix_of_byteLength_le hkept htaken

end Text

namespace Logger

/-- **What is logged of a text is the longest prefix of whole characters within the limit.** A
text that fits is logged as it is. What is kept of any other is followed by `...`, and with its
next character it would exceed the limit. The search for the cut ends right behind what is
kept, at a place between characters and at most three bytes before the limit. -/
theorem shorten_longest (level : Level) (max : Nat) (text : String) :
    (text.utf8ByteSize ≤ max →
      Logger.shorten ⟨level, some max⟩ text = text ∧ Text.cut max text = text) ∧
    (max < text.utf8ByteSize → ∃ kept c rest,
      Logger.shorten ⟨level, some max⟩ text = kept ++ "..." ∧ Text.cut max text = kept ∧
        text = kept ++ String.singleton c ++ rest ∧ kept.utf8ByteSize ≤ max ∧
        max < (kept ++ String.singleton c).utf8ByteSize ∧
        (Text.lastPos text max).offset = kept.rawEndPos ∧ max ≤ kept.utf8ByteSize + 3) := by
  constructor
  · intro h
    exact ⟨if_pos h, if_pos h⟩
  · intro h
    have hcut : Text.cut max text = (text.sliceTo (Text.lastPos text max)).copy :=
      if_neg (Nat.not_le.mpr h)
    have hshorten : Logger.shorten ⟨level, some max⟩ text = Text.cut max text ++ "..." :=
      if_neg (Nat.not_le.mpr h)
    rw [← Text.byteLength_toList] at h
    obtain ⟨c, rest, htext, hnext⟩ := Text.exists_next_of_lt h
    obtain ⟨-, hfits, -⟩ := Text.takeBytes_longest max text.toList
    rw [← Text.toList_cut] at htext hnext hfits
    rw [Text.byteLength_toList] at hfits
    refine ⟨Text.cut max text, c, String.ofList rest, hshorten, rfl, ?_, hfits, ?_, ?_, ?_⟩
    · rw [← String.toList_inj, htext]
      simp
    · rw [← Text.byteLength_toList, String.toList_append, String.toList_singleton]
      exact hnext
    · rw [hcut]
      exact (Text.lastPos text max).splits.offset_eq_rawEndPos
    · have hsize := c.utf8Size_le_four
      rw [Text.byteLength_append, Text.byteLength_toList, Text.byteLength_cons,
        Text.byteLength_nil] at hnext
      omega

/-- Characters of one to four bytes, with limits at the beginning, inside them and at the end. -/
theorem shorten_longest_sample :
    [0, 2, 5, 9, 10].map (fun max => Logger.shorten ⟨.debug, some max⟩ "aé€😀") =
      ["...", "a...", "aé...", "aé€...", "aé€😀"] ∧
    9 < "aé€😀".utf8ByteSize ∧
    (∃ kept c rest, Logger.shorten ⟨.debug, some 9⟩ "aé€😀" = kept ++ "..." ∧
      "aé€😀" = kept ++ String.singleton c ++ rest ∧ kept.utf8ByteSize ≤ 9 ∧
      9 < (kept ++ String.singleton c).utf8ByteSize) ∧
    "aé€😀".utf8ByteSize ≤ 10 ∧ Text.cut 10 "aé€😀" = "aé€😀" := by
  have hlong : 9 < "aé€😀".utf8ByteSize := by decide
  have hshort : "aé€😀".utf8ByteSize ≤ 10 := by decide
  obtain ⟨kept, c, rest, hshorten, -, htext, hfits, hnext, -⟩ :=
    (shorten_longest .debug 9 "aé€😀").2 hlong
  refine ⟨by decide, hlong, ⟨kept, c, rest, hshorten, htext, hfits, hnext⟩, hshort, ?_⟩
  exact ((shorten_longest .debug 10 "aé€😀").1 hshort).2

end Logger

end SqlTemplate
