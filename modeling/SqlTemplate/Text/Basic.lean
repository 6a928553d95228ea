/-! Blanks, quotes and lengths of text.

* The blanks are the 25 characters with the Unicode property `White_Space`. Trimming is stated
  for lists of any type, so that it serves plain text and rendered output alike.
* Inside a quoted text the quote character is written twice: `collapse` undoes the doubling and
  `enclose` adds the outer pair.
* A text is cut to a budget of UTF-8 bytes. What is kept is the longest prefix of whole characters
  that fits, so no character is ever split. -/

namespace SqlTemplate.Text

/-! ## Blanks and trimming -/

/-- The character has the Unicode property `White_Space`. -/
def isBlank (c : Char) : Bool :=
  let n := c.toNat
  (9 ≤ n && n ≤ 13) || n == 0x20 || n == 0x85 || n == 0xA0 || n == 0x1680 ||
    (0x2000 ≤ n && n ≤ 0x200A) || n == 0x2028 || n == 0x2029 || n == 0x202F ||
    n == 0x205F || n == 0x3000

/-- Drop the trailing elements that satisfy `p`. -/
def trimEnd {α : Type} (p : α → Bool) (xs : List α) : List α :=
  (xs.reverse.dropWhile p).reverse

/-- Drop the leading and the trailing elements that satisfy `p`. -/
def trim {α : Type} (p : α → Bool) (xs : List α) : List α :=
  trimEnd p (xs.dropWhile p)

@[simp] theorem trimEnd_nil {α : Type} (p : α → Bool) : trimEnd p [] = [] := rfl

@[simp] theorem trim_nil {α : Type} (p : α → Bool) : trim p [] = [] := rfl

theorem length_trimEnd_le {α : Type} (p : α → Bool) (xs : List α) :
    (trimEnd p xs).length ≤ xs.length := by
  have := (List.dropWhile_sublist p (l := xs.reverse)).length_le
  simpa [trimEnd] using this

/-- Nothing is lost at the end but elements that satisfy `p`. -/
theorem trimEnd_append {α : Type} (p : α → Bool) (xs : List α) :
    trimEnd p xs ++ (xs.reverse.takeWhile p).reverse = xs := by
  rw [trimEnd, ← List.reverse_append, List.takeWhile_append_dropWhile, List.reverse_reverse]

theorem trimEnd_prefix {α : Type} (p : α → Bool) (xs : List α) : trimEnd p xs <+: xs :=
  ⟨_, trimEnd_append p xs⟩

theorem trimEnd_cons_ne_nil {α : Type} {p : α → Bool} {x : α} {xs : List α} (h : p x = false) :
    trimEnd p (x :: xs) ≠ [] := by
  intro hnil
  have hlast : ∀ y ∈ x :: xs, p y = true := by
    have := trimEnd_append p (x :: xs)
    rw [hnil, List.nil_append] at this
    intro y hy
    rw [← this, List.mem_reverse] at hy
    exact List.all_eq_true.mp List.all_takeWhile y hy
  simp [hlast x (by simp)] at h

/-! ## Quoting by doubling -/

/-- Write every `q` twice. -/
def double (q : Char) : List Char → List Char
  | [] => []
  | c :: cs => if c = q then q :: q :: double q cs else c :: double q cs

/-- Read every adjacent pair of `q` as one, from left to right. -/
def collapse (q : Char) : List Char → List Char
  | [] => []
  | [c] => [c]
  | c :: d :: cs => if c = q ∧ d = q then q :: collapse q cs else c :: collapse q (d :: cs)

/-- Double every `q` and put the result between two of them. -/
def enclose (q : Char) (cs : List Char) : List Char :=
  q :: (double q cs ++ [q])

/-- An SQL text literal. -/
def literal (s : String) : String :=
  String.ofList (enclose '\'' s.toList)

theorem collapse_double (q : Char) (cs : List Char) : collapse q (double q cs) = cs := by
  induction cs with
  | nil => rfl
  | cons c cs ih =>
    by_cases h : c = q
    · simp [double, collapse, h, ih]
    · cases hd : double q cs with
      | nil => simp_all [double, collapse]
      | cons d ds => simp_all [double, collapse]

theorem length_collapse_le (q : Char) (cs : List Char) :
    (collapse q cs).length ≤ cs.length := by
  fun_induction collapse q cs with
  | case1 => simp
  | case2 => simp
  | case3 c d cs _ ih =>
    simp only [List.length_cons] at ih ⊢
    omega
  | case4 c d cs _ ih =>
    simp only [List.length_cons] at ih ⊢
    omega

/-! ## Cutting -/

/-- The number of bytes of the UTF-8 encoding. -/
def byteLength : List Char → Nat
  | [] => 0
  | c :: cs => c.utf8Size + byteLength cs

/-- The longest prefix of whole characters of at most `budget` bytes. -/
def takeBytes : Nat → List Char → List Char
  | _, [] => []
  | budget, c :: cs =>
    if c.utf8Size ≤ budget then c :: takeBytes (budget - c.utf8Size) cs else []

/-- The last place between characters that is not behind the byte `n`. The search goes back from
there, byte by byte; the beginning of the text is such a place. -/
def lastPos (s : String) : Nat → s.Pos
  | 0 => s.startPos
  | n + 1 => if h : String.Pos.Raw.IsValid s ⟨n + 1⟩ then ⟨⟨n + 1⟩, h⟩ else lastPos s n

/-- The part of the text that fits `budget`. -/
def cut (budget : Nat) (s : String) : String :=
  if s.utf8ByteSize ≤ budget then s else (s.sliceTo (lastPos s budget)).copy

/-- The text itself if it fits `budget`, otherwise the part that fits and `...`. -/
def shorten (budget : Nat) (s : String) : String :=
  if s.utf8ByteSize ≤ budget then s else cut budget s ++ "..."

@[simp] theorem byteLength_nil : byteLength [] = 0 := rfl

@[simp] theorem byteLength_cons (c : Char) (cs : List Char) :
    byteLength (c :: cs) = c.utf8Size + byteLength cs := rfl

theorem byteLength_append (cs ds : List Char) :
    byteLength (cs ++ ds) = byteLength cs + byteLength ds := by
  induction cs with
  | nil => simp
  | cons c cs ih => simp [ih, Nat.add_assoc]

end SqlTemplate.Text
