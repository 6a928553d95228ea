import SqlTemplate.Text.Basic

/-! Positions in a template. The offset counts bytes; line and column count from one, the
column in characters. They are counted in 32 bits and wrap around. -/

namespace SqlTemplate.Template

structure Position where
  offset : Nat
  line : UInt32
  column : UInt32
deriving DecidableEq, Repr

namespace Position

/-- Where every template begins. -/
def start : Position := ⟨0, 1, 1⟩

/-- The position behind a character. -/
def next (p : Position) (c : Char) : Position :=
  if c = '\n' then ⟨p.offset + c.utf8Size, p.line + 1, 1⟩
  else ⟨p.offset + c.utf8Size, p.line, p.column + 1⟩

/-- The position behind a text. -/
def after (p : Position) (cs : List Char) : Position :=
  cs.foldl next p

/-- Line and column; the line zero is nowhere. -/
def describe (p : Position) : String :=
  if p.line = 0 then "<unknown position>"
  else Nat.repr p.line.toNat ++ ":" ++ Nat.repr p.column.toNat

@[simp] theorem after_nil (p : Position) : p.after [] = p := rfl

@[simp] theorem after_cons (p : Position) (c : Char) (cs : List Char) :
    p.after (c :: cs) = (p.next c).after cs := rfl

theorem after_append (p : Position) (cs ds : List Char) :
    p.after (cs ++ ds) = (p.after cs).after ds := by
  simp [after]

theorem next_offset (p : Position) (c : Char) : (p.next c).offset = p.offset + c.utf8Size := by
  unfold next; split <;> rfl

theorem after_offset (p : Position) (cs : List Char) :
    (p.after cs).offset = p.offset + Text.byteLength cs := by
  induction cs generalizing p with
  | nil => rfl
  | cons c cs ih => rw [after_cons, ih, next_offset, Text.byteLength_cons, Nat.add_assoc]

end Position

end SqlTemplate.Template
