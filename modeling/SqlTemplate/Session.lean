import SqlTemplate.Error
import SqlTemplate.Output

/-! Sessions. A session holds what the builds into it have in common: the arguments in the
order of their slots, and the style of the placeholders. -/

namespace SqlTemplate

/-- How far the style of a session is settled. -/
inductive StyleChoice
  /-- By the first placeholder to come. -/
  | open
  /-- By a placeholder in the template `origin`. -/
  | inferred (style : Style) (origin : String)
  /-- By the caller; placeholders of either style are rendered in it. -/
  | configured (style : Style)
deriving DecidableEq, Repr

structure Session where
  args : List Value := []
  choice : StyleChoice := .open

namespace StyleChoice

def style : StyleChoice → Option Style
  | .open => none
  | .inferred style _ => some style
  | .configured style => some style

/-- The choice of a caller; no style leaves it to the first placeholder. -/
def ofStyle : Option Style → StyleChoice
  | none => .open
  | some style => .configured style

/-- The style in which a placeholder of style `marker` in the template `raw` is rendered. -/
def observe (marker : Style) (raw : String) : StyleChoice → Except Cause (Style × StyleChoice)
  | .open => .ok (marker, .inferred marker raw)
  | .configured style => .ok (style, .configured style)
  | .inferred style origin =>
    if style = marker then .ok (style, .inferred style origin)
    else .error (.mixedStyles (.template origin) (.template raw))

end StyleChoice

namespace Session

/-- An empty session in a configured style. -/
def ofStyle (style : Option Style) : Session := { choice := .ofStyle style }

def style (s : Session) : Option Style := s.choice.style

/-- The session with the style settled anew. -/
def withStyle (s : Session) (style : Option Style) : Session :=
  { s with choice := .ofStyle style }

end Session

/-- A computation that renders into a session. What it appended stays when it fails. -/
abbrev RenderM := EStateM Error Session

/-- Fail with a cause. -/
def fail {σ α : Type} (cause : Cause) : EStateM Error σ α :=
  throw (.ofCause cause)

/-- Errors leave the build of the template `raw`. -/
def within {σ α : Type} (raw : String) (x : EStateM Error σ α) : EStateM Error σ α := fun s =>
  match x s with
  | .ok a s => .ok a s
  | .error e s => .error (e.within raw) s

/-- The outcome of a check, without an effect. -/
def liftCause {σ α : Type} : Except Cause α → EStateM Error σ α
  | .ok a => pure a
  | .error cause => fail cause

namespace RenderM

/-- Give the next slot to a value. -/
def append (v : Value) : RenderM Nat := do
  let s ← get
  set { s with args := s.args ++ [v] }
  return s.args.length + 1

/-- Settle the style in which a placeholder is rendered. -/
def observe (marker : Style) (raw : String) : RenderM Style := do
  let s ← get
  let (style, choice) ← liftCause (s.choice.observe marker raw)
  set { s with choice }
  return style

end RenderM

end SqlTemplate
