import SqlTemplate.Error
import SqlTemplate.Number.Decimal
import SqlTemplate.Template.Clause
import SqlTemplate.Template.Lexer
import SqlTemplate.Text.Basic

/-! Reading a template. The reader takes one item at a time from the tokens; the first
placeholder fixes the style of the others, and positional ones are numbered as they come. The
main statement is `length_arg_lt`: the arguments of a call are shorter than the template. -/

namespace SqlTemplate.Template

open Number

/-- What an argument without quotes may be: a constant or a number. -/
def isConstant (cs : List Char) : Bool :=
  let s := String.ofList cs
  s == "true" || s == "false" || s == "null" || s == "nil" || (numeral? cs).isSome

/-- The text that a quoted lexeme stands for. -/
def unquote : List Char → List Char
  | [] => []
  | q :: cs => Text.collapse q cs.dropLast

/-- The text of an argument. -/
def argument (t : Token) : Except Cause String :=
  match t.kind with
  | .quoted true => .ok (String.ofList (unquote t.lexeme))
  | .digits => .ok (String.ofList t.lexeme)
  | .bare =>
    if isConstant t.lexeme then .ok (String.ofList t.lexeme)
    else .error (.syntaxError t.pos (.badArgument (String.ofList t.lexeme)))
  | .quoted false => .error (.syntaxError t.pos (.badArgument (String.ofList t.lexeme)))
  | kind => .error (.syntaxError t.pos (.missingArgument (some kind)))

/-- Read the arguments of a call, of which there is at least one, up to the closing
parenthesis. `finish` is the end of the template. -/
def takeArguments (finish : Position) :
    List Token → Except Cause (List String × List Token)
  | [] => .error (.syntaxError finish (.missingArgument none))
  | [t] =>
    match argument t with
    | .error e => .error e
    | .ok _ => .error (.syntaxError finish (.missingSeparator none))
  | t :: separator :: rest =>
    match argument t with
    | .error e => .error e
    | .ok arg =>
      match separator.kind with
      | .closeParen => .ok ([arg], rest)
      | .comma =>
        match takeArguments finish rest with
        | .error e => .error e
        | .ok (args, rest) => .ok (arg :: args, rest)
      | kind => .error (.syntaxError separator.pos (.missingSeparator (some kind)))

/-- Read an argument list behind its opening parenthesis. -/
def takeArgumentList (finish : Position) : List Token → Except Cause (List String × List Token)
  | [] => takeArguments finish []
  | t :: rest => if t.kind = .closeParen then .ok ([], rest) else takeArguments finish (t :: rest)

/-- The placeholders read so far: the first of them, and how many are positional. -/
structure Marks where
  first : Option (Style × Position) := none
  positional : Nat := 0

/-- Take note of a placeholder, which must have the style of the first one. -/
def Marks.note (m : Marks) (style : Style) (pos : Position) : Except Cause Marks :=
  let positional := if style = .positional then m.positional + 1 else m.positional
  match m.first with
  | none => .ok ⟨some (style, pos), positional⟩
  | some (s, p) =>
    if s = style then .ok ⟨some (s, p), positional⟩
    else .error (.mixedStyles (.marker s p) (.marker style pos))

/-- Read the index of an indexed placeholder at `pos`. -/
def takeIndex (pos : Position) : List Token → Except Cause (Nat × List Token)
  | [] => .error (.syntaxError pos .missingIndex)
  | t :: rest =>
    if t.kind = .digits then
      if ofDigits t.lexeme < indexLimit then .ok (ofDigits t.lexeme, rest)
      else .error (.syntaxError t.pos (.indexTooLarge (String.ofList t.lexeme)))
    else .error (.syntaxError pos .missingIndex)

/-- Read a function behind its sign. -/
def takeFunction (finish : Position) : List Token → Except Cause (Expr × List Token)
  | [] => .error (.syntaxError finish (.missingName none))
  | t :: rest =>
    if t.kind = .name then
      let name := String.ofList t.lexeme
      match rest with
      | [] => .ok (.marker name, [])
      | u :: tail =>
        match u.kind with
        | .openParen =>
          match takeArgumentList finish tail with
          | .error e => .error e
          | .ok (args, rest) => .ok (.call name args, rest)
        | .digits => .ok (.call name [String.ofList u.lexeme], tail)
        | _ => .ok (.marker name, u :: tail)
    else .error (.syntaxError t.pos (.missingName (some t.kind)))

/-- Read the item that begins with the token `t`. -/
def takeItem (finish : Position) (marks : Marks) (t : Token) (rest : List Token) :
    Except Cause (Item × Marks × List Token) :=
  match t.kind with
  | .text true => .ok (⟨t.pos, .text (String.ofList t.lexeme)⟩, marks, rest)
  | .text false => .error (.syntaxError t.pos .openQuote)
  | .marker style =>
    match marks.note style t.pos with
    | .error e => .error e
    | .ok marks =>
      match style with
      | .positional => .ok (⟨t.pos, .bind .positional marks.positional⟩, marks, rest)
      | .indexed =>
        match takeIndex t.pos rest with
        | .error e => .error e
        | .ok (index, rest) => .ok (⟨t.pos, .bind .indexed index⟩, marks, rest)
  | .hash =>
    match takeFunction finish rest with
    | .error e => .error e
    | .ok (expr, rest) => .ok (⟨t.pos, expr⟩, marks, rest)
  | kind => .error (.syntaxError t.pos (.unexpected kind (String.ofList t.lexeme)))

theorem weight_le_of_suffix {ts us : List Token} (h : us <:+ ts) : weight us ≤ weight ts := by
  obtain ⟨front, rfl⟩ := h
  induction front with
  | nil => simp
  | cons t front ih =>
    rw [List.cons_append, weight_cons]
    omega

theorem length_unquote_le (cs : List Char) : (unquote cs).length ≤ cs.length := by
  cases cs with
  | nil => simp [unquote]
  | cons q cs =>
    have := Text.length_collapse_le q cs.dropLast
    simp only [unquote, List.length_cons, List.length_dropLast] at this ⊢
    omega

theorem length_argument_le {t : Token} {arg : String} (h : argument t = .ok arg) :
    arg.length ≤ t.lexeme.length := by
  unfold argument at h
  split at h
  · cases h
    simpa using length_unquote_le t.lexeme
  · cases h; simp
  · split at h
    · cases h; simp
    · cases h
  · cases h
  · cases h

theorem takeArguments_suffix {finish : Position} {ts rest : List Token} {args : List String}
    (h : takeArguments finish ts = .ok (args, rest)) :
    rest <:+ ts ∧ ∀ arg ∈ args, arg.length ≤ weight ts := by
  fun_induction takeArguments finish ts generalizing args with
  | case1 => cases h
  | case2 => cases h
  | case3 => cases h
  | case4 => cases h
  | case5 t separator tail arg harg _ =>
    cases h
    have := length_argument_le harg
    refine ⟨⟨[t, separator], rfl⟩, fun a ha => ?_⟩
    rw [List.mem_singleton.mp ha, weight_cons]
    omega
  | case6 => cases h
  | case7 t separator tail arg harg _ args' rest' hrec ih =>
    cases h
    obtain ⟨hsuffix, hlength⟩ := ih hrec
    have := length_argument_le harg
    refine ⟨hsuffix.trans ⟨[t, separator], rfl⟩, fun a ha => ?_⟩
    rw [weight_cons, weight_cons]
    rcases List.mem_cons.mp ha with rfl | ha
    · omega
    · have := hlength a ha
      omega
  | case8 => cases h

theorem takeArgumentList_suffix {finish : Position} {ts rest : List Token} {args : List String}
    (h : takeArgumentList finish ts = .ok (args, rest)) :
    rest <:+ ts ∧ ∀ arg ∈ args, arg.length ≤ weight ts := by
  unfold takeArgumentList at h
  split at h
  · exact takeArguments_suffix h
  · split at h
    · cases h
      exact ⟨⟨[_], rfl⟩, by simp⟩
    · exact takeArguments_suffix h

theorem takeIndex_suffix {pos : Position} {ts rest : List Token} {index : Nat}
    (h : takeIndex pos ts = .ok (index, rest)) : rest <:+ ts := by
  unfold takeIndex at h
  split at h
  · cases h
  · split at h
    · split at h
      · cases h; exact ⟨[_], rfl⟩
      · cases h
    · cases h

theorem takeFunction_suffix {finish : Position} {ts rest : List Token} {expr : Expr}
    (h : takeFunction finish ts = .ok (expr, rest)) :
    rest <:+ ts ∧ ∀ name args, expr = .call name args → ∀ arg ∈ args, arg.length ≤ weight ts := by
  unfold takeFunction at h
  split at h
  · cases h
  · next t tail =>
    split at h
    · split at h
      · cases h
        exact ⟨⟨[t], rfl⟩, by simp⟩
      · next u tail =>
        split at h
        · split at h
          · cases h
          · next args rest' hargs =>
            cases h
            obtain ⟨hsuffix, hlength⟩ := takeArgumentList_suffix hargs
            refine ⟨hsuffix.trans ⟨[t, u], rfl⟩, fun name args' hcall arg ha => ?_⟩
            cases hcall
            have := hlength arg ha
            rw [weight_cons, weight_cons]
            omega
        · cases h
          refine ⟨⟨[t, u], rfl⟩, fun name args' hcall arg ha => ?_⟩
          cases hcall
          rw [List.mem_singleton.mp ha]
          simp only [String.length_ofList, weight_cons]
          omega
        · cases h
          exact ⟨⟨[t], rfl⟩, by simp⟩
    · cases h

theorem takeItem_suffix {finish : Position} {marks marks' : Marks} {t : Token}
    {rest rest' : List Token} {item : Item}
    (h : takeItem finish marks t rest = .ok (item, marks', rest')) :
    rest' <:+ rest ∧
      ∀ name args, item.expr = .call name args → ∀ arg ∈ args, arg.length ≤ weight rest := by
  unfold takeItem at h
  split at h
  · cases h
    exact ⟨List.suffix_rfl, by simp⟩
  · cases h
  · split at h
    · cases h
    · split at h
      · cases h
        exact ⟨List.suffix_rfl, by simp⟩
      · split at h
        · cases h
        · next hindex =>
          cases h
          exact ⟨takeIndex_suffix hindex, by simp⟩
  · split at h
    · cases h
    · next hfunction =>
      cases h
      exact takeFunction_suffix hfunction
  · cases h

/-- Read all items. -/
def takeItems (finish : Position) (marks : Marks) : List Token → Except Cause Clause
  | [] => .ok []
  | t :: rest =>
    match _hitem : takeItem finish marks t rest with
    | .error e => .error e
    | .ok (item, marks, rest) =>
      match takeItems finish marks rest with
      | .error e => .error e
      | .ok items => .ok (item :: items)
termination_by ts => ts.length
decreasing_by
  have := (takeItem_suffix _hitem).1.length_le
  simp only [List.length_cons]
  omega

/-- The clause that a template spells. -/
def parse (raw : String) : Except Cause Clause :=
  takeItems (Position.start.after raw.toList) {} (Lexer.ofString raw).tokens

theorem takeItems_length_arg {finish : Position} {marks : Marks} {ts : List Token} {c : Clause}
    (h : takeItems finish marks ts = .ok c) (hne : ∀ t ∈ ts, t.lexeme ≠ []) :
    ∀ item ∈ c, ∀ name args, item.expr = .call name args →
      ∀ arg ∈ args, arg.length < weight ts := by
  fun_induction takeItems finish marks ts generalizing c with
  | case1 => cases h; simp
  | case2 => cases h
  | case3 => cases h
  | case4 marks t rest item marks' rest' hitem items hitems ih =>
    cases h
    obtain ⟨hsuffix, hlength⟩ := takeItem_suffix hitem
    have hpos := List.length_pos_iff.mpr (hne t (by simp))
    intro i hi name args hcall arg ha
    rw [weight_cons]
    rcases List.mem_cons.mp hi with rfl | hi
    · have := hlength name args hcall arg ha
      omega
    · have := ih hitems (fun u hu => hne u (by simp [hsuffix.subset hu])) i hi name args hcall
        arg ha
      have := weight_le_of_suffix hsuffix
      omega

/-- Every argument of a call is shorter than the template that the call is read from. -/
theorem length_arg_lt {raw : String} {c : Clause} (h : parse raw = .ok c) {item : Item}
    (hitem : item ∈ c) {name : String} {args : List String} (hcall : item.expr = .call name args)
    {arg : String} (harg : arg ∈ args) : arg.length < raw.length := by
  have := takeItems_length_arg h (fun t ht => Lexer.lexeme_ne_nil_of_mem_tokens ht)
    item hitem name args hcall arg harg
  have hsum := Lexer.weight_tokens_le (Lexer.ofString raw)
  have hrest : (Lexer.ofString raw).rest.length = raw.length := String.length_toList
  omega

/-- So the joins of a template need less room than the template. -/
theorem room_le_of_parse {raw : String} {c : Clause} (h : parse raw = .ok c) :
    c.room ≤ raw.length := by
  refine Clause.room_le_of_forall fun item hitem => ?_
  rcases hexpr : item.expr with _ | _ | ⟨name, args⟩ | _
  · simp [Expr.room]
  · simp [Expr.room]
  · match args, hexpr with
    | [], _ => simp [Expr.room]
    | [_], _ => simp [Expr.room]
    | [template, _], hexpr => exact length_arg_lt h hitem hexpr (by simp)
    | _ :: _ :: _ :: _, _ => simp [Expr.room]
  · simp [Expr.room]

end SqlTemplate.Template
