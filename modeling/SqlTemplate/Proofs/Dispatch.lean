import SqlTemplate.Proofs.Notations

/-!
# Custom functions and their calls

A registry and the templates have the same idea of a name: what can be registered is read
back from a call, whole and by itself, in both notations for calls. So a call of a
name that is registered reaches the function that was registered last, whatever else was
registered, or was refused (`ofCalls_dispatches`); and the built-in functions cannot be
replaced.
-/

namespace SqlTemplate

open Template (parse)

/-! ## Registering -/

/-- A function to be registered under a name. -/
structure Registration where
  name : String
  f : CustomFunction

namespace Registration

variable {c d : Registration} {calls : List Registration}

/-- The name is that of a custom function, and no later one of the calls has it. -/
structure LatestOf (c : Registration) (calls : List Registration) : Prop where
  accepted : Function.isCustomName c.name
  last : ∃ before after, calls = before ++ c :: after ∧ ∀ d ∈ after, d.name ≠ c.name

theorem latestOf_concat_iff : c.LatestOf (calls ++ [d]) ↔
    (Function.isCustomName c.name ∧ c = d) ∨ (d.name ≠ c.name ∧ c.LatestOf calls) := by
  constructor
  · rintro ⟨haccepted, before, after, hcalls, hafter⟩
    rcases List.eq_nil_or_concat' after with rfl | ⟨after, e, rfl⟩
    · obtain ⟨-, hd⟩ := List.append_inj' hcalls rfl
      exact .inl ⟨haccepted, (List.cons.inj hd).1.symm⟩
    · rw [← List.cons_append, ← List.append_assoc] at hcalls
      obtain ⟨rfl, he⟩ := List.append_inj' hcalls rfl
      obtain rfl : d = e := (List.cons.inj he).1
      exact .inr ⟨hafter d (by simp), haccepted, before, after, rfl,
        fun d hd => hafter d (by simp [hd])⟩
  · rintro (⟨haccepted, rfl⟩ | ⟨hne, haccepted, before, after, rfl, hafter⟩)
    · exact ⟨haccepted, calls, [], rfl, nofun⟩
    · refine ⟨haccepted, before, after ++ [d], by simp, ?_⟩
      intro e he
      rcases List.mem_append.mp he with he | he
      · exact hafter e he
      · rwa [List.mem_singleton.mp he]

/-- A name that is accepted has a last call. -/
theorem exists_latestOf (hname : Function.isCustomName c.name) (hc : c ∈ calls) :
    ∃ f, LatestOf ⟨c.name, f⟩ calls := by
  induction calls using List.reverseRecOn with
  | nil => cases hc
  | append_singleton calls d ih =>
      by_cases hd : d.name = c.name
      · refine ⟨d.f, latestOf_concat_iff.mpr (.inl ⟨hname, ?_⟩)⟩
        rw [← hd]
      · rcases List.mem_append.mp hc with hc | hc
        · obtain ⟨f, hf⟩ := ih hc
          exact ⟨f, latestOf_concat_iff.mpr (.inr ⟨hd, hf⟩)⟩
        · rw [List.mem_singleton.mp hc] at hd
          exact absurd rfl hd

end Registration

namespace Registry

/-- The registry after a call to register a function, which may be refused. -/
def attempt (r : Registry) (c : Registration) : Registry :=
  match r.register c.name c.f with
  | .ok registered => registered
  | .error _ => r

/-- A new registry after the calls. -/
def ofCalls (calls : List Registration) : Registry := calls.foldl attempt standard

theorem ofCalls_concat (calls : List Registration) (c : Registration) :
    ofCalls (calls ++ [c]) = (ofCalls calls).attempt c := by
  rw [ofCalls, List.foldl_concat, ofCalls]

theorem register_of_accepted (r : Registry) {name : String} (f : CustomFunction)
    (h : Function.isCustomName name) :
    r.register name f = .ok ⟨insert name (.custom f) r.entries⟩ := by
  rw [register, if_pos h]

theorem register_of_refused (r : Registry) {name : String} (f : CustomFunction)
    (h : ¬ Function.isCustomName name) :
    r.register name f = .error (.ofCause (.invalidFunctionName name)) := by
  rw [register, if_neg h]

theorem attempt_of_accepted (r : Registry) {c : Registration} (h : Function.isCustomName c.name) :
    r.attempt c = ⟨insert c.name (.custom c.f) r.entries⟩ := by
  rw [attempt, r.register_of_accepted c.f h]

theorem attempt_of_refused (r : Registry) {c : Registration}
    (h : ¬ Function.isCustomName c.name) : r.attempt c = r := by
  rw [attempt, r.register_of_refused c.f h]

/-- A name keeps its place, and a new one comes last. -/
theorem keys_insert (name : String) (f : Function) (entries : List (String × Function)) :
    (insert name f entries).map Prod.fst =
      if name ∈ entries.map Prod.fst then entries.map Prod.fst
      else entries.map Prod.fst ++ [name] := by
  induction entries with
  | nil => rfl
  | cons entry rest ih =>
      obtain ⟨n, g⟩ := entry
      unfold insert
      by_cases hn : n = name
      · subst hn
        simp
      · rw [if_neg hn, List.map_cons, ih, List.map_cons]
        have hne : name ≠ n := Ne.symm hn
        by_cases hmem : name ∈ rest.map Prod.fst
        · rw [if_pos hmem, if_pos (List.mem_cons_of_mem _ hmem)]
        · rw [if_neg hmem, if_neg (by simpa [hne] using hmem), List.cons_append]

theorem mem_keys_insert_iff {name other : String} {f : Function}
    {entries : List (String × Function)} :
    other ∈ (insert name f entries).map Prod.fst ↔
      other ∈ entries.map Prod.fst ∨ other = name := by
  rw [keys_insert]
  split
  case isTrue hmem => exact (or_iff_left_of_imp fun h => h ▸ hmem).symm
  case isFalse hnew => rw [List.mem_append, List.mem_singleton]

theorem nodup_keys_insert {name : String} {f : Function} {entries : List (String × Function)}
    (h : (entries.map Prod.fst).Nodup) : ((insert name f entries).map Prod.fst).Nodup := by
  rw [keys_insert]
  split
  case isTrue hmem => exact h
  case isFalse hnew => exact List.concat_eq_append ▸ h.concat hnew

theorem mem_names_iff {r : Registry} {name : String} :
    name ∈ r.names ↔ name ∈ r.entries.map Prod.fst := by
  rw [names, List.mem_mergeSort]

theorem nodup_names_iff {r : Registry} : r.names.Nodup ↔ (r.entries.map Prod.fst).Nodup :=
  (List.mergeSort_perm _ _).nodup_iff

/-- What a registry holds after some calls: the built-in functions as they are, and the function
of the last call for each name that is accepted. -/
structure Tracks (r : Registry) (calls : List Registration) : Prop where
  builtins : r.HasBuiltins
  names_nodup : r.names.Nodup
  mem_names : ∀ name, name ∈ r.names ↔
    Function.isBuiltin name ∨ Function.isCustomName name ∧ ∃ c ∈ calls, c.name = name
  latest : ∀ c : Registration, c.LatestOf calls → r.find? c.name = some (.custom c.f)

theorem tracks_standard : standard.Tracks [] where
  builtins := hasBuiltins_standard
  names_nodup := nodup_names_iff.mpr (by decide)
  mem_names name := by
    rw [mem_names_iff]
    simp [Function.isBuiltin, standard]
  latest := by
    rintro c ⟨-, before, after, hcalls, -⟩
    cases before <;> cases hcalls

/-- A call leaves everything else as it is. -/
theorem Tracks.attempt {r : Registry} {calls : List Registration} (h : r.Tracks calls)
    (c : Registration) : (r.attempt c).Tracks (calls ++ [c]) := by
  have hmem (name : String) : (∃ d ∈ calls ++ [c], d.name = name) ↔
      (∃ d ∈ calls, d.name = name) ∨ name = c.name := by
    simp [or_and_right, exists_or, eq_comm]
  by_cases haccepted : Function.isCustomName c.name
  · rw [attempt_of_accepted r haccepted]
    refine ⟨h.builtins.register (register_of_accepted r c.f haccepted), ?_, fun name => ?_,
      fun d hd => ?_⟩
    · exact nodup_names_iff.mpr (nodup_keys_insert (nodup_names_iff.mp h.names_nodup))
    · rw [mem_names_iff, mem_keys_insert_iff, ← mem_names_iff, h.mem_names name, hmem]
      by_cases hname : name = c.name
      · simp [hname, haccepted]
      · simp [hname]
    · rcases Registration.latestOf_concat_iff.mp hd with ⟨-, rfl⟩ | ⟨hne, hd⟩
      · exact lookup_insert_self
      · exact (lookup_insert_ne hne.symm).trans (h.latest d hd)
  · rw [attempt_of_refused r haccepted]
    refine ⟨h.builtins, h.names_nodup, fun name => ?_, fun d hd => ?_⟩
    · rw [h.mem_names name, hmem]
      by_cases hname : name = c.name
      · simp [hname, haccepted]
      · simp [hname]
    · rcases Registration.latestOf_concat_iff.mp hd with ⟨hname, rfl⟩ | ⟨-, hd⟩
      · exact absurd hname haccepted
      · exact h.latest d hd

theorem tracks_ofCalls (calls : List Registration) : (ofCalls calls).Tracks calls := by
  induction calls using List.reverseRecOn with
  | nil => exact tracks_standard
  | append_singleton calls c ih =>
      rw [ofCalls_concat]
      exact ih.attempt c

end Registry

/-! ## Calls in a template -/

namespace Template

/-- Arguments in single quotes, with the quotes in them doubled and blanks around them, up to the
closing parenthesis. -/
inductive Quoted : List String → List Char → Prop
  | none {gap : List Char} (hgap : ∀ c ∈ gap, Text.isBlank c = true) : Quoted [] (gap ++ [')'])
  | last {gap gap' : List Char} (hgap : ∀ c ∈ gap, Text.isBlank c = true) (arg : String)
      (hgap' : ∀ c ∈ gap', Text.isBlank c = true) :
    Quoted [arg] (gap ++ (spellArgument arg ++ (gap' ++ [')'])))
  | more {gap gap' list : List Char} {args : List String}
      (hgap : ∀ c ∈ gap, Text.isBlank c = true) (arg : String)
      (hgap' : ∀ c ∈ gap', Text.isBlank c = true) (hne : args ≠ []) (h : Quoted args list) :
    Quoted (arg :: args) (gap ++ (spellArgument arg ++ (gap' ++ ',' :: list)))

variable {args : List String} {list : List Char} {p : Position}

theorem Quoted.exists_arguments (h : Quoted args list) (hne : args ≠ []) (p : Position)
    (rest : List Char) :
    ∃ p', Arguments ⟨.arguments, p, list ++ rest⟩ args ⟨.text, p', rest⟩ := by
  induction h generalizing p with
  | none hgap => exact absurd rfl hne
  | @last gap gap' hgap arg hgap' =>
      have hquote := Lexer.Separator.closeParen.head?_ne hgap' rest (.inl rfl)
      have hnext := next_spellArgument (p := p) hgap arg hquote
      have hclose := Lexer.Separator.closeParen.next
        (p := (p.after gap).after (spellArgument arg)) hgap' rest
      have hlist : gap ++ (spellArgument arg ++ (gap' ++ [')'])) ++ rest =
          gap ++ (spellArgument arg ++ (gap' ++ ')' :: rest)) := by simp
      rw [hlist]
      exact ⟨_, .last hnext (argument_spell arg _) hclose rfl⟩
  | @more gap gap' list args hgap arg hgap' hargs _ ih =>
      have hquote := Lexer.Separator.comma.head?_ne hgap' (list ++ rest) (.inl rfl)
      have hnext := next_spellArgument (p := p) hgap arg hquote
      have hcomma := Lexer.Separator.comma.next
        (p := (p.after gap).after (spellArgument arg)) hgap' (list ++ rest)
      have hlist : gap ++ (spellArgument arg ++ (gap' ++ ',' :: list)) ++ rest =
          gap ++ (spellArgument arg ++ (gap' ++ ',' :: (list ++ rest))) := by simp
      obtain ⟨p', hrest⟩ :=
        ih hargs ((((p.after gap).after (spellArgument arg)).after gap').next ',')
      rw [hlist]
      exact ⟨p', .more hnext (argument_spell arg _) hcomma rfl hrest⟩

theorem Quoted.exists_argumentList (h : Quoted args list) (p : Position) (rest : List Char) :
    ∃ p', ArgumentList ⟨.arguments, p, list ++ rest⟩ args ⟨.text, p', rest⟩ := by
  by_cases hne : args = []
  · subst hne
    cases h with
    | none hgap =>
        rw [List.append_assoc]
        exact ⟨_, .empty (Lexer.Separator.closeParen.next hgap rest) rfl⟩
  · obtain ⟨p', hargs⟩ := h.exists_arguments hne p rest
    exact ⟨p', .some hargs⟩

/-- Any arguments can be quoted, with a blank behind each comma. -/
theorem quoted_spellArguments (args : List String) : Quoted args (spellArguments args) := by
  have hnil : ∀ c ∈ ([] : List Char), Text.isBlank c = true := nofun
  have hblank : ∀ c ∈ [' '], Text.isBlank c = true := by
    intro c hc
    rw [List.mem_singleton.mp hc]
    rfl
  -- The blank behind a comma belongs to the argument that comes next.
  have hspell {gap : List Char} (hgap : ∀ c ∈ gap, Text.isBlank c = true) (arg : String)
      (args : List String) : Quoted (arg :: args) (gap ++ spellArguments (arg :: args)) := by
    induction args generalizing arg gap with
    | nil =>
        rw [spellArguments_singleton]
        exact .last hgap arg hnil
    | cons arg' args ih =>
        rw [spellArguments_cons_cons]
        exact .more hgap arg hnil (List.cons_ne_nil _ _) (ih hblank arg')
  cases args with
  | nil => exact .none hnil
  | cons arg args => exact hspell hnil arg args

/-- The two notations for a call: with arguments in parentheses, or with the digits of a number. -/
inductive CallText (name : String) : List String → String → Prop
  | quoted {args : List String} {list : List Char} (h : Quoted args list) :
    CallText name args ("#" ++ name ++ "(" ++ String.ofList list)
  | numbered {ds : List Char} (hne : ds ≠ []) (hds : ∀ d ∈ ds, d.isDigit = true) :
    CallText name [String.ofList ds] ("#" ++ name ++ String.ofList ds)

/-- What can be registered is a name in a template. -/
theorem isName_of_isCustomName {name : String} (h : Function.isCustomName name) :
    IsName name.toList := by
  simp only [Function.isCustomName, Bool.and_eq_true, decide_eq_true_eq] at h
  obtain ⟨⟨hne, hall⟩, -⟩ := h
  refine ⟨fun hnil => hne (String.toList_eq_nil_iff.mp hnil), fun c hc => ?_⟩
  have hletter := List.all_eq_true.mp hall c hc
  rw [isNameChar, hletter]
  rfl

/-- A call is read whole, with just its name, before anything that is no digit. -/
theorem CallText.exists_functionReading {name t : String} (hname : Function.isCustomName name)
    (h : CallText name args t) {rest : List Char} (hdigit : NotFirst Char.isDigit rest)
    (p : Position) :
    ∃ cs p', t.toList ++ rest = '#' :: cs ∧
      FunctionReading p cs (.call name args) p' rest := by
  have hisName := isName_of_isCustomName hname
  cases h with
  | @quoted _ list h =>
      obtain ⟨p', hlist⟩ := h.exists_argumentList ((p.after name.toList).next '(') rest
      have hreading := FunctionReading.call hisName hlist
      rw [String.ofList_toList] at hreading
      exact ⟨_, p', by simp, hreading⟩
  | numbered hne hds =>
      have hreading := FunctionReading.short (p := p) hisName hne hds hdigit
      rw [String.ofList_toList] at hreading
      exact ⟨_, _, by simp, hreading⟩

/-- A text without references that can stand behind a call with a number. -/
structure PlainText (rest : String) : Prop where
  texts : ∃ c, parse rest = .ok c ∧ ∀ item ∈ c, ∃ s, item.expr = .text s
  digit : NotFirst Char.isDigit rest.toList

/-- A call with a text behind it. -/
def callClause (name : String) (args : List String) (t rest : String) : Clause :=
  ⟨.start, .call name args⟩ ::
    if rest = "" then [] else [⟨Position.start.after t.toList, .text rest⟩]

theorem CallText.parse {name t rest : String} (hname : Function.isCustomName name)
    (h : CallText name args t) (hrest : PlainText rest) :
    parse (t ++ rest) = .ok (callClause name args t rest) := by
  obtain ⟨c, hparse, htexts⟩ := hrest.texts
  have hcopied := (parse_eq_ok_iff.mp hparse).copied_of_texts htexts
  obtain ⟨cs, p', hcs, hfunction⟩ :=
    h.exists_functionReading hname hrest.digit (Position.start.next '#')
  obtain ⟨span, rfl, rfl, -⟩ := hfunction.exists_span
  have ht : t.toList = '#' :: span := List.append_cancel_right hcs
  refine parse_eq_ok_iff.mpr ?_
  rw [String.toList_append, hcs, callClause, ht, Position.after_cons]
  exact .function hfunction (hcopied.reading none 0 _)

end Template

namespace Registry

open Render

theorem evaluate_call {r : Registry} {name : String} {f : CustomFunction}
    (h : r.find? name = some (.custom f)) (scope : Scope) (args : List String) (t rest : String) :
    evaluate r scope (Template.callClause name args t rest) =
      (· ++ Output.ofString rest) <$> scope.follow (f args) := by
  have hitem : evaluateItem r scope ⟨.start, .call name args⟩ = scope.follow (f args) := by
    simp only [evaluateItem, h]
    rfl
  have htail : evaluate r scope
      (if rest = "" then [] else [⟨Template.Position.start.after t.toList, .text rest⟩]) =
        pure (Output.ofString rest) := by
    split
    · rename_i hrest
      simp [hrest, evaluate_eq, Output.ofString]
    · rw [evaluate_text, evaluate_eq]
      simp
  rw [Template.callClause, evaluate_cons, hitem, htail]
  simp

/-- **A call of a registered name reaches the function that was registered last.** After any
calls to register functions, under any names, a registry has the built-in functions as they were,
and besides them one function for each name that was accepted; a call that is refused changes
nothing. In both notations a call of such a name is read as that call alone, with just its
arguments, also when text stands behind it, and is evaluated by following the function. -/
theorem ofCalls_dispatches (calls : List Registration) :
    (ofCalls calls).Tracks calls ∧
    (∀ c : Registration, if Function.isCustomName c.name then
        (ofCalls calls).register c.name c.f = .ok (ofCalls (calls ++ [c]))
      else (ofCalls calls).register c.name c.f = .error (.ofCause (.invalidFunctionName c.name)) ∧
        ofCalls (calls ++ [c]) = ofCalls calls) ∧
    ∀ c ∈ calls, Function.isCustomName c.name → ∃ f, Registration.LatestOf ⟨c.name, f⟩ calls ∧
      ∀ args t rest, Template.CallText c.name args t → Template.PlainText rest →
        parse (t ++ rest) = .ok (Template.callClause c.name args t rest) ∧
        ∀ scope, evaluate (ofCalls calls) scope (Template.callClause c.name args t rest) =
          (· ++ Output.ofString rest) <$> scope.follow (f args) := by
  have htracks := tracks_ofCalls calls
  refine ⟨htracks, fun c => ?_, fun c hc hname => ?_⟩
  · rw [ofCalls_concat]
    split
    case isTrue hname => rw [attempt_of_accepted _ hname, register_of_accepted _ c.f hname]
    case isFalse hname =>
      exact ⟨register_of_refused _ c.f hname, attempt_of_refused _ hname⟩
  · obtain ⟨f, hlatest⟩ := Registration.exists_latestOf hname hc
    refine ⟨f, hlatest, fun args t rest ht hrest => ⟨ht.parse hname hrest, fun scope => ?_⟩⟩
    exact evaluate_call (htracks.latest _ hlatest) scope args t rest

/-- A name that begins like that of a built-in function, which is refused, is registered twice. -/
def dispatchSample : List Registration :=
  [⟨"colx", fun _ => .done []⟩, ⟨"col", fun _ => .done []⟩,
    ⟨"colx", fun args => .done (Output.ofString (String.join args))⟩]

theorem ofCalls_dispatches_sample :
    "colx" ∈ (ofCalls dispatchSample).names ∧
    ∃ f, Registration.LatestOf ⟨"colx", f⟩ dispatchSample ∧
      parse ("#colx('it''s', '#c1')" ++ " x") =
        .ok (Template.callClause "colx" ["it's", "#c1"] "#colx('it''s', '#c1')" " x") ∧
      ∀ scope, evaluate (ofCalls dispatchSample) scope
        (Template.callClause "colx" ["it's", "#c1"] "#colx('it''s', '#c1')" " x") =
          (· ++ Output.ofString " x") <$> scope.follow (f ["it's", "#c1"]) := by
  have hmem : ⟨"colx", fun _ => .done []⟩ ∈ dispatchSample := List.mem_cons_self
  have hname : Function.isCustomName "colx" := by decide
  have hcopied : Template.Copied " x".toList := rfl
  have hplain : Template.PlainText " x" := {
    texts := ⟨_, hcopied.parse, by simp⟩
    digit := by rintro _ ⟨⟩; rfl }
  have htext : Template.CallText "colx" ["it's", "#c1"] "#colx('it''s', '#c1')" :=
    .quoted (Template.quoted_spellArguments ["it's", "#c1"])
  obtain ⟨htracks, -, hcalls⟩ := ofCalls_dispatches dispatchSample
  obtain ⟨f, hlatest, hcall⟩ := hcalls _ hmem hname
  exact ⟨(htracks.mem_names _).mpr (.inr ⟨hname, _, hmem, rfl⟩), f, hlatest,
    hcall _ _ _ htext hplain⟩

end Registry

end SqlTemplate
