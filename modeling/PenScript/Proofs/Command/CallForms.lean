import PenScript.Proofs.Arguments.Words
import PenScript.Proofs.Expression.Sealed
import PenScript.Proofs.Machine.Call
import PenScript.Proofs.Program.Spelling

/-!
# Two forms of a call

The arguments of a call are written behind the name with blanks between them, or in parentheses with
commas between them. Which form a line has is told by the first character behind the name alone. So
a line of the first form is mistaken for one of the second when its first argument starts with a
parenthesis, and then its arguments are read wrongly or not at all (`spaced_call_iff`). All other
lines of the two forms do the same, and so do those with one argument when the parentheses that are
taken for those of the call enclose all of it (`call_forms_agree`).
-/

namespace PenScript

open Text

/-- The line of a call with anything behind the name. -/
def callLine (name text : Text) : Text :=
  Command.call.keyword ++ ' ' :: (name ++ text)

/-- The line `call name first second …`. -/
def spacedCall (name : Text) (arguments : List Text) : Text :=
  callLine name (' ' :: join " ".toList arguments)

/-- The line `call name(first, second, …)`. -/
def listedCall (name : Text) (arguments : List Text) : Text :=
  callLine name ('(' :: (join ", ".toList arguments ++ [')']))

/-! ### What a call reads -/

section Reading

variable {registry : Registry} {scope : Scope} {name shape text inside : Text}
  {arguments : List Text} {c : Char} {rest : Text}

/-- The call has the form that is documented, and these are its argument texts. -/
theorem invocation_iff (hname : isIdentifier name = true) (hc : isNameChar c = false)
    {effect : Effect} :
    Command.invocation (trim (name ++ c :: rest)) = .ok effect ↔
      ∃ arguments, Command.callArguments "call name(argument, ...)".toList (trim (c :: rest)) =
        .ok arguments ∧ (∀ argument ∈ arguments, argument ≠ []) ∧
        effect = .call name arguments := by
  obtain ⟨hword, hsome⟩ := word_of_identifier hname
  have hcall : Command.invocation (trim (name ++ c :: rest)) = (do
      let arguments ← Command.callArguments "call name(argument, ...)".toList (trim (c :: rest))
      if arguments.any (·.isEmpty) then
        throw (.argument (.emptyArgument "call name(argument, ...)".toList))
      pure (.call name arguments)) := by
    rw [Command.invocation, Line.split_word_congr (trim_trim _),
      Line.split_word_cons hword hsome hc, Arguments.identifier, if_pos hname]
    rfl
  rw [hcall]
  constructor
  · intro h
    obtain ⟨arguments, harguments, h⟩ := ok_of_bind h
    obtain ⟨hempty, h⟩ := ok_of_refused h
    refine ⟨arguments, harguments, fun argument hmem hnil ↦ hempty ?_, (Except.ok.inj h).symm⟩
    exact List.any_eq_true.mpr ⟨argument, hmem, List.isEmpty_iff.mpr hnil⟩
  · rintro ⟨arguments, harguments, hnonempty, rfl⟩
    have hempty : arguments.any (·.isEmpty) = false :=
      List.any_eq_false.mpr fun argument hmem h ↦ hnonempty argument hmem (List.isEmpty_iff.mp h)
    rw [harguments]
    simp only [bind, Except.bind, hempty]
    rfl

/-- A line of a call is a statement. -/
theorem kind_call_line (name text : Text) : Line.kind (callLine name text) = .statement := by
  obtain ⟨hword, hsome⟩ := Line.keyword_word .call
  unfold callLine Line.kind
  rw [Line.is_skipped_append hword hsome, Line.split_word_cons hword hsome rfl]
  rfl

/-- An interpreter knows the command that calls, or none of that keyword. -/
theorem find_call (registry : Registry) : registry.find? Command.call.keyword = none ∨
    registry.find? Command.call.keyword = some .call := by
  cases hfind : registry.find? Command.call.keyword with
  | none => exact .inl rfl
  | some command =>
      have hkeyword := List.find?_some hfind
      cases command with
      | call => exact .inr rfl
      | declare kind => cases kind <;> exact absurd hkeyword (by decide)
      | _ => exact absurd hkeyword (by decide)

/-- The statement of a call line is a call, when the interpreter knows the command. -/
theorem statement_call_line (hname : isIdentifier name = true)
    (hfind : registry.find? Command.call.keyword = some .call) :
    registry.statement scope (callLine name text) = Command.invocation (trim (name ++ text)) := by
  rw [callLine, Line.statement_keyword hname, Registry.dispatch, hfind]
  exact congrArg Command.invocation (trim_trim _)

/-- The statement of a call line does not depend on what is behind the name, when the interpreter
does not know the command. -/
theorem statement_call_unknown (hname : isIdentifier name = true)
    (hnone : registry.find? Command.call.keyword = none) (text other : Text) :
    registry.statement scope (callLine name text) =
      registry.statement scope (callLine name other) := by
  rw [callLine, callLine, Line.statement_keyword hname, Line.statement_keyword hname,
    Registry.dispatch, Registry.dispatch, hnone]

/-- What is read of a text in parentheses. -/
theorem call_arguments_inside (shape inside : Text) :
    Command.callArguments shape ('(' :: (inside ++ [')'])) =
      .ok (if (trim inside).isEmpty then [] else Arguments.listed (trim inside)) := by
  simp only [Command.callArguments, drop_last_concat]
  split <;> rfl

/-- What is read of a text after an opening parenthesis ends with the closing one. -/
theorem call_arguments_ok (h : Command.callArguments shape ('(' :: rest) = .ok arguments) :
    ∃ inside, rest = inside ++ [')'] ∧
      (arguments = [] ∨ arguments = Arguments.listed (trim inside)) := by
  unfold Command.callArguments at h
  split at h
  · rename_i inner heq
    obtain ⟨-, rfl⟩ := List.cons.inj heq
    split at h
    · cases h
    · rename_i inside hclosed
      unfold dropLast? at hclosed
      split at hclosed
      · rename_i hlast
        obtain rfl := Option.some.inj hclosed
        refine ⟨_, (List.dropLast_append_getLast? _ hlast).symm, ?_⟩
        split at h
        · exact .inl (Except.ok.inj h).symm
        · exact .inr (Except.ok.inj h).symm
      · cases hclosed
  · rename_i hopen
    exact absurd rfl (hopen rest)

/-- Arguments in parentheses are read back. -/
theorem call_arguments_listed (hsome : arguments ≠ [])
    (htight : ∀ argument ∈ arguments, Tight argument)
    (hpieces : ∀ argument ∈ arguments, Text.Balanced argument ∧ Text.Encloses ',' argument) :
    Command.callArguments shape ('(' :: (join ", ".toList arguments ++ [')'])) =
      .ok arguments := by
  have hjoined : Tight (join ", ".toList arguments) := .join hsome htight _
  have hlisted : Arguments.listed (join ", ".toList arguments) = arguments :=
    Arguments.listed_join hsome htight hpieces
  rw [call_arguments_inside, hjoined.trimmed, List.isEmpty_eq_false_iff.mpr hjoined.nonempty,
    hlisted]
  rfl

end Reading

/-! ### Arguments in parentheses of their own -/

/-- The two computations have the same value, or fail with errors of one headline. -/
abbrev SameButWording {α : Type} : Except Error α → Except Error α → Prop :=
  SameEnd (fun error twin ↦ error.kind = twin.kind) Eq

/-- A computation does not differ from itself. -/
theorem SameButWording.refl {α : Type} (result : Except Error α) : SameButWording result result :=
  SameEnd.refl (fun error ↦ @rfl Text error.kind) (fun _ ↦ rfl) result

section Enclosed

variable {scope : Scope} {text inner name : Text}

/-- The parentheses that enclose an expression change nothing but the wording of its failure. -/
theorem Expression.evaluate_enclosed (h : enclosed? text = some inner) (scope : Scope) :
    SameButWording (evaluate scope (trim inner)) (evaluate scope text) := by
  have htext := enclosed_eq h
  have htrim : trim text = text := by
    rw [htext]
    exact (trim_end_append_cons rfl ('(' :: inner) [])
  have hquote : '"' ∈ text ↔ '"' ∈ inner := by simp [htext]
  rw [evaluate_trim, evaluate, evaluate, value_congr (core_of_enclosed (htrim.symm ▸ h)) hquote]
  cases value scope inner with
  | error fault => exact .error rfl
  | ok value => exact .ok rfl

/-- A call with one argument is prepared alike when the argument has the same value. -/
theorem Interpreter.prepare_alike {interpreter : Interpreter} {first second : Text}
    (h : SameButWording (Expression.evaluate scope first) (Expression.evaluate scope second)) :
    SameButWording (interpreter.prepare name [first] scope)
      (interpreter.prepare name [second] scope) := by
  unfold prepare
  cases interpreter.methods.get? name with
  | none => exact .error rfl
  | some method =>
      dsimp only
      by_cases hcount : method.parameters.length = 1
      · obtain ⟨parameter, hparameter⟩ := List.length_eq_one_iff.mp hcount
        have hone (argument : Text) : ¬ method.parameters.length ≠ [argument].length :=
          Decidable.not_not.mpr hcount
        rw [if_neg (hone first), if_neg (hone second), hparameter]
        have hlocals : SameButWording (bindArguments scope .empty ([parameter].zip [first]))
            (bindArguments scope .empty ([parameter].zip [second])) := by
          refine SameEnd.bind h ?_
          rintro value _ rfl
          exact .ok rfl
        refine hlocals.bind ?_
        rintro locals _ rfl
        exact SameButWording.refl _
      · have hother (argument : Text) : method.parameters.length ≠ [argument].length := hcount
        rw [if_pos (hother first), if_pos (hother second)]
        exact .error rfl

end Enclosed

/-! ### Lines of the two forms -/

/-- The two lines succeed or fail alike, with one headline, and leave the same machine. -/
def Attempt.Alike (first second : Attempt) : Prop :=
  first.result.mapError Error.kind = second.result.mapError Error.kind ∧
    first.state = second.state

section Lines

variable {name : Text} {arguments : List Text} {state : State} {block : Block} {line other : Text}
  {fuel : Nat}

/-- A line does as it does. -/
theorem alike_refl (attempt : Option Attempt) : Option.Rel Attempt.Alike attempt attempt := by
  cases attempt with
  | none => exact .none
  | some attempt => exact .some ⟨rfl, rfl⟩

/-- Two statements with one effect do the same. -/
theorem attempt_congr {calls : Calls} (hline : Line.kind line = .statement)
    (hother : Line.kind other = .statement)
    (h : state.interpreter.registry.statement state.scope line =
      state.interpreter.registry.statement state.scope other) :
    state.attempt calls block line = state.attempt calls block other := by
  have hdecide : state.decide block line = state.decide block other := by
    simp only [State.decide, hline, hother, State.decideStatement, h]
  rw [State.attempt, State.attempt, hdecide]

/-- Calls that are prepared alike do alike. -/
theorem attempt_alike {first second : List Text} (hline : Line.kind line = .statement)
    (hother : Line.kind other = .statement)
    (hfirst : state.interpreter.registry.statement state.scope line = .ok (.call name first))
    (hsecond : state.interpreter.registry.statement state.scope other = .ok (.call name second))
    (h : SameButWording (state.interpreter.prepare name first state.scope)
      (state.interpreter.prepare name second state.scope)) :
    Option.Rel Attempt.Alike (state.attempt (runCalls fuel) block line)
      (state.attempt (runCalls fuel) block other) := by
  rw [attempt_statement hline, attempt_statement hother, hfirst, hsecond, Interpreter.perform,
    Interpreter.perform, Interpreter.callMethod, Interpreter.callMethod]
  generalize state.interpreter.prepare name first state.scope = prepared,
    state.interpreter.prepare name second state.scope = twin at h
  cases h with
  | error hkind => exact .some ⟨congrArg Except.error hkind, rfl⟩
  | ok heq =>
      subst heq
      exact alike_refl _

end Lines

section Forms

variable {name : Text} {arguments : List Text}

/-- The form in parentheses calls the method with the arguments. -/
theorem listed_call (hname : isIdentifier name = true) (hsome : arguments ≠ [])
    (htight : ∀ argument ∈ arguments, Tight argument)
    (hpieces : ∀ argument ∈ arguments, Text.Balanced argument ∧ Text.Encloses ',' argument) :
    Command.invocation (trim (name ++ '(' :: (join ", ".toList arguments ++ [')']))) =
      .ok (.call name arguments) := by
  have htrim : trim ('(' :: (join ", ".toList arguments ++ [')'])) =
      '(' :: (join ", ".toList arguments ++ [')']) := trim_end_append_cons rfl ('(' :: _) []
  refine (invocation_iff hname rfl).mpr ⟨arguments, ?_, fun _ hmem ↦ (htight _ hmem).nonempty, rfl⟩
  rw [htrim]
  exact call_arguments_listed hsome htight hpieces

/-- The form with blanks reads the text of the arguments without the blanks around it. -/
theorem spaced_call (hname : isIdentifier name = true) {text : Text} (htext : Tight text)
    {found : List Text} (hfound : ∀ argument ∈ found, argument ≠ []) :
    Command.invocation (trim (name ++ ' ' :: text)) = .ok (.call name found) ↔
      Command.callArguments "call name(argument, ...)".toList text = .ok found := by
  rw [invocation_iff hname rfl, trim_cons_blank, htext.trimmed]
  constructor
  · rintro ⟨arguments, harguments, -, heffect⟩
    rwa [(Effect.call.inj heffect).2]
  · exact fun h ↦ ⟨found, h, hfound, rfl⟩

/-- A text that starts with a parenthesis is not read as the arguments that it is joined from:
without its first and its last character it is too short. -/
theorem call_arguments_ne (hsome : arguments ≠ []) {shape rest : Text}
    (hjoined : join " ".toList arguments = '(' :: rest) :
    Command.callArguments shape ('(' :: rest) ≠ .ok arguments := by
  intro h
  obtain ⟨inside, rfl, hread⟩ := call_arguments_ok h
  have hlisted := hread.resolve_left hsome
  have hjoin : (join " ".toList arguments).length + 1 =
      arguments.flatten.length + arguments.length := length_join hsome ' '
  -- As many commas as there were blanks would have to fit in, but two characters are gone.
  have hle := Arguments.length_listed_le (trim inside)
  have htrim := length_trim_le inside
  rw [← hlisted] at hle
  rw [hjoined, List.length_cons, List.length_append, List.length_singleton] at hjoin
  omega

/-- The form with blanks calls the method with the arguments when the first of them does not start
with a parenthesis, and not otherwise. -/
theorem spaced_call_iff (hname : isIdentifier name = true) (hsome : arguments ≠ [])
    (htight : ∀ argument ∈ arguments, Tight argument)
    (hlist : Arguments.list (join " ".toList arguments) = arguments) :
    Command.invocation (trim (name ++ ' ' :: join " ".toList arguments)) =
        .ok (.call name arguments) ↔
      (arguments.head hsome).head? ≠ some '(' := by
  have hhead := head_join hsome (htight _ (List.head_mem hsome)).nonempty " ".toList
  rw [spaced_call hname (.join hsome htight _) fun _ hmem ↦ (htight _ hmem).nonempty, ← hhead]
  cases hjoined : join " ".toList arguments with
  | nil => exact iff_of_true (congrArg Except.ok (hjoined ▸ hlist)) (by simp)
  | cons c rest =>
      by_cases hparenthesis : c = '('
      · subst hparenthesis
        exact iff_of_false (call_arguments_ne hsome hjoined) fun h ↦ h rfl
      · refine iff_of_true ?_ fun h ↦ hparenthesis (Option.some.inj h)
        rw [Command.callArguments, ← hjoined, hlist]
        exact fun inner hcons ↦ hparenthesis (List.cons.inj hcons).1

/-- A single argument in parentheses is read without them. -/
theorem spaced_call_enclosed (hname : isIdentifier name = true) {argument inside : Text}
    (htight : Tight argument) (henclosed : Expression.enclosed? argument = some inside)
    (hsome : trim inside ≠ []) (hencloses : Text.Encloses ',' inside) :
    Command.invocation (trim (name ++ ' ' :: argument)) = .ok (.call name [trim inside]) := by
  have hlisted : Arguments.listed (trim inside) = [trim inside] := by
    rw [Arguments.listed, split_outside_of_encloses hencloses.trim, List.map_singleton, trim_trim]
  refine (spaced_call hname htight (List.forall_mem_singleton.mpr hsome)).mpr ?_
  rw [Expression.enclosed_eq henclosed, call_arguments_inside,
    List.isEmpty_eq_false_iff.mpr hsome, hlisted]
  rfl

end Forms

/-- Let the arguments of a call have balanced quotes and parentheses that enclose all of their
commas, and let them be what is read of them when they stand one after the other with blanks between
them. Then the line with the arguments in parentheses calls the method with them. The line with
blanks between them does so exactly when the first argument does not start with a parenthesis, and
then the two lines do the same, whatever the machine. A single argument may be in parentheses of its
own: the two lines then succeed or fail alike, with one headline, and leave the same machine, as
long as the parentheses enclose the whole argument and it is no list. -/
theorem call_forms_agree (name : Text) (arguments : List Text)
    (hname : Text.isIdentifier name = true) (hsome : arguments ≠ [])
    (hpieces : ∀ argument ∈ arguments, Text.Balanced argument ∧ Text.Encloses ',' argument)
    (hlist : Arguments.list (Text.join " ".toList arguments) = arguments) :
    (∀ scope, Registry.standard.statement scope (listedCall name arguments) =
      .ok (.call name arguments)) ∧
    (∀ scope, Registry.standard.statement scope (spacedCall name arguments) =
        .ok (.call name arguments) ↔ (arguments.head hsome).head? ≠ some '(') ∧
    ∀ (state : State) (block : Block) (fuel : Nat),
      ((arguments.head hsome).head? ≠ some '(' →
        state.attempt (runCalls fuel) block (spacedCall name arguments) =
          state.attempt (runCalls fuel) block (listedCall name arguments)) ∧
      ∀ argument inside, arguments = [argument] → Expression.enclosed? argument = some inside →
        Text.trim inside ≠ [] → Text.Encloses ',' inside →
        Option.Rel Attempt.Alike
          (state.attempt (runCalls fuel) block (spacedCall name arguments))
          (state.attempt (runCalls fuel) block (listedCall name arguments)) := by
  have hencloses : Text.Encloses ',' (join " ".toList arguments) :=
    .join (by decide) (by decide) hpieces
  have hbalanced : Text.Balanced (join " ".toList arguments) :=
    .join (by decide) fun _ hmem ↦ (hpieces _ hmem).1
  have htight : ∀ argument ∈ arguments, Tight argument :=
    hlist ▸ Arguments.list_tight hbalanced hencloses
  have hlisted := listed_call hname hsome htight hpieces
  have hspaced := spaced_call_iff hname hsome htight hlist
  have hfind : Registry.standard.find? Command.call.keyword = some .call := by decide
  refine ⟨fun scope ↦ ?_, fun scope ↦ ?_, fun state block fuel ↦ ⟨fun hplain ↦ ?_, ?_⟩⟩
  · rw [listedCall, statement_call_line hname hfind, hlisted]
  · rw [spacedCall, statement_call_line hname hfind, hspaced]
  · refine attempt_congr (kind_call_line _ _) (kind_call_line _ _) ?_
    rcases find_call state.interpreter.registry with hnone | hcall
    · exact statement_call_unknown hname hnone _ _
    · rw [spacedCall, listedCall, statement_call_line hname hcall, statement_call_line hname hcall,
        hlisted, hspaced.mpr hplain]
  · rintro argument inside rfl henclosed hinside hno
    rcases find_call state.interpreter.registry with hnone | hcall
    · have hsame : state.attempt (runCalls fuel) block (spacedCall name [argument]) =
          state.attempt (runCalls fuel) block (listedCall name [argument]) :=
        attempt_congr (kind_call_line _ _) (kind_call_line _ _)
          (statement_call_unknown hname hnone _ _)
      rw [hsame]
      exact alike_refl _
    · have hargument := spaced_call_enclosed hname (htight argument List.mem_cons_self) henclosed
        hinside hno
      have hfirst : state.interpreter.registry.statement state.scope (spacedCall name [argument]) =
          .ok (.call name [trim inside]) := by
        rw [spacedCall, statement_call_line hname hcall, join_singleton, hargument]
      have hsecond : state.interpreter.registry.statement state.scope (listedCall name [argument]) =
          .ok (.call name [argument]) := by
        rw [listedCall, statement_call_line hname hcall, hlisted]
      exact attempt_alike (kind_call_line _ _) (kind_call_line _ _) hfirst hsecond
        (Interpreter.prepare_alike (Expression.evaluate_enclosed henclosed state.scope))

/-- Two arguments of which the second is in parentheses, and a single argument that is. -/
theorem call_forms_agree_parentheses :
    Registry.standard.statement .empty (spacedCall "add".toList ["a + 1".toList, "(b)".toList]) =
      .ok (.call "add".toList ["a + 1".toList, "(b)".toList]) ∧
    Registry.standard.statement .empty (listedCall "add".toList ["a + 1".toList, "(b)".toList]) =
      .ok (.call "add".toList ["a + 1".toList, "(b)".toList]) ∧
    ∀ (state : State) (block : Block) (fuel : Nat),
      state.attempt (runCalls fuel) block (spacedCall "add".toList ["a + 1".toList, "(b)".toList]) =
        state.attempt (runCalls fuel) block
          (listedCall "add".toList ["a + 1".toList, "(b)".toList]) ∧
      Option.Rel Attempt.Alike
        (state.attempt (runCalls fuel) block (spacedCall "add".toList ["(a + 1)".toList]))
        (state.attempt (runCalls fuel) block (listedCall "add".toList ["(a + 1)".toList])) := by
  obtain ⟨hlisted, hspaced, htwo⟩ := call_forms_agree "add".toList ["a + 1".toList, "(b)".toList]
    (by decide) (by decide) (by decide) (by decide)
  obtain ⟨-, -, hone⟩ := call_forms_agree "add".toList ["(a + 1)".toList] (by decide)
    (by decide) (by decide) (by decide)
  refine ⟨(hspaced .empty).mpr (by decide), hlisted .empty, fun state block fuel ↦ ?_⟩
  exact ⟨(htwo state block fuel).1 (by decide),
    (hone state block fuel).2 _ "a + 1".toList rfl (by decide) (by decide) (by decide)⟩

/-- The sum of two numbers in parentheses of their own: the form in parentheses succeeds, and the
form with blanks is recorded as an error. -/
theorem call_forms_differ : ∃ (arguments : List Text) (method : List Text),
    (∀ argument ∈ arguments, Text.Balanced argument ∧ Text.Encloses ',' argument) ∧
    Arguments.list (Text.join " ".toList arguments) = arguments ∧
    ((Interpreter.new {} .standard).runLines 20
      (method ++ [listedCall "add".toList arguments])).map (·.interpreter.errors.size) = some 0 ∧
    ((Interpreter.new {} .standard).runLines 20
      (method ++ [spacedCall "add".toList arguments])).map (·.interpreter.errors.size) =
        some 1 := by
  refine ⟨["(1 + 1)".toList, "(2 + 2)".toList],
    ["method add(a, b)".toList, "add = a + b".toList, "endmethod".toList], by decide, by decide,
    ?_, ?_⟩
  · decide +kernel
  · decide +kernel

end PenScript
