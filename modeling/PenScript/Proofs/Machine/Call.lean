import PenScript.Proofs.Machine.Decision
import PenScript.Proofs.Machine.Failure
import PenScript.Proofs.Scope.Lookup

/-!
# Calls of methods

A call looks its method up, counts and evaluates the arguments in the scope of the caller, and
checks how deep the calls are nested. `Interpreter.prepare_eq` puts this into one equation, in which
the caller occurs only in the values of the arguments: the method starts with these values under its
parameters and with nothing else. A statement does in the middle of a run what it does on its own
(`attempt_statement`), so a line that calls a method binds what comes back, or fails. So methods and
their callers share no variables (`calls_are_isolated`).
-/

namespace PenScript

namespace Interpreter

variable {interpreter : Interpreter} {name : Text} {arguments : List Text} {caller : Scope}

/-- The values of argument texts, or the error of the first one that has none. -/
def argumentValues (caller : Scope) (arguments : List Text) : Except Error (List Value) :=
  arguments.mapM (Expression.evaluate caller)

/-- Binding arguments evaluates all of them and puts the values under the parameters. -/
theorem bind_arguments_eq (caller locals : Scope) (pairs : List (Text × Text)) :
    bindArguments caller locals pairs =
      (argumentValues caller (pairs.map Prod.snd)).map fun values ↦
        ((pairs.map Prod.fst).zip values).foldl
          (fun locals binding ↦ locals.insert binding.1 binding.2) locals := by
  unfold argumentValues
  induction pairs generalizing locals with
  | nil => rfl
  | cons pair rest ih =>
      obtain ⟨parameter, argument⟩ := pair
      rw [bindArguments, List.map_cons, List.map_cons, List.mapM_cons]
      cases Expression.evaluate caller argument with
      | error error => rfl
      | ok value =>
          simp only [bind, Except.bind, ih]
          cases (rest.map Prod.snd).mapM (Expression.evaluate caller) <;> rfl

/-- A call of a method that is not defined fails. -/
theorem prepare_undefined (hmethod : interpreter.methods.get? name = none) :
    interpreter.prepare name arguments caller = .error (.undefinedMethod name) := by
  unfold prepare
  rw [hmethod]

/-- A call with another number of arguments than the method has parameters fails. -/
theorem prepare_count {method : Method} (hmethod : interpreter.methods.get? name = some method)
    (hcount : method.parameters.length ≠ arguments.length) :
    interpreter.prepare name arguments caller =
      .error (.argumentCount method.name method.parameters.length arguments.length) := by
  unfold prepare
  rw [hmethod]
  simp only [ne_eq, hcount, not_false_eq_true, if_true]
  rfl

/-- A call of a method that is defined, with as many arguments as it has parameters. It can be made
when the arguments have values and the calls are not nested as deep as they may be. -/
theorem prepare_eq {method : Method} (hmethod : interpreter.methods.get? name = some method)
    (hcount : method.parameters.length = arguments.length) :
    interpreter.prepare name arguments caller =
      (argumentValues caller arguments).bind fun values ↦
        if interpreter.callDepth < interpreter.options.maxCallDepth then
          .ok ⟨method, .ofList (method.parameters.zip values)⟩
        else .error (.recursionLimit interpreter.options.maxCallDepth) := by
  have hparameters : (method.parameters.zip arguments).map Prod.fst = method.parameters :=
    List.map_fst_zip (Nat.le_of_eq hcount)
  have harguments : (method.parameters.zip arguments).map Prod.snd = arguments :=
    List.map_snd_zip (Nat.le_of_eq hcount.symm)
  unfold prepare
  simp only [hmethod, hcount, ne_eq, not_true_eq_false, if_false, bind_arguments_eq, hparameters,
    harguments]
  cases argumentValues caller arguments with
  | error error => rfl
  | ok values =>
      by_cases hdepth : interpreter.callDepth < interpreter.options.maxCallDepth
      · have hfits : ¬ interpreter.options.maxCallDepth ≤ interpreter.callDepth := by omega
        simp only [Except.map, bind, Except.bind, pure, Except.pure, if_neg hfits, if_pos hdepth]
        rfl
      · have hfull : interpreter.options.maxCallDepth ≤ interpreter.callDepth := by omega
        simp only [Except.map, bind, Except.bind, pure, Except.pure, if_pos hfull, if_neg hdepth]
        rfl

/-- What a call that can be made tells about its method, its arguments and the depth of calls. -/
theorem prepare_ok {call : Call} (h : interpreter.prepare name arguments caller = .ok call) :
    interpreter.methods.get? name = some call.method ∧
      call.method.parameters.length = arguments.length ∧
      interpreter.callDepth < interpreter.options.maxCallDepth ∧
      ∃ values, argumentValues caller arguments = .ok values ∧
        call.locals = .ofList (call.method.parameters.zip values) := by
  have hmethod := prepare_get h
  have hcount : call.method.parameters.length = arguments.length := by
    by_contra hcount
    rw [prepare_count hmethod hcount] at h
    cases h
  rw [prepare_eq hmethod hcount] at h
  obtain ⟨values, hvalues, h⟩ := ok_of_bind h
  by_cases hdepth : interpreter.callDepth < interpreter.options.maxCallDepth
  · rw [if_pos hdepth] at h
    exact ⟨hmethod, hcount, hdepth, values, hvalues,
      (congrArg Call.locals (Except.ok.inj h)).symm⟩
  · rw [if_neg hdepth] at h
    cases h

/-- A call depends on the caller through the values of the arguments only. -/
theorem prepare_congr {other : Scope}
    (h : argumentValues caller arguments = argumentValues other arguments) :
    interpreter.prepare name arguments caller = interpreter.prepare name arguments other := by
  cases hmethod : interpreter.methods.get? name with
  | none => rw [prepare_undefined hmethod, prepare_undefined hmethod]
  | some method =>
      by_cases hcount : method.parameters.length = arguments.length
      · rw [prepare_eq hmethod hcount, prepare_eq hmethod hcount, h]
      · rw [prepare_count hmethod hcount, prepare_count hmethod hcount]

/-- Interpreters with methods that are alike, up to their bodies, make the same calls. A call fails
in both with the same error, or is one of methods that are alike with the same variables. -/
theorem prepare_related {near : Method → Method → Prop} {other : Interpreter}
    (hmethods : interpreter.methods.methods.Related near other.methods.methods)
    (hnear : ∀ method twin, near method twin →
      twin.name = method.name ∧ twin.parameters = method.parameters)
    (hdepth : other.callDepth = interpreter.callDepth)
    (hoptions : other.options = interpreter.options) (name : Text) (arguments : List Text)
    (caller : Scope) :
    (∃ error, interpreter.prepare name arguments caller = .error error ∧
      other.prepare name arguments caller = .error error) ∨
    ∃ method twin locals, interpreter.prepare name arguments caller = .ok ⟨method, locals⟩ ∧
      other.prepare name arguments caller = .ok ⟨twin, locals⟩ ∧ near method twin := by
  have hfound : Option.Rel near (interpreter.methods.get? name) (other.methods.get? name) :=
    hmethods.get (Text.toLower name)
  generalize hmethod : interpreter.methods.get? name = mine,
    htwin : other.methods.get? name = others at hfound
  cases hfound with
  | none => exact .inl ⟨_, prepare_undefined hmethod, prepare_undefined htwin⟩
  | @some method twin hbody =>
      obtain ⟨hname, hparameters⟩ := hnear method twin hbody
      by_cases hcount : method.parameters.length = arguments.length
      · have hothers : twin.parameters.length = arguments.length := by
          rw [hparameters, hcount]
        rw [prepare_eq hmethod hcount, prepare_eq htwin hothers, hdepth, hoptions, hparameters]
        cases argumentValues caller arguments with
        | error error => exact .inl ⟨error, rfl, rfl⟩
        | ok values =>
            simp only [Except.bind]
            by_cases hfits : interpreter.callDepth < interpreter.options.maxCallDepth
            · rw [if_pos hfits, if_pos hfits]
              exact .inr ⟨method, twin, _, rfl, rfl, hbody⟩
            · rw [if_neg hfits, if_neg hfits]
              exact .inl ⟨_, rfl, rfl⟩
      · have hothers : twin.parameters.length ≠ arguments.length := by
          rw [hparameters]
          exact hcount
        rw [prepare_count hmethod hcount, prepare_count htwin hothers, hname, hparameters]
        exact .inl ⟨_, rfl, rfl⟩

/-- A call that succeeds has run the method to its end, from the values of the arguments, and has
the value that the variables at this end give to the name of the method. -/
theorem call_method_ok {fuel : Nat} {declared : Text} {value : Value} {last : Interpreter}
    (h : interpreter.callMethod fuel name arguments caller = some ⟨.ok (declared, value), last⟩) :
    ∃ method values final after,
      interpreter.methods.get? name = some method ∧
      argumentValues caller arguments = .ok values ∧
      Ends method.block (.start (.ofList (method.parameters.zip values)) interpreter.enter)
        ⟨.ok (), final, after⟩ ∧
      declared = method.name ∧ Scope.Yields final method.name value ∧ last = after.leave := by
  unfold callMethod at h
  cases hprepare : interpreter.prepare name arguments caller with
  | error error =>
      rw [hprepare] at h
      cases h
  | ok call =>
      rw [hprepare] at h
      obtain ⟨callee, hrun, houtcome⟩ := Option.map_eq_some_iff.mp h
      obtain ⟨hmethod, -, -, values, hvalues, hlocals⟩ := prepare_ok hprepare
      obtain ⟨result, final, after⟩ := callee
      cases result with
      | error error => cases houtcome
      | ok finished =>
          cases houtcome
          rw [hlocals] at hrun
          exact ⟨call.method, values, final, after, hmethod, hvalues, ⟨fuel, hrun⟩, rfl,
            Scope.yields_iff.mpr rfl, rfl⟩

end Interpreter

section Lines

variable {state : State} {block : Block} {line : Text}

/-- The machine after a statement: on the next line when it has succeeded, and otherwise where it
was, with the variables and the canvas that the statement has left. -/
def State.afterStatement (state : State) (outcome : Outcome) : Attempt :=
  match outcome.result with
  | .ok () =>
      ⟨.ok (), { state with
        cursor := state.cursor + 1
        scope := outcome.scope
        interpreter := outcome.interpreter }⟩
  | .error error =>
      ⟨.error error, { state with scope := outcome.scope, interpreter := outcome.interpreter }⟩

/-- A statement line of a run does what carrying out its effect does. -/
theorem attempt_statement (hkind : Line.kind line = .statement) (fuel : Nat) :
    state.attempt (runCalls fuel) block line =
      (state.interpreter.perform fuel state.scope
        (state.interpreter.registry.statement state.scope line)).map state.afterStatement := by
  unfold State.attempt State.decide
  simp only [hkind, State.decideStatement]
  cases state.interpreter.registry.statement state.scope line with
  | error error => rfl
  | ok effect =>
      cases effect with
      | draw action => rfl
      | bind name value => rfl
      | call name arguments =>
          simp only [bind, Except.bind, Interpreter.perform, Interpreter.callMethod]
          cases state.interpreter.prepare name arguments state.scope with
          | error error => rfl
          | ok call =>
              simp only [pure, Except.pure, runCalls, Option.map_map]
              cases run fuel call.method.block (.start call.locals state.interpreter.enter) with
              | none => rfl
              | some callee =>
                  obtain ⟨result, scope, interpreter⟩ := callee
                  cases result <;> rfl

end Lines

/-- A method and its caller share no variables. What a call does and what it ends with depends on
the scope of the caller only through the values of the arguments. The line of a call that fails
leaves this scope as it was. If the call succeeds, the method has been run from the values of the
arguments under its parameters, and the line binds one name, that under which the method is defined,
to the value that the variables of the method give to it at the end: the one of exactly this name,
or else the one of the smallest name that differs in letter case only, or else zero. The order in
which these variables were created has no part in it. -/
theorem calls_are_isolated (interpreter : Interpreter) (name : Text) (arguments : List Text) :
    (∀ first second : Scope,
      Interpreter.argumentValues first arguments = Interpreter.argumentValues second arguments →
      ∀ fuel, interpreter.callMethod fuel name arguments first =
        interpreter.callMethod fuel name arguments second) ∧
    (∀ (fuel : Nat) (block : Block) (state : State) (line : Text) (attempt : Attempt),
      state.interpreter = interpreter →
      Line.kind line = .statement →
      interpreter.registry.statement state.scope line = .ok (.call name arguments) →
      state.attempt (runCalls fuel) block line = some attempt →
      match attempt.result with
      | .error _ => attempt.state.scope = state.scope
      | .ok () => ∃ method values final after value,
          interpreter.methods.get? name = some method ∧
          Interpreter.argumentValues state.scope arguments = .ok values ∧
          Ends method.block (.start (.ofList (method.parameters.zip values)) interpreter.enter)
            ⟨.ok (), final, after⟩ ∧
          Scope.Yields final method.name value ∧
          attempt.state.scope = state.scope.insert method.name value) ∧
    ∀ bindings others : List (Text × Value), bindings.Perm others →
      (bindings.map Prod.fst).Nodup → ∀ declared value,
        Scope.Yields (.ofList bindings) declared value ↔
          Scope.Yields (.ofList others) declared value := by
  refine ⟨fun first second hvalues fuel ↦ ?_, ?_, fun bindings others hperm hdistinct _ _ ↦ ?_⟩
  · unfold Interpreter.callMethod
    rw [Interpreter.prepare_congr hvalues]
  · rintro fuel block state line attempt rfl hkind hline hattempt
    rw [attempt_statement hkind, hline, Option.map_eq_some_iff] at hattempt
    obtain ⟨outcome, hperform, rfl⟩ := hattempt
    obtain ⟨⟨result, last⟩, hcall, rfl⟩ := Option.map_eq_some_iff.mp hperform
    cases result with
    | error error => rfl
    | ok returned =>
        obtain ⟨declared, value⟩ := returned
        obtain ⟨method, values, final, after, hmethod, hvalues, hends, rfl, hyields, -⟩ :=
          Interpreter.call_method_ok hcall
        exact ⟨method, values, final, after, value, hmethod, hvalues, hends, hyields, rfl⟩
  · rw [NameMap.of_list_perm hperm hdistinct]

/-- A method writes its result under its name in small letters and changes its parameter. The caller
sees the result under the name as it was defined, and none of the variables of the method. -/
theorem calls_are_isolated_of_recasing :
    let method : Method := ⟨"Twice".toList, ["n".toList],
      ⟨#["twice = n + n".toList, "n = 0".toList], 1, ⟨#[none, none], #[none, none]⟩, rfl⟩⟩
    let interpreter := (Interpreter.new {} .standard).define method
    let caller : Scope := NameMap.empty.insert "n".toList (.integer 4)
    let block : Block := ⟨#["call twice(n)".toList], 3, ⟨#[none], #[none]⟩, rfl⟩
    (∀ fuel, interpreter.callMethod fuel "twice".toList ["n".toList] caller =
      interpreter.callMethod fuel "twice".toList ["n".toList]
        (caller.insert "twice".toList (.integer 7))) ∧
    (∃ attempt final value,
      (State.start caller interpreter).attempt (runCalls 3) block "call twice(n)".toList =
        some attempt ∧
      attempt.state.scope.entries.map (fun entry ↦ (entry.1, entry.2.text)) =
        [("Twice".toList, "8".toList), ("n".toList, "4".toList)] ∧
      Scope.Yields final "Twice".toList value ∧
      attempt.state.scope = caller.insert "Twice".toList value) ∧
    ∀ declared value,
      Scope.Yields (.ofList [("twice".toList, .integer 8), ("TWICE".toList, .integer 9)])
          declared value ↔
        Scope.Yields (.ofList [("TWICE".toList, .integer 9), ("twice".toList, .integer 8)])
          declared value := by
  intro method interpreter caller block
  have hvalues : Interpreter.argumentValues caller ["n".toList] = .ok [.integer 4] ∧
      Interpreter.argumentValues (caller.insert "twice".toList (.integer 7)) ["n".toList] =
        .ok [.integer 4] := by
    constructor <;> with_unfolding_all rfl
  have hline : interpreter.registry.statement caller "call twice(n)".toList =
      .ok (.call "twice".toList ["n".toList]) := rfl
  have hcomputed : ((State.start caller interpreter).attempt (runCalls 3) block
      "call twice(n)".toList).map (fun attempt ↦
        (attempt.result.isOk,
          attempt.state.scope.entries.map fun entry ↦ (entry.1, entry.2.text))) =
      some (true, [("Twice".toList, "8".toList), ("n".toList, "4".toList)]) := by
    decide +kernel
  obtain ⟨attempt, hattempt, hafter⟩ := Option.map_eq_some_iff.mp hcomputed
  obtain ⟨hok, hentries⟩ := Prod.mk.inj hafter
  obtain ⟨hsame, hcalled, hordered⟩ := calls_are_isolated interpreter "twice".toList ["n".toList]
  refine ⟨hsame _ _ (hvalues.1.trans hvalues.2.symm), ?_, hordered _ _ (.swap _ _ []) (by decide)⟩
  have hresult := hcalled 3 block (.start caller interpreter) _ attempt rfl rfl hline hattempt
  obtain ⟨result, reached⟩ := attempt
  cases result with
  | error error => cases hok
  | ok finished =>
      obtain ⟨found, values, final, after, value, hfound, -, -, hyields, hscope⟩ := hresult
      obtain rfl : method = found := Option.some.inj hfound
      exact ⟨_, final, value, hattempt, hentries, hyields, hscope⟩

end PenScript
