import PenScript.Proofs.Machine.Step

/-!
# What a run leaves alone

Two fields of the interpreter belong to its feeds and not to a run: the number of the next line and
the global variables. `run_with_feed` says that a run neither reads nor changes them. `Regular` is
what a run does with the options and with the mark of a halted run: the options stay, and only a
run that ends with an error leaves the mark.
-/

namespace PenScript

/-- Where a step leads, with a change of the interpreter. -/
def Flow.change (change : Interpreter → Interpreter) : Flow State → Flow State
  | .unfinished => .unfinished
  | .onward next => .onward { next with interpreter := change next.interpreter }
  | .ended outcome => .ended { outcome with interpreter := change outcome.interpreter }

/-- A line that fails is dealt with in the same way after a change of the interpreter that it can
neither see nor undo. -/
theorem failed_change (change : Interpreter → Interpreter)
    (hhalted : ∀ interpreter, (change interpreter).halted = interpreter.halted)
    (hoptions : ∀ interpreter, (change interpreter).options = interpreter.options)
    (hrecord : ∀ interpreter failure,
      (change interpreter).record failure = change (interpreter.record failure))
    (hhalt : ∀ interpreter, (change interpreter).halt = change interpreter.halt) (state : State)
    (block : Block) (line : Text) (error : Error) :
    State.failed { state with interpreter := change state.interpreter } block line error =
      (state.failed block line error).change change := by
  unfold State.failed State.settle
  simp only [hhalted, hrecord, hoptions, hhalt]
  by_cases hstop : (error.isFatal || state.interpreter.halted) = true
  · rw [if_pos hstop, if_pos hstop]
    rfl
  · rw [if_neg hstop, if_neg hstop]
    by_cases hstrict : (state.interpreter.record
        ⟨block.lineNumber state.cursor, Text.trim line, error⟩).options.strict = true
    · rw [if_pos hstrict, if_pos hstrict]
      rfl
    · rw [if_neg hstrict, if_neg hstrict]
      refine congrArg Flow.onward ?_
      unfold State.recover
      split
      · rfl
      · rfl
      · rfl

/-- The interpreter with another next line and other global variables. -/
def Interpreter.withFeed (interpreter : Interpreter) (nextLine : Nat) (globals : Scope) :
    Interpreter :=
  { interpreter with
    nextLine := nextLine
    globals := globals }

/-- The machine with another next line and other global variables. -/
def State.withFeed (state : State) (nextLine : Nat) (globals : Scope) : State :=
  { state with interpreter := state.interpreter.withFeed nextLine globals }

/-- The end of a run with another next line and other global variables. -/
def Outcome.withFeed (outcome : Outcome) (nextLine : Nat) (globals : Scope) : Outcome :=
  { outcome with interpreter := outcome.interpreter.withFeed nextLine globals }

/-- Where a step leads, with another next line and other global variables. -/
def Flow.withFeed (flow : Flow State) (nextLine : Nat) (globals : Scope) : Flow State :=
  match flow with
  | .unfinished => .unfinished
  | .onward next => .onward (next.withFeed nextLine globals)
  | .ended outcome => .ended (outcome.withFeed nextLine globals)

section Feed

variable {block : Block} {state : State} {line : Text} (nextLine : Nat) (globals : Scope)

/-- No decision depends on the next line and the global variables. -/
theorem decide_with_feed :
    (state.withFeed nextLine globals).decide block line = state.decide block line := rfl

/-- A line that fails is dealt with in the same way. -/
theorem failed_with_feed (error : Error) :
    (state.withFeed nextLine globals).failed block line error =
      (state.failed block line error).withFeed nextLine globals := by
  have hchange : (state.withFeed nextLine globals).failed block line error =
      (state.failed block line error).change (·.withFeed nextLine globals) :=
    failed_change (·.withFeed nextLine globals) (fun _ ↦ rfl) (fun _ ↦ rfl) (fun _ _ ↦ rfl)
      (fun _ ↦ rfl) state block line error
  rw [hchange]
  cases state.failed block line error <;> rfl

/-- A step does the same, when the calls in it do. -/
theorem execute_with_feed {calls : Calls}
    (hcalls : ∀ block scope interpreter,
      calls block scope (interpreter.withFeed nextLine globals) =
        (calls block scope interpreter).map (·.withFeed nextLine globals)) :
    (state.withFeed nextLine globals).execute calls block line =
      (state.execute calls block line).withFeed nextLine globals := by
  unfold State.execute
  rw [decide_with_feed]
  cases state.decide block line with
  | error error => exact failed_with_feed nextLine globals error
  | ok decision =>
      cases decision with
      | move target frames change => cases change <;> rfl
      | call call =>
          have hcall := hcalls call.method.block call.locals state.interpreter.enter
          have henter : (state.withFeed nextLine globals).interpreter.enter =
              state.interpreter.enter.withFeed nextLine globals := rfl
          simp only [State.carryOut]
          rw [henter, hcall]
          cases calls call.method.block call.locals state.interpreter.enter with
          | none => rfl
          | some callee =>
              obtain ⟨result, scope, interpreter⟩ := callee
              cases result with
              | ok value => rfl
              | error error =>
                  exact @failed_with_feed block { state with interpreter := interpreter.leave } line
                    nextLine globals error

/-- A run neither reads nor changes the next line and the global variables. -/
theorem run_with_feed (fuel : Nat) :
    run fuel block (state.withFeed nextLine globals) =
      (run fuel block state).map (·.withFeed nextLine globals) := by
  induction fuel generalizing block state with
  | zero => rfl
  | succ fuel ih =>
      have hcursor : (state.withFeed nextLine globals).cursor = state.cursor := rfl
      cases hline : block.lines[state.cursor]? with
      | none =>
          rw [run_past hline, run_past (hcursor ▸ hline)]
          rfl
      | some line =>
          have hcalls : ∀ block scope interpreter,
              runCalls fuel block scope (interpreter.withFeed nextLine globals) =
                (runCalls fuel block scope interpreter).map (·.withFeed nextLine globals) :=
            fun block scope interpreter ↦ @ih block (.start scope interpreter)
          rw [run_succ hline, run_succ (hcursor ▸ hline),
            execute_with_feed nextLine globals hcalls]
          cases state.execute (runCalls fuel) block line with
          | unfinished => rfl
          | onward next => exact ih
          | ended outcome => rfl

end Feed

/-- A run ends with the next line and the global variables that it starts with. -/
theorem with_feed_of_run {fuel : Nat} {block : Block} {state : State} {outcome : Outcome}
    (h : run fuel block state = some outcome) :
    outcome.withFeed state.interpreter.nextLine state.interpreter.globals = outcome := by
  have hsame : run fuel block state = (run fuel block state).map
      (·.withFeed state.interpreter.nextLine state.interpreter.globals) :=
    run_with_feed state.interpreter.nextLine state.interpreter.globals fuel
  rw [h] at hsame
  exact (Option.some.inj hsame).symm

/-- What a run does with the options and with the mark of a halted run. Only in strict mode does an
error that is not fatal end a run. -/
structure Regular (start : Interpreter) (outcome : Outcome) : Prop where
  options : outcome.interpreter.options = start.options
  running : start.halted = false → outcome.result = .ok () → outcome.interpreter.halted = false
  stopped : ∀ error, outcome.result = .error error →
    error.isFatal = true ∨ start.options.strict = true ∨ start.halted = true

section Regular

variable {block : Block} {state : State} {line : Text}

/-- A step keeps the options, and marks no run that goes on as halted. -/
theorem execute_regular {calls : Calls}
    (hcalls : ∀ block scope interpreter outcome, calls block scope interpreter = some outcome →
      Regular interpreter outcome) :
    (∀ next, state.execute calls block line = .onward next →
      next.interpreter.options = state.interpreter.options ∧
        (state.interpreter.halted = false → next.interpreter.halted = false)) ∧
    ∀ outcome, state.execute calls block line = .ended outcome →
      Regular state.interpreter outcome := by
  have hfailed : ∀ error,
      (∀ next, state.failed block line error = .onward next →
        next.interpreter.options = state.interpreter.options ∧
          (state.interpreter.halted = false → next.interpreter.halted = false)) ∧
      ∀ outcome, state.failed block line error = .ended outcome →
        Regular state.interpreter outcome := by
    refine fun error ↦ ⟨fun next h ↦ ?_, fun outcome h ↦ ?_⟩
    · obtain ⟨hoptions, hhalted⟩ := failed_onward h
      exact ⟨hoptions, fun _ ↦ hhalted⟩
    · obtain ⟨hresult, hoptions, hreason⟩ := failed_ended h
      refine ⟨hoptions, fun _ hok ↦ ?_, fun other hother ↦ ?_⟩
      · cases hresult.symm.trans hok
      · obtain rfl : error = other := Except.error.inj (hresult.symm.trans hother)
        exact hreason
  unfold State.execute
  cases state.decide block line with
  | error error => exact hfailed error
  | ok decision =>
      cases decision with
      | move target frames change =>
          refine ⟨fun next h ↦ ?_, fun outcome h ↦ by cases h⟩
          obtain rfl := Flow.onward.inj h
          cases change <;> exact ⟨rfl, id⟩
      | call call =>
          simp only [State.carryOut]
          cases hcall : calls call.method.block call.locals state.interpreter.enter with
          | none =>
              constructor
              · intro next h
                cases h
              · intro outcome h
                cases h
          | some callee =>
              have hregular := hcalls _ _ _ _ hcall
              have hkept : callee.interpreter.leave.options = state.interpreter.options :=
                hregular.options
              simp only [State.returned]
              cases hresult : callee.result with
              | ok value =>
                  refine ⟨fun next h ↦ ?_, fun outcome h ↦ by cases h⟩
                  obtain rfl := Flow.onward.inj h
                  exact ⟨hkept, fun hhalted ↦ hregular.running hhalted hresult⟩
              | error error =>
                  refine ⟨fun next h ↦ ?_, fun outcome h ↦ ?_⟩
                  · obtain ⟨hoptions, hhalted⟩ := failed_onward h
                    exact ⟨hoptions.trans hkept, fun _ ↦ hhalted⟩
                  · -- The error that ends the caller is the one that ended the method.
                    obtain ⟨hlast, hoptions, -⟩ := failed_ended h
                    refine ⟨hoptions.trans hkept, fun _ hok ↦ ?_, fun other hother ↦ ?_⟩
                    · cases hlast.symm.trans hok
                    · obtain rfl : error = other := Except.error.inj (hlast.symm.trans hother)
                      exact hregular.stopped error hresult

/-- Every run is regular. -/
theorem run_regular {fuel : Nat} {outcome : Outcome} (h : run fuel block state = some outcome) :
    Regular state.interpreter outcome := by
  induction fuel generalizing block state outcome with
  | zero => cases h
  | succ fuel ih =>
      cases hline : block.lines[state.cursor]? with
      | none =>
          rw [run_past hline] at h
          obtain rfl := Option.some.inj h
          exact ⟨rfl, fun hhalted _ ↦ hhalted, fun error herror ↦ by cases herror⟩
      | some line =>
          obtain ⟨honward, hended⟩ := @execute_regular block state line (runCalls fuel)
            fun _ _ _ _ hcall ↦ ih hcall
          rw [run_succ hline] at h
          cases hflow : state.execute (runCalls fuel) block line with
          | unfinished =>
              rw [hflow] at h
              cases h
          | onward next =>
              rw [hflow] at h
              obtain ⟨hoptions, hhalted⟩ := honward next hflow
              have hnext := ih h
              refine ⟨hnext.options.trans hoptions, fun hstart ↦ hnext.running (hhalted hstart),
                fun error herror ↦ ?_⟩
              rcases hnext.stopped error herror with hfatal | hstrict | hmark
              · exact .inl hfatal
              · exact .inr (.inl (hoptions ▸ hstrict))
              · cases hstart : state.interpreter.halted with
                | true => exact .inr (.inr rfl)
                | false => cases (hhalted hstart).symm.trans hmark
          | ended last =>
              rw [hflow] at h
              obtain rfl : last = outcome := Option.some.inj h
              exact hended last hflow

end Regular

end PenScript
