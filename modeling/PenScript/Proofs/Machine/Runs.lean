import PenScript.Proofs.Machine.Simulation

/-!
# Runs as a relation

`Runs block state outcome` says that the machine ends with the outcome, without speaking of fuel. It
has one rule for each way in which a line can lead on, and `ends_iff_runs` says that it is the same
as ending with some amount of fuel. What every run has in common is proved by induction on `Runs`,
with one case for each rule.

A line that fails is dealt with in one of three ways, which `failed_cases` lists. The lemmas after
it say which of them it is.
-/

namespace PenScript

/-- The machine in a block ends with an outcome. -/
inductive Runs : Block → State → Outcome → Prop where
  /-- The machine is past the last line. -/
  | past {block : Block} {state : State} :
      block.lines[state.cursor]? = none →
      Runs block state ⟨.ok (), state.scope, state.interpreter⟩
  /-- The line moves the cursor. -/
  | move {block : Block} {state : State} {line : Text} {target : Nat} {frames : List Frame}
      {change : Change} {outcome : Outcome} :
      block.lines[state.cursor]? = some line →
      state.decide block line = .ok (.move target frames change) →
      Runs block (state.apply target frames change) outcome → Runs block state outcome
  /-- The line calls a method, which ends without an error. -/
  | call {block : Block} {state : State} {line : Text} {call : Interpreter.Call}
      {callee outcome : Outcome} :
      block.lines[state.cursor]? = some line →
      state.decide block line = .ok (.call call) →
      Runs call.method.block (.start call.locals state.interpreter.enter) callee →
      callee.result = .ok () →
      Runs block (state.resume call.method callee.scope callee.interpreter.leave) outcome →
      Runs block state outcome
  /-- The line fails and is passed over. -/
  | recover {block : Block} {state next : State} {line : Text} {error : Error}
      {outcome : Outcome} :
      block.lines[state.cursor]? = some line →
      state.decide block line = .error error →
      state.failed block line error = .onward next →
      Runs block next outcome → Runs block state outcome
  /-- The line fails and ends the run. -/
  | stop {block : Block} {state : State} {line : Text} {error : Error} {outcome : Outcome} :
      block.lines[state.cursor]? = some line →
      state.decide block line = .error error →
      state.failed block line error = .ended outcome → Runs block state outcome
  /-- The line calls a method that ends with an error, and is passed over. -/
  | recoverCall {block : Block} {state next : State} {line : Text} {call : Interpreter.Call}
      {callee outcome : Outcome} {error : Error} :
      block.lines[state.cursor]? = some line →
      state.decide block line = .ok (.call call) →
      Runs call.method.block (.start call.locals state.interpreter.enter) callee →
      callee.result = .error error →
      State.failed { state with interpreter := callee.interpreter.leave } block line error =
        .onward next →
      Runs block next outcome → Runs block state outcome
  /-- The line calls a method that ends with an error, and ends the run. -/
  | stopCall {block : Block} {state : State} {line : Text} {call : Interpreter.Call}
      {callee outcome : Outcome} {error : Error} :
      block.lines[state.cursor]? = some line →
      state.decide block line = .ok (.call call) →
      Runs call.method.block (.start call.locals state.interpreter.enter) callee →
      callee.result = .error error →
      State.failed { state with interpreter := callee.interpreter.leave } block line error =
        .ended outcome →
      Runs block state outcome

section Ends

variable {block : Block} {state : State} {line : Text} {outcome : Outcome}

/-- A run whose next step ends somewhere either goes on from there or ends there. -/
theorem Flow.finish_eq_some {Position : Type} {flow : Flow Position}
    {rest : Position → Option Outcome} (h : flow.finish rest = some outcome) :
    (∃ next, flow = .onward next ∧ rest next = some outcome) ∨ flow = .ended outcome := by
  cases flow with
  | unfinished => cases h
  | onward next => exact .inl ⟨next, rfl, h⟩
  | ended last =>
      obtain rfl : last = outcome := Option.some.inj h
      exact .inr rfl

/-- What the machine ends with on some fuel, it ends with. -/
theorem runs_of_run {fuel : Nat} (h : run fuel block state = some outcome) :
    Runs block state outcome := by
  induction fuel generalizing block state outcome with
  | zero => cases h
  | succ fuel ih =>
      cases hline : block.lines[state.cursor]? with
      | none =>
          rw [run_past hline] at h
          obtain rfl := Option.some.inj h
          exact .past hline
      | some line =>
          rw [run_succ hline, State.execute] at h
          cases hdecide : state.decide block line with
          | error error =>
              rw [hdecide] at h
              rcases Flow.finish_eq_some h with ⟨next, hfailed, hrest⟩ | hfailed
              · exact .recover hline hdecide hfailed (ih hrest)
              · exact .stop hline hdecide hfailed
          | ok decision =>
              rw [hdecide] at h
              cases decision with
              | move target frames change => exact .move hline hdecide (ih h)
              | call call =>
                  rw [State.carryOut, runCalls] at h
                  cases hcall : run fuel call.method.block
                      (.start call.locals state.interpreter.enter) with
                  | none =>
                      rw [hcall] at h
                      cases h
                  | some callee =>
                      simp only [hcall, State.returned] at h
                      cases hresult : callee.result with
                      | ok value =>
                          rw [hresult] at h
                          exact .call hline hdecide (ih hcall) hresult (ih h)
                      | error error =>
                          simp only [hresult] at h
                          rcases Flow.finish_eq_some h with ⟨next, hfailed, hrest⟩ | hfailed
                          · exact .recoverCall hline hdecide (ih hcall) hresult hfailed (ih hrest)
                          · exact .stopCall hline hdecide (ih hcall) hresult hfailed

/-- A step that leads on, before the rest of a run. -/
theorem ends_of_onward {fuel : Nat} {next : State} (hline : block.lines[state.cursor]? = some line)
    (hstep : state.execute (runCalls fuel) block line = .onward next)
    (h : Ends block next outcome) : Ends block state outcome := by
  obtain ⟨more, hrun⟩ := h
  refine ⟨max fuel more + 1, ?_⟩
  rw [run_succ hline,
    execute_within (runCalls_within (Nat.le_max_left fuel more)) hstep (by simp)]
  exact run_mono hrun (Nat.le_max_right fuel more)

/-- A step that ends a run. -/
theorem ends_of_ended {fuel : Nat} (hline : block.lines[state.cursor]? = some line)
    (hstep : state.execute (runCalls fuel) block line = .ended outcome) :
    Ends block state outcome :=
  ⟨fuel + 1, by rw [run_succ hline, hstep]; rfl⟩

/-- What the machine ends with, it ends with on some fuel. -/
theorem Runs.ends (h : Runs block state outcome) : Ends block state outcome := by
  induction h with
  | past hline => exact ⟨1, run_past hline 0⟩
  | move hline hdecide _ ih =>
      exact ends_of_execute hline (fun calls ↦ by rw [State.execute, hdecide, State.carryOut]) ih
  | call hline hdecide _ hresult _ ihcallee ih =>
      obtain ⟨fuel, hcallee⟩ := ihcallee
      refine @ends_of_onward _ _ _ _ fuel _ hline ?_ ih
      simp only [State.execute, hdecide, State.carryOut, runCalls, hcallee, State.returned, hresult]
  | recover hline hdecide hfailed _ ih =>
      refine ends_of_execute hline (fun calls ↦ ?_) ih
      rw [State.execute, hdecide, State.carryOut, hfailed]
  | stop hline hdecide hfailed =>
      refine @ends_of_ended _ _ _ _ 0 hline ?_
      rw [State.execute, hdecide, State.carryOut, hfailed]
  | recoverCall hline hdecide _ hresult hfailed _ ihcallee ih =>
      obtain ⟨fuel, hcallee⟩ := ihcallee
      refine @ends_of_onward _ _ _ _ fuel _ hline ?_ ih
      simp only [State.execute, hdecide, State.carryOut, runCalls, hcallee, State.returned, hresult,
        hfailed]
  | stopCall hline hdecide _ hresult hfailed ihcallee =>
      obtain ⟨fuel, hcallee⟩ := ihcallee
      refine @ends_of_ended _ _ _ _ fuel hline ?_
      simp only [State.execute, hdecide, State.carryOut, runCalls, hcallee, State.returned, hresult,
        hfailed]

/-- The rules of the machine and its fuel say the same. -/
theorem ends_iff_runs : Ends block state outcome ↔ Runs block state outcome :=
  ⟨fun ⟨_, hrun⟩ ↦ runs_of_run hrun, Runs.ends⟩

end Ends

section Failure

variable (state : State) (block : Block) (line : Text) (error : Error)

/-- The machine with the error of the line at its cursor recorded. -/
def State.noted : State :=
  { state with
    interpreter :=
      state.interpreter.record ⟨block.lineNumber state.cursor, Text.trim line, error⟩ }

@[simp] theorem recover_scope : (state.recover block line).scope = state.scope := by
  unfold State.recover
  split <;> rfl

@[simp] theorem recover_interpreter :
    (state.recover block line).interpreter = state.interpreter := by
  unfold State.recover
  split <;> rfl

/-- A line that failed ends the run when its error is fatal or the run is halted already, and then
nothing is recorded. Otherwise its error is recorded, which ends a strict run and no other. -/
theorem failed_cases :
    (error.isFatal = true ∨ state.interpreter.halted = true) ∧
        state.failed block line error = .ended (state.stop error) ∨
      (error.isFatal = false ∧ state.interpreter.halted = false) ∧
        (state.interpreter.options.strict = true ∧ state.failed block line error =
            .ended ⟨.error error, state.scope, (state.noted block line error).interpreter.halt⟩ ∨
          state.interpreter.options.strict = false ∧ state.failed block line error =
            .onward ((state.noted block line error).recover block line)) := by
  unfold State.failed State.settle
  by_cases hstop : (error.isFatal || state.interpreter.halted) = true
  · rw [if_pos hstop]
    exact .inl ⟨Bool.or_eq_true_iff.mp hstop, rfl⟩
  · rw [if_neg hstop]
    rw [Bool.not_eq_true, Bool.or_eq_false_iff] at hstop
    refine .inr ⟨hstop, ?_⟩
    cases hstrict : state.interpreter.options.strict with
    | true =>
        refine .inl ⟨rfl, ?_⟩
        dsimp only [Interpreter.record]
        rw [if_pos hstrict]
        rfl
    | false =>
        refine .inr ⟨rfl, ?_⟩
        dsimp only [Interpreter.record]
        rw [hstrict]
        rfl

variable {state block line error}

/-- A fatal error ends the run and is not recorded, and so does any error once it is halted. -/
theorem failed_of_stop (h : error.isFatal = true ∨ state.interpreter.halted = true) :
    state.failed block line error = .ended (state.stop error) := by
  rcases failed_cases state block line error with ⟨-, hstop⟩ | ⟨⟨hharmless, hrunning⟩, -⟩
  · exact hstop
  · rcases h with hfatal | hhalted
    · cases hharmless.symm.trans hfatal
    · cases hrunning.symm.trans hhalted

/-- Once a run is halted, an error ends it and is not recorded. -/
theorem failed_of_halted (h : state.interpreter.halted = true) :
    state.failed block line error = .ended (state.stop error) :=
  failed_of_stop (.inr h)

/-- The first error of a strict run is recorded and ends it. -/
theorem failed_of_strict (hharmless : error.isFatal = false)
    (hrunning : state.interpreter.halted = false)
    (hstrict : state.interpreter.options.strict = true) :
    state.failed block line error =
      .ended ⟨.error error, state.scope, (state.noted block line error).interpreter.halt⟩ := by
  rcases failed_cases state block line error with
    ⟨hfatal | hhalted, -⟩ | ⟨-, ⟨-, hstop⟩ | ⟨hlenient, -⟩⟩
  · cases hharmless.symm.trans hfatal
  · cases hrunning.symm.trans hhalted
  · exact hstop
  · cases hlenient.symm.trans hstrict

/-- A run that is neither strict nor halted goes on after an error and records it. -/
theorem failed_of_lenient (hharmless : error.isFatal = false)
    (hrunning : state.interpreter.halted = false)
    (hlenient : state.interpreter.options.strict = false) :
    state.failed block line error =
      .onward ((state.noted block line error).recover block line) := by
  rcases failed_cases state block line error with
    ⟨hfatal | hhalted, -⟩ | ⟨-, ⟨hstrict, -⟩ | ⟨-, hnext⟩⟩
  · cases hharmless.symm.trans hfatal
  · cases hrunning.symm.trans hhalted
  · cases hlenient.symm.trans hstrict
  · exact hnext

/-- Only a run that is neither strict nor halted goes on after an error, and only after one that is
not fatal. -/
theorem recovered_of_failed {next : State}
    (hfailed : state.failed block line error = .onward next) :
    error.isFatal = false ∧ state.interpreter.options.strict = false ∧
      next = (state.noted block line error).recover block line := by
  rcases failed_cases state block line error with
    ⟨-, hstop⟩ | ⟨⟨hharmless, -⟩, ⟨-, hstop⟩ | ⟨hlenient, hnext⟩⟩
  · cases hstop.symm.trans hfailed
  · cases hstop.symm.trans hfailed
  · exact ⟨hharmless, hlenient, (Flow.onward.inj (hnext.symm.trans hfailed)).symm⟩

end Failure

end PenScript
