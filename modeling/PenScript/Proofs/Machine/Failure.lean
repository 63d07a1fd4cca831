import PenScript.Proofs.Machine.Feeding
import PenScript.Proofs.Machine.Runs

/-!
# Lines that fail

`State.attempt` is a step of the machine before a failure is dealt with: it says whether the line
succeeded and what the machine looks like then. For most lines a failure is found while the line is
being decided, when nothing has happened yet. The exception is the call of a method, whose body may
have done any number of things before an error of it comes back. Outside strict mode no error ever
comes back from a body, because the errors in it are recorded where they arise; so a line that fails
leaves everything as it was (`failing_line_changes_nothing`).
-/

namespace PenScript

/-- Whether a line succeeded, and the machine after it. -/
structure Attempt where
  result : Except Error Unit
  state : State

/-- What the line at the cursor does, before its failure is dealt with. -/
def State.attempt (calls : Calls) (state : State) (block : Block) (line : Text) : Option Attempt :=
  match state.decide block line with
  | .error error => some ⟨.error error, state⟩
  | .ok (.move target frames change) => some ⟨.ok (), state.apply target frames change⟩
  | .ok (.call call) =>
      (calls call.method.block call.locals state.interpreter.enter).map fun callee ↦
        match callee.result with
        | .ok () => ⟨.ok (), state.resume call.method callee.scope callee.interpreter.leave⟩
        | .error error => ⟨.error error, { state with interpreter := callee.interpreter.leave }⟩

/-- The machine goes on where a line has led that succeeded, and deals with one that failed. -/
def Attempt.settle (attempt : Attempt) (block : Block) (line : Text) : Flow State :=
  match attempt.result with
  | .ok () => .onward attempt.state
  | .error error => attempt.state.failed block line error

section Steps

variable {block : Block} {state : State} {line : Text}

/-- A step of the machine attempts the line and then deals with its failure. -/
theorem execute_eq_attempt (calls : Calls) :
    state.execute calls block line =
      match state.attempt calls block line with
      | none => .unfinished
      | some attempt => attempt.settle block line := by
  unfold State.execute State.attempt
  cases state.decide block line with
  | error error => rfl
  | ok decision =>
      cases decision with
      | move target frames change => rfl
      | call call =>
          simp only [State.carryOut]
          cases calls call.method.block call.locals state.interpreter.enter with
          | none => rfl
          | some callee =>
              obtain ⟨result, scope, interpreter⟩ := callee
              cases result <;> rfl

/-- A step that does not wait for a call has attempted the line. -/
theorem attempt_of_execute {calls : Calls} {flow : Flow State}
    (h : state.execute calls block line = flow) (hends : flow ≠ .unfinished) :
    ∃ attempt, state.attempt calls block line = some attempt ∧
      attempt.settle block line = flow := by
  rw [execute_eq_attempt] at h
  cases hattempt : state.attempt calls block line with
  | none =>
      rw [hattempt] at h
      exact absurd h.symm hends
  | some attempt =>
      rw [hattempt] at h
      exact ⟨attempt, rfl, h⟩

/-- An attempt that ends has failed before it did anything, has moved the cursor, or has called a
method, which may have failed. -/
theorem attempt_cases {calls : Calls} {attempt : Attempt}
    (h : state.attempt calls block line = some attempt) :
    (∃ error, state.decide block line = .error error ∧ attempt = ⟨.error error, state⟩) ∨
      (∃ target frames change, state.decide block line = .ok (.move target frames change) ∧
        attempt = ⟨.ok (), state.apply target frames change⟩) ∨
      ∃ call callee, state.decide block line = .ok (.call call) ∧
        calls call.method.block call.locals state.interpreter.enter = some callee ∧
        ((callee.result = .ok () ∧ attempt =
            ⟨.ok (), state.resume call.method callee.scope callee.interpreter.leave⟩) ∨
          ∃ error, callee.result = .error error ∧ attempt =
            ⟨.error error, { state with interpreter := callee.interpreter.leave }⟩) := by
  unfold State.attempt at h
  cases hdecide : state.decide block line with
  | error error =>
      rw [hdecide] at h
      exact .inl ⟨error, rfl, (Option.some.inj h).symm⟩
  | ok decision =>
      rw [hdecide] at h
      cases decision with
      | move target frames change =>
          exact .inr (.inl ⟨target, frames, change, rfl, (Option.some.inj h).symm⟩)
      | call call =>
          obtain ⟨callee, hcallee, rfl⟩ := Option.map_eq_some_iff.mp h
          refine .inr (.inr ⟨call, callee, rfl, hcallee, ?_⟩)
          cases callee.result with
          | ok finished => exact .inl ⟨rfl, rfl⟩
          | error error => exact .inr ⟨error, rfl, rfl⟩

/-- The run is neither strict nor halted. -/
structure Interpreter.Lenient (interpreter : Interpreter) : Prop where
  not_strict : interpreter.options.strict = false
  not_halted : interpreter.halted = false

/-- A method runs in the mode of its caller. -/
theorem Interpreter.Lenient.enter {interpreter : Interpreter} (h : interpreter.Lenient) :
    interpreter.enter.Lenient :=
  ⟨h.not_strict, h.not_halted⟩

/-- A step of a run that is neither strict nor halted leaves it so. -/
theorem Interpreter.Lenient.step (h : state.interpreter.Lenient) {fuel : Nat} {next : State}
    (hstep : state.execute (runCalls fuel) block line = .onward next) :
    next.interpreter.Lenient := by
  have hregular := (@execute_regular block state line (runCalls fuel)
    fun _ _ _ _ hcall ↦ run_regular hcall).1 next hstep
  exact ⟨(congrArg Options.strict hregular.1).trans h.not_strict, hregular.2 h.not_halted⟩

/-- All that a run visits which is neither strict nor halted is so, in every method that is
called. -/
theorem Visits.lenient {current : Block} {place : State} (h : Visits block state current place)
    (hstart : state.interpreter.Lenient) : place.interpreter.Lenient := by
  induction h with
  | here => exact hstart
  | step _ _ hstep ih => exact ih.step hstep
  | call _ _ _ ih => exact ih.enter

/-- No error comes back from a block that is run from its first line, when the run is neither strict
nor halted. -/
theorem Interpreter.Lenient.result_ok {interpreter : Interpreter} (h : interpreter.Lenient)
    {scope : Scope} {outcome : Outcome} (hends : Ends block (.start scope interpreter) outcome) :
    outcome.result = .ok () := by
  cases hresult : outcome.result with
  | ok value => rfl
  | error error =>
      rcases hends.regular.stopped error hresult with hfatal | hstrict | hhalted
      · cases (hends.harmless error hresult).symm.trans hfatal
      · cases h.not_strict.symm.trans hstrict
      · cases h.not_halted.symm.trans hhalted

/-- A line that fails in a run that is neither strict nor halted has failed before it did
anything. -/
theorem decide_of_attempt (h : state.interpreter.Lenient) {fuel : Nat} {error : Error}
    {after : State}
    (hfails : state.attempt (runCalls fuel) block line = some ⟨.error error, after⟩) :
    state.decide block line = .error error ∧ after = state := by
  rcases attempt_cases hfails with ⟨found, hdecide, hattempt⟩ | ⟨_, _, _, -, hattempt⟩ |
    ⟨call, callee, -, hcallee, ⟨-, hattempt⟩ | ⟨found, hresult, -⟩⟩
  · cases hattempt
    exact ⟨hdecide, rfl⟩
  · cases hattempt
  · cases hattempt
  · cases hresult.symm.trans (h.enter.result_ok ⟨fuel, hcallee⟩)

end Steps

/-- During a feed that is not strict, every line that fails, in whatever method it stands, leaves
the machine exactly as it was. It has failed before anything was done, and if it is a call then no
line of the method has been run. All that comes of it is the one error that is recorded, and the
cursor and the frames from which the run goes on. -/
theorem failing_line_changes_nothing {interpreter : Interpreter} {lines : List Text}
    {block current : Block} {state after : State} {line : Text} {fuel : Nat} {error : Error}
    (hmode : interpreter.options.strict = false)
    (_ : Block.ofLines lines.toArray interpreter.nextLine = .ok block)
    (hvisits : Visits block (.start interpreter.globals (interpreter.ready lines.length)) current
      state)
    (hline : current.lines[state.cursor]? = some line)
    (hfails : state.attempt (runCalls fuel) current line = some ⟨.error error, after⟩) :
    after = state ∧ state.decide current line = .error error ∧
      ∃ next, state.execute (runCalls fuel) current line = .onward next ∧
        next.scope = state.scope ∧
        next.interpreter = state.interpreter.record
          ⟨current.lineNumber state.cursor, Text.trim line, error⟩ := by
  have hlenient : state.interpreter.Lenient := hvisits.lenient ⟨hmode, rfl⟩
  obtain ⟨hdecide, rfl⟩ := decide_of_attempt hlenient hfails
  have hharmless := visits_harmless hvisits hline error hdecide
  refine ⟨rfl, hdecide, (after.noted current line error).recover current line, ?_, ?_, ?_⟩
  · rw [execute_eq_attempt, hfails]
    exact failed_of_lenient hharmless hlenient.not_halted hlenient.not_strict
  · rw [recover_scope]
    rfl
  · rw [recover_interpreter]
    rfl

/-- A call with too few arguments fails, and the method is not run. -/
theorem failing_line_changes_nothing_of_call :
    ∃ (block : Block) (state next : State),
      Block.ofLines ["method m(a)".toList, "clear".toList, "endmethod".toList,
        "call m".toList].toArray 1 = .ok block ∧
      Visits block (.start .empty ((Interpreter.new {} .standard).ready 4)) block state ∧
      state.decide block "call m".toList = .error (.argumentCount "m".toList 1 0) ∧
      state.execute (runCalls 0) block "call m".toList = .onward next ∧
      next.scope = state.scope ∧
      next.interpreter = state.interpreter.record
        ⟨4, "call m".toList, .argumentCount "m".toList 1 0⟩ := by
  let ready := State.start .empty ((Interpreter.new {} .standard).ready 4)
  obtain ⟨block, state, hblock, hheader, hdefine, hline, hfails, hnumber⟩ :
      ∃ (block : Block) (state : State),
        Block.ofLines ["method m(a)".toList, "clear".toList, "endmethod".toList,
          "call m".toList].toArray 1 = .ok block ∧
        block.lines[ready.cursor]? = some "method m(a)".toList ∧
        ready.execute (runCalls 0) block "method m(a)".toList = .onward state ∧
        block.lines[state.cursor]? = some "call m".toList ∧
        state.attempt (runCalls 0) block "call m".toList =
          some ⟨.error (.argumentCount "m".toList 1 0), state⟩ ∧
        block.lineNumber state.cursor = 4 :=
    ⟨_, _, rfl, rfl, rfl, rfl, rfl, rfl⟩
  have hvisits : Visits block ready block state := .step .here hheader hdefine
  obtain ⟨-, hdecide, next, hnext, hscope, hrecorded⟩ :=
    @failing_line_changes_nothing (.new {} .standard) _ _ _ _ _ _ _ _ rfl hblock hvisits hline
      hfails
  rw [hnumber] at hrecorded
  exact ⟨block, state, next, hblock, hvisits, hdecide, hnext, hscope, hrecorded⟩

end PenScript
