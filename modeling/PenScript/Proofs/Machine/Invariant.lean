import PenScript.Proofs.Machine.Decision
import PenScript.Proofs.Machine.Failure

/-!
# Invariants of an interpreter

What an interpreter knows of a program are its methods and the recorded errors, and the lines of
blocks change these in two ways only: a header defines a method, and a line that fails is recorded.
`Interpreter.Invariant` lists what a property of interpreters must satisfy to survive both. One step
keeps such a property (`Interpreter.Invariant.execute`), so a whole run does, and it holds at every
point that the machine visits (`Interpreter.Invariant.runs`, `Interpreter.Invariant.visits`).
-/

namespace PenScript

namespace Interpreter

/-- A property of interpreters that the lines of certain blocks keep up, where the methods that are
defined have such blocks for bodies. It is a property of the methods and the recorded errors. -/
structure Invariant (inside : Block → Prop) (holds : Interpreter → Prop) : Prop where
  congr {first : Interpreter} (second : Interpreter) :
    holds first → second.methods = first.methods → second.errors = first.errors → holds second
  /-- The methods that can be called. -/
  body {interpreter : Interpreter} {name : Text} {method : Method} :
    holds interpreter → interpreter.methods.get? name = some method → inside method.block
  /-- A line that defines a method. -/
  define {block : Block} {state : State} {line : Text} {target : Nat} {frames : List Frame}
    {method : Method} :
    inside block → block.lines[state.cursor]? = some line →
    state.decide block line = .ok (.move target frames (.define method)) →
    holds state.interpreter → holds (state.interpreter.define method)
  /-- A line that fails. -/
  record {block : Block} {state : State} {line : Text} (error : Error) :
    inside block → block.lines[state.cursor]? = some line → Line.isSkipped line = false →
    holds state.interpreter → holds (state.noted block line error).interpreter

/-- Calls of methods with such bodies keep the property. -/
def Keeps (calls : Calls) (inside : Block → Prop) (holds : Interpreter → Prop) : Prop :=
  ∀ block scope interpreter outcome, inside block → holds interpreter →
    calls block scope interpreter = some outcome → holds outcome.interpreter

namespace Invariant

variable {inside : Block → Prop} {holds : Interpreter → Prop} {block : Block} {state : State}
  {line : Text}

/-- A change that a line makes keeps the property. -/
theorem apply (h : Invariant inside holds) (hblock : inside block)
    (hline : block.lines[state.cursor]? = some line) (hstate : holds state.interpreter)
    {target : Nat} {frames : List Frame} {change : Change}
    (hdecide : state.decide block line = .ok (.move target frames change)) :
    holds (state.apply target frames change).interpreter := by
  cases change with
  | nothing => exact hstate
  | draw action => exact h.congr _ hstate rfl rfl
  | bind name value => exact hstate
  | define method => exact h.define hblock hline hdecide hstate

/-- The body of a method that is called is such a block, and the property holds at its start. -/
theorem call (h : Invariant inside holds) (hstate : holds state.interpreter)
    {call : Interpreter.Call} (hdecide : state.decide block line = .ok (.call call)) :
    inside call.method.block ∧ holds state.interpreter.enter := by
  obtain ⟨-, name, arguments, -, hprepare⟩ := decide_call hdecide
  exact ⟨h.body hstate (prepare_get hprepare), h.congr _ hstate rfl rfl⟩

/-- Dealing with a failure keeps the property. -/
theorem failed (h : Invariant inside holds) (hblock : inside block)
    (hline : block.lines[state.cursor]? = some line) (hskipped : Line.isSkipped line = false)
    (hstate : holds state.interpreter) (error : Error) :
    match state.failed block line error with
    | .unfinished => True
    | .onward next => holds next.interpreter
    | .ended outcome => holds outcome.interpreter := by
  have hnoted := h.record error hblock hline hskipped hstate
  rcases failed_cases state block line error with ⟨-, hflow⟩ | ⟨-, ⟨-, hflow⟩ | ⟨-, hflow⟩⟩
  · rw [hflow]
    exact hstate
  · rw [hflow]
    exact h.congr _ hnoted rfl rfl
  · rw [hflow]
    dsimp only
    rw [recover_interpreter]
    exact hnoted

/-- One step of the machine keeps the property. -/
theorem execute (h : Invariant inside holds) {calls : Calls} (hcalls : Keeps calls inside holds)
    (hblock : inside block) (hline : block.lines[state.cursor]? = some line)
    (hstate : holds state.interpreter) :
    match state.execute calls block line with
    | .unfinished => True
    | .onward next => holds next.interpreter
    | .ended outcome => holds outcome.interpreter := by
  rw [execute_eq_attempt]
  cases hattempt : state.attempt calls block line with
  | none => exact trivial
  | some attempt =>
      rcases attempt_cases hattempt with ⟨error, hdecide, rfl⟩ |
        ⟨target, frames, change, hdecide, rfl⟩ | ⟨call, callee, hdecide, hcallee, hresult⟩
      · exact h.failed hblock hline (not_skipped_of_error hdecide) hstate error
      · exact h.apply hblock hline hstate hdecide
      · obtain ⟨hbody, hstart⟩ := h.call hstate hdecide
        have hleft : holds callee.interpreter.leave :=
          h.congr _ (hcalls _ _ _ _ hbody hstart hcallee) rfl rfl
        rcases hresult with ⟨-, rfl⟩ | ⟨error, -, rfl⟩
        · exact hleft
        · exact @failed _ _ _ { state with interpreter := callee.interpreter.leave } _ h hblock
            hline (not_skipped_of_call hdecide) hleft error

/-- A run keeps the property. -/
theorem run (h : Invariant inside holds) {fuel : Nat} {outcome : Outcome}
    (hrun : PenScript.run fuel block state = some outcome) (hblock : inside block)
    (hstate : holds state.interpreter) : holds outcome.interpreter := by
  induction fuel generalizing block state outcome with
  | zero => cases hrun
  | succ fuel ih =>
      cases hline : block.lines[state.cursor]? with
      | none =>
          rw [run_past hline] at hrun
          obtain rfl := Option.some.inj hrun
          exact hstate
      | some line =>
          have hcalls : Keeps (runCalls fuel) inside holds :=
            fun _ _ _ _ hbody hstart hcall ↦ ih hcall hbody hstart
          have hstep := h.execute hcalls hblock hline hstate
          rw [run_succ hline] at hrun
          rcases Flow.finish_eq_some hrun with ⟨next, hflow, hrest⟩ | hflow
          · rw [hflow] at hstep
            exact ih hrest hblock hstep
          · rw [hflow] at hstep
            exact hstep

/-- Whatever the machine ends with has the property. -/
theorem ends (h : Invariant inside holds) {outcome : Outcome} (hends : Ends block state outcome)
    (hblock : inside block) (hstate : holds state.interpreter) : holds outcome.interpreter := by
  obtain ⟨fuel, hrun⟩ := hends
  exact h.run hrun hblock hstate

/-- The property holds at every point that the machine visits, and the machine is in one of the
blocks there. -/
theorem visits (h : Invariant inside holds) {current : Block} {place : State}
    (hvisits : Visits block state current place) (hblock : inside block)
    (hstate : holds state.interpreter) : inside current ∧ holds place.interpreter := by
  induction hvisits with
  | here => exact ⟨hblock, hstate⟩
  | @step current place next line fuel _ hline hstep ih =>
      obtain ⟨hcurrent, hplace⟩ := ih
      have hcalls : Keeps (runCalls fuel) inside holds :=
        fun _ _ _ _ hbody hstart hcall ↦ h.run hcall hbody hstart
      have hnext := h.execute hcalls hcurrent hline hplace
      rw [hstep] at hnext
      exact ⟨hcurrent, hnext⟩
  | call _ _ hdecide ih => exact h.call ih.2 hdecide

end Invariant

end Interpreter

end PenScript
