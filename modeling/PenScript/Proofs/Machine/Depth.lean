import PenScript.Proofs.Machine.Call

/-!
# The depth of calls

The interpreter counts the method bodies that are being run by hand: a call adds one before the
body and takes it away after it, whether the body ends with an error or not. `run_call_depth` says
that a run leaves the count as it found it, and from this it follows that the count is right at
every point of a run: `Interpreter.Active` keeps the methods whose bodies are being run, innermost
first, and `Interpreter.Active.call_depth` says that the count is their number.
-/

namespace PenScript

section Runs

variable {block : Block} {state : State} {line : Text}

/-- Calls that leave the depth of calls as they found it. -/
def Calls.KeepDepth (calls : Calls) : Prop :=
  ∀ block scope interpreter outcome, calls block scope interpreter = some outcome →
    outcome.interpreter.callDepth = interpreter.callDepth

/-- A body that is left at the depth at which it was entered has not changed the depth. -/
theorem leave_call_depth {caller callee : Interpreter}
    (h : callee.callDepth = caller.enter.callDepth) :
    callee.leave.callDepth = caller.callDepth := by
  have henter : caller.enter.callDepth = caller.callDepth + 1 := rfl
  show callee.callDepth - 1 = caller.callDepth
  omega

/-- A line leaves the depth of calls as it found it, whether it succeeds or fails. -/
theorem attempt_call_depth {calls : Calls} (hcalls : calls.KeepDepth) {attempt : Attempt}
    (h : state.attempt calls block line = some attempt) :
    attempt.state.interpreter.callDepth = state.interpreter.callDepth := by
  rcases attempt_cases h with ⟨error, -, rfl⟩ | ⟨target, frames, change, -, rfl⟩ |
    ⟨call, callee, -, hcallee, ⟨-, rfl⟩ | ⟨error, -, rfl⟩⟩
  · rfl
  · cases change <;> rfl
  · exact leave_call_depth (hcalls _ _ _ _ hcallee)
  · exact leave_call_depth (hcalls _ _ _ _ hcallee)

/-- Wherever a step leads, the depth of calls is the given one. -/
def Flow.HasDepth (depth : Nat) : Flow State → Prop
  | .unfinished => True
  | .onward next => next.interpreter.callDepth = depth
  | .ended outcome => outcome.interpreter.callDepth = depth

/-- Dealing with a failure leaves the depth of calls as it is. -/
theorem failed_call_depth (error : Error) :
    (state.failed block line error).HasDepth state.interpreter.callDepth := by
  rcases failed_cases state block line error with ⟨-, hflow⟩ | ⟨-, ⟨-, hflow⟩ | ⟨-, hflow⟩⟩
  · rw [hflow]
    rfl
  · rw [hflow]
    rfl
  · rw [hflow]
    show ((state.noted block line error).recover block line).interpreter.callDepth = _
    rw [recover_interpreter]
    rfl

/-- A step of the machine leaves the depth of calls as it found it. -/
theorem execute_call_depth {calls : Calls} (hcalls : calls.KeepDepth) :
    (state.execute calls block line).HasDepth state.interpreter.callDepth := by
  rw [execute_eq_attempt]
  cases hattempt : state.attempt calls block line with
  | none => exact trivial
  | some attempt =>
      rw [← attempt_call_depth hcalls hattempt]
      obtain ⟨result, after⟩ := attempt
      cases result with
      | ok finished => rfl
      | error error => exact failed_call_depth error

/-- A run leaves the depth of calls as it found it, whether it ends with an error or not. -/
theorem run_call_depth {fuel : Nat} {outcome : Outcome} (h : run fuel block state = some outcome) :
    outcome.interpreter.callDepth = state.interpreter.callDepth := by
  induction fuel generalizing block state outcome with
  | zero => cases h
  | succ fuel ih =>
      have hcalls : (runCalls fuel).KeepDepth := fun _ _ _ _ hcall ↦ ih hcall
      cases hline : block.lines[state.cursor]? with
      | none =>
          rw [run_past hline] at h
          obtain rfl := Option.some.inj h
          rfl
      | some line =>
          have hstep := @execute_call_depth block state line _ hcalls
          rw [run_succ hline] at h
          rcases Flow.finish_eq_some h with ⟨next, hflow, hrest⟩ | hflow
          · rw [hflow] at hstep
            exact (ih hrest).trans hstep
          · rw [hflow] at hstep
            exact hstep

/-- The methods that a run calls leave the depth of calls as they found it. -/
theorem runCalls_keep_depth (fuel : Nat) : (runCalls fuel).KeepDepth :=
  fun _ _ _ _ hcall ↦ run_call_depth hcall

end Runs

namespace Interpreter

variable {interpreter : Interpreter}

/-- What a caller gets from the end of the body of a method. -/
def returning (method : Method) (callee : Outcome) : CallOutcome where
  result := callee.result.map fun () ↦ (method.name, method.result callee.scope)
  interpreter := callee.interpreter.leave

/-- A call whose arguments have values runs the body of the method while the calls are not nested as
deep as they may be, and otherwise fails without running anything. -/
theorem call_method_eq {name : Text} {arguments : List Text} {caller : Scope} {method : Method}
    {values : List Value} (hmethod : interpreter.methods.get? name = some method)
    (hcount : method.parameters.length = arguments.length)
    (hvalues : argumentValues caller arguments = .ok values) (fuel : Nat) :
    interpreter.callMethod fuel name arguments caller =
      if interpreter.callDepth < interpreter.options.maxCallDepth then
        (run fuel method.block
          (.start (.ofList (method.parameters.zip values)) interpreter.enter)).map
            (returning method)
      else some ⟨.error (.recursionLimit interpreter.options.maxCallDepth), interpreter⟩ := by
  unfold callMethod
  rw [prepare_eq hmethod hcount, hvalues]
  simp only [Except.bind]
  by_cases hdepth : interpreter.callDepth < interpreter.options.maxCallDepth
  · rw [if_pos hdepth, if_pos hdepth]
    rfl
  · rw [if_neg hdepth, if_neg hdepth]

/-- A call leaves the depth of calls as it found it. -/
theorem call_method_call_depth {fuel : Nat} {name : Text} {arguments : List Text} {caller : Scope}
    {outcome : CallOutcome}
    (h : interpreter.callMethod fuel name arguments caller = some outcome) :
    outcome.interpreter.callDepth = interpreter.callDepth := by
  unfold callMethod at h
  cases hprepare : interpreter.prepare name arguments caller with
  | error error =>
      rw [hprepare] at h
      obtain rfl := Option.some.inj h
      rfl
  | ok call =>
      rw [hprepare] at h
      obtain ⟨callee, hrun, rfl⟩ := Option.map_eq_some_iff.mp h
      exact leave_call_depth (run_call_depth hrun)

/-- Running a block leaves the depth of calls as it found it, and so does refusing to. -/
theorem execute_block_call_depth {fuel firstLine : Nat} {lines : List Text} {scope : Scope}
    {outcome : Outcome} (h : interpreter.executeBlock fuel lines firstLine scope = some outcome) :
    outcome.interpreter.callDepth = interpreter.callDepth := by
  unfold executeBlock at h
  cases hblock : Block.ofLines lines.toArray firstLine with
  | error cause =>
      rw [hblock] at h
      obtain rfl := Option.some.inj h
      rfl
  | ok block =>
      rw [hblock] at h
      exact run_call_depth h

/-- A feed leaves the depth of calls as it found it. -/
theorem feed_call_depth {fuel : Nat} {lines : List Text} {outcome : RunOutcome}
    (h : interpreter.feed fuel lines = some outcome) :
    outcome.interpreter.callDepth = interpreter.callDepth := by
  unfold feed at h
  obtain ⟨last, hlast, rfl⟩ := Option.map_eq_some_iff.mp h
  exact @execute_block_call_depth { interpreter with
    nextLine := interpreter.nextLine + lines.length
    halted := false } _ _ _ _ _ hlast

/-- An interpreter as its users may have it: a new one, after any operations on it. The canvas
belongs to the user, who may put anything on it. -/
inductive Obtained : Interpreter → Prop where
  | new (options : Options) (registry : Registry) : Obtained (.new options registry)
  | reset {interpreter : Interpreter} : Obtained interpreter → Obtained interpreter.reset
  | setStrict {interpreter : Interpreter} (strict : Bool) :
      Obtained interpreter → Obtained (interpreter.setStrict strict)
  | canvas {interpreter : Interpreter} (canvas : Canvas) :
      Obtained interpreter → Obtained { interpreter with canvas := canvas }
  | feed {interpreter : Interpreter} {fuel : Nat} {lines : List Text} {outcome : RunOutcome} :
      Obtained interpreter → interpreter.feed fuel lines = some outcome →
      Obtained outcome.interpreter
  | executeBlock {interpreter : Interpreter} {fuel firstLine : Nat} {lines : List Text}
      {scope : Scope} {outcome : Outcome} :
      Obtained interpreter →
      interpreter.executeBlock fuel lines firstLine scope = some outcome →
      Obtained outcome.interpreter
  | callMethod {interpreter : Interpreter} {fuel : Nat} {name : Text} {arguments : List Text}
      {caller : Scope} {outcome : CallOutcome} :
      Obtained interpreter →
      interpreter.callMethod fuel name arguments caller = some outcome →
      Obtained outcome.interpreter

/-- Between two operations no method body is being run. -/
theorem Obtained.call_depth (h : interpreter.Obtained) : interpreter.callDepth = 0 := by
  induction h with
  | new options registry => rfl
  | reset _ _ => rfl
  | setStrict strict _ ih => exact ih
  | canvas canvas _ ih => exact ih
  | feed _ hfeed ih => exact (feed_call_depth hfeed).trans ih
  | executeBlock _ hblock ih => exact (execute_block_call_depth hblock).trans ih
  | callMethod _ hcall ih => exact (call_method_call_depth hcall).trans ih

/-- The interpreter is being run, and the machine is in a block while the bodies of some methods are
being run, innermost first. -/
inductive Active (interpreter : Interpreter) : List Method → Block → State → Prop where
  | feed {lines : List Text} {block : Block} :
      Block.ofLines lines.toArray interpreter.nextLine = .ok block →
      Active interpreter [] block (.start interpreter.globals (interpreter.ready lines.length))
  | executeBlock {lines : List Text} {firstLine : Nat} {block : Block} {scope : Scope} :
      Block.ofLines lines.toArray firstLine = .ok block →
      Active interpreter [] block (.start scope interpreter)
  | callMethod {name : Text} {arguments : List Text} {caller : Scope} {call : Call} :
      interpreter.prepare name arguments caller = .ok call →
      Active interpreter [call.method] call.method.block (.start call.locals interpreter.enter)
  | step {methods : List Method} {block : Block} {state next : State} {line : Text} {fuel : Nat} :
      Active interpreter methods block state → block.lines[state.cursor]? = some line →
      state.execute (runCalls fuel) block line = .onward next →
      Active interpreter methods block next
  | call {methods : List Method} {block : Block} {state : State} {line : Text} {call : Call} :
      Active interpreter methods block state → block.lines[state.cursor]? = some line →
      state.decide block line = .ok (.call call) →
      Active interpreter (call.method :: methods) call.method.block
        (.start call.locals state.interpreter.enter)

/-- A run keeps the options at all its points. -/
theorem Active.options {methods : List Method} {block : Block} {state : State}
    (h : interpreter.Active methods block state) :
    state.interpreter.options = interpreter.options := by
  induction h with
  | feed _ => rfl
  | executeBlock _ => rfl
  | callMethod _ => rfl
  | @step methods block state next line fuel _ _ hstep ih =>
      have hregular := (@execute_regular block state line (runCalls fuel)
        fun _ _ _ _ hcall ↦ run_regular hcall).1 next hstep
      exact hregular.1.trans ih
  | call _ _ _ ih => exact ih

/-- The interpreter counts the method bodies that are being run, and they are never more than there
may be. -/
theorem Active.call_depth {methods : List Method} {block : Block} {state : State}
    (h : interpreter.Active methods block state) (hclean : interpreter.callDepth = 0) :
    state.interpreter.callDepth = methods.length ∧
      methods.length ≤ interpreter.options.maxCallDepth := by
  induction h with
  | feed _ => exact ⟨hclean, Nat.zero_le _⟩
  | executeBlock _ => exact ⟨hclean, Nat.zero_le _⟩
  | callMethod hprepare =>
      obtain ⟨-, -, hdepth, -⟩ := prepare_ok hprepare
      have henter : interpreter.enter.callDepth = interpreter.callDepth + 1 := rfl
      rw [hclean] at hdepth henter
      exact ⟨henter, hdepth⟩
  | @step methods block state next line fuel _ _ hstep ih =>
      have hkept := @execute_call_depth block state line _ (runCalls_keep_depth fuel)
      rw [hstep] at hkept
      exact ⟨Eq.trans hkept ih.1, ih.2⟩
  | @call methods block state line call hactive _ hdecide ih =>
      obtain ⟨-, name, arguments, -, hprepare⟩ := decide_call hdecide
      obtain ⟨-, -, hdepth, -⟩ := prepare_ok hprepare
      rw [hactive.options, ih.1] at hdepth
      have henter : state.interpreter.enter.callDepth = state.interpreter.callDepth + 1 := rfl
      rw [ih.1] at henter
      exact ⟨henter, hdepth⟩

/-- At every point of every run and at its end, the depth of calls is the number of method bodies
that are being run, and at most the greatest number allowed; between runs it is zero. A call of a
method with the right number of arguments, which all have values, runs the body when there is room
for it. Otherwise it fails with the limit, and nothing is run or changed. Calls, blocks and feeds
leave the depth as they found it, however they end. -/
theorem call_depth_counts_bodies (interpreter : Interpreter) :
    (interpreter.Obtained → interpreter.callDepth = 0 ∧
      ∀ methods block state, interpreter.Active methods block state →
        state.interpreter.callDepth = methods.length ∧
          methods.length ≤ interpreter.options.maxCallDepth ∧
          ∀ outcome, Ends block state outcome →
            outcome.interpreter.callDepth = methods.length) ∧
    (∀ name arguments caller method values, interpreter.methods.get? name = some method →
      method.parameters.length = arguments.length →
      argumentValues caller arguments = .ok values → ∀ fuel,
        interpreter.callMethod fuel name arguments caller =
          if interpreter.callDepth < interpreter.options.maxCallDepth then
            (run fuel method.block
              (.start (.ofList (method.parameters.zip values)) interpreter.enter)).map
                (returning method)
          else some ⟨.error (.recursionLimit interpreter.options.maxCallDepth), interpreter⟩) ∧
    (∀ fuel name arguments caller outcome,
      interpreter.callMethod fuel name arguments caller = some outcome →
        outcome.interpreter.callDepth = interpreter.callDepth) ∧
    (∀ fuel lines firstLine scope outcome,
      interpreter.executeBlock fuel lines firstLine scope = some outcome →
        outcome.interpreter.callDepth = interpreter.callDepth) ∧
    ∀ fuel lines outcome, interpreter.feed fuel lines = some outcome →
      outcome.interpreter.callDepth = interpreter.callDepth := by
  refine ⟨fun hobtained ↦ ⟨hobtained.call_depth, fun methods block state hactive ↦ ?_⟩, ?_, ?_, ?_,
    fun fuel lines outcome hfeed ↦ feed_call_depth hfeed⟩
  · obtain ⟨hdepth, hle⟩ := hactive.call_depth hobtained.call_depth
    exact ⟨hdepth, hle, fun outcome ⟨fuel, hrun⟩ ↦ (run_call_depth hrun).trans hdepth⟩
  · intro name arguments caller method values hmethod hcount hvalues fuel
    exact call_method_eq hmethod hcount hvalues fuel
  · intro fuel name arguments caller outcome hcall
    exact call_method_call_depth hcall
  · intro fuel lines firstLine scope outcome hblock
    exact execute_block_call_depth hblock

/-- A method that calls itself is stopped by the limit in its second body when there may be one. -/
theorem call_depth_counts_bodies_of_recursion :
    ∃ (interpreter : Interpreter) (method : Method),
      interpreter.Obtained ∧ interpreter.callDepth = 0 ∧
      interpreter.errors.toList.map (fun failure ↦ (failure.line, failure.error.message)) =
        [(2, (Error.recursionLimit 1).message)] ∧
      interpreter.Active [method] method.block (.start .empty interpreter.enter) ∧
      interpreter.enter.callDepth = 1 ∧
      ∀ fuel, interpreter.enter.callMethod fuel "m".toList [] .empty =
        some ⟨.error (.recursionLimit 1), interpreter.enter⟩ := by
  obtain ⟨fed, method, hfeed, herrors, hprepare, hmethod, hcount, hoptions⟩ :
      ∃ fed method, (Interpreter.new ⟨false, 1⟩ .standard).feed 8
          ["method m".toList, "call m".toList, "endmethod".toList, "call m".toList] = some fed ∧
        fed.interpreter.errors.toList.map (fun failure ↦ (failure.line, failure.error.message)) =
          [(2, (Error.recursionLimit 1).message)] ∧
        fed.interpreter.prepare "m".toList [] .empty = .ok ⟨method, .empty⟩ ∧
        fed.interpreter.enter.methods.get? "m".toList = some method ∧
        method.parameters.length = 0 ∧ fed.interpreter.enter.options.maxCallDepth = 1 :=
    ⟨_, _, rfl, rfl, rfl, rfl, rfl, rfl⟩
  have hobtained := (Obtained.new ⟨false, 1⟩ .standard).feed hfeed
  have hactive := Active.callMethod hprepare
  obtain ⟨hclean, hpoints⟩ := (call_depth_counts_bodies fed.interpreter).1 hobtained
  have hdepth : fed.interpreter.enter.callDepth = 1 := (hpoints _ _ _ hactive).1
  refine ⟨fed.interpreter, method, hobtained, hclean, herrors, hactive, hdepth, fun fuel ↦ ?_⟩
  have hcall := (call_depth_counts_bodies fed.interpreter.enter).2.1 "m".toList [] .empty method []
    hmethod hcount rfl fuel
  rw [hdepth, hoptions, if_neg (Nat.lt_irrefl 1)] at hcall
  exact hcall

end Interpreter

end PenScript
