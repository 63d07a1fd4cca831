import PenScript.Proofs.Program.Execution

/-!
# Steps of the machine

`State.execute` is one step of the machine, with the calls of methods as a parameter, and `run_succ`
says that `run` takes one step after another. Then there is one lemma for each kind of line. Such a
lemma says what the step does to a world that is placed at the line under some frames, in the words
of the structured execution: `World.test`, `World.count`, `World.advance`, `World.define`.

A block whose opener fails, or whose closer fails, is left with the frames that were there before
it was entered. This is the whole content of `State.recover`.
-/

namespace PenScript

/-- The machine at a line under some frames. -/
def World.place (world : World) (cursor : Nat) (frames : List Frame) : State :=
  ⟨cursor, frames, world.scope, world.interpreter⟩

/-- The block of the innermost frame, if there is one, opens before the line. -/
def Outside (frames : List Frame) (cursor : Nat) : Prop :=
  ∀ frame ∈ frames.head?, frame.opener < cursor

/-- Every line is outside when no block is being run. -/
theorem Outside.nil (cursor : Nat) : Outside [] cursor := by
  intro frame hframe
  cases hframe

namespace State

/-- The machine deals with a line that failed. -/
def failed (state : State) (block : Block) (line : Text) (error : Error) : Flow State :=
  match state.settle block line error with
  | .ok recovered => .onward recovered
  | .error outcome => .ended outcome

/-- The machine goes on after the call of a method. -/
def returned (state : State) (block : Block) (line : Text) (method : Method) (callee : Outcome) :
    Flow State :=
  match callee.result with
  | .ok () => .onward (state.resume method callee.scope callee.interpreter.leave)
  | .error error =>
      failed { state with interpreter := callee.interpreter.leave } block line error

/-- Carries out what the line at the cursor does. -/
def carryOut (calls : Calls) (state : State) (block : Block) (line : Text) :
    Except Error Decision → Flow State
  | .ok (.move target frames change) => .onward (state.apply target frames change)
  | .ok (.call call) =>
      match calls call.method.block call.locals state.interpreter.enter with
      | none => .unfinished
      | some callee => state.returned block line call.method callee
  | .error error => state.failed block line error

/-- One step of the machine at a line. -/
def execute (calls : Calls) (state : State) (block : Block) (line : Text) : Flow State :=
  state.carryOut calls block line (state.decide block line)

end State

/-- Method bodies are run by the machine. -/
def runCalls (fuel : Nat) : Calls :=
  fun block scope interpreter ↦ run fuel block (.start scope interpreter)

/-- The machine past the last line has ended. -/
theorem run_past {block : Block} {state : State} (h : block.lines[state.cursor]? = none)
    (fuel : Nat) : run (fuel + 1) block state = some ⟨.ok (), state.scope, state.interpreter⟩ := by
  rw [run, h]

/-- The machine at a line takes a step and runs on. -/
theorem run_succ {block : Block} {state : State} {line : Text}
    (h : block.lines[state.cursor]? = some line) (fuel : Nat) :
    run (fuel + 1) block state =
      (state.execute (runCalls fuel) block line).finish (run fuel block) := by
  rw [run, h]
  cases hdecide : state.decide block line with
  | error error =>
      simp only [State.execute, hdecide, State.carryOut, State.failed]
      cases state.settle block line error <;> rfl
  | ok decision =>
      cases decision with
      | move target frames change => simp only [State.execute, hdecide, State.carryOut, Flow.finish]
      | call call =>
          simp only [State.execute, hdecide, State.carryOut, runCalls]
          cases run fuel call.method.block (.start call.locals state.interpreter.enter) with
          | none => rfl
          | some callee =>
              obtain ⟨result, scope, interpreter⟩ := callee
              cases result with
              | ok value => rfl
              | error error =>
                  simp only [State.returned, State.failed]
                  cases State.settle { state with interpreter := interpreter.leave } block line
                    error <;> rfl

/-- The calls that end by one meaning end in the same way by another. -/
def Calls.Within (calls more : Calls) : Prop :=
  ∀ block scope interpreter outcome, calls block scope interpreter = some outcome →
    more block scope interpreter = some outcome

/-- A step that ends ends in the same way when more calls end. -/
theorem execute_within {calls more : Calls} (h : calls.Within more) {state : State} {block : Block}
    {line : Text} {flow : Flow State} (hflow : state.execute calls block line = flow)
    (hends : flow ≠ .unfinished) : state.execute more block line = flow := by
  unfold State.execute at hflow ⊢
  cases hdecide : state.decide block line with
  | error error =>
      rw [hdecide] at hflow
      exact hflow
  | ok decision =>
      rw [hdecide] at hflow
      cases decision with
      | move target frames change => exact hflow
      | call call =>
          simp only [State.carryOut] at hflow ⊢
          cases hcall : calls call.method.block call.locals state.interpreter.enter with
          | none =>
              rw [hcall] at hflow
              exact absurd hflow.symm hends
          | some callee =>
              rw [hcall] at hflow
              rw [h _ _ _ _ hcall]
              exact hflow

/-- A run that ends ends in the same way with more fuel. -/
theorem run_mono {fuel more : Nat} {block : Block} {state : State} {outcome : Outcome}
    (h : run fuel block state = some outcome) (hle : fuel ≤ more) :
    run more block state = some outcome := by
  induction fuel generalizing more block state outcome with
  | zero => cases h
  | succ fuel ih =>
      obtain ⟨more, rfl⟩ : ∃ less, more = less + 1 := ⟨more - 1, by omega⟩
      -- A method that ends on less fuel ends in the same way on more, so the step is the same.
      have hwithin : (runCalls fuel).Within (runCalls more) := by
        intro callee scope interpreter last hcall
        exact ih hcall (by omega)
      cases hline : block.lines[state.cursor]? with
      | none =>
          rw [run_past hline] at h ⊢
          exact h
      | some line =>
          rw [run_succ hline] at h ⊢
          cases hflow : state.execute (runCalls fuel) block line with
          | unfinished =>
              rw [hflow] at h
              cases h
          | onward next =>
              rw [execute_within hwithin hflow (by simp)]
              rw [hflow] at h
              exact ih h (by omega)
          | ended last =>
              rw [execute_within hwithin hflow (by simp)]
              rw [hflow] at h
              exact h

section Lines

variable {block : Block} {line : Text} {kind : BlockKind} {cursor : Nat} {frames : List Frame}

/-- The line of a failure is dealt with by `World.fail`, and the machine recovers if it goes on. -/
theorem failed_place (world : World) (error : Error) :
    (world.place cursor frames).failed block line error =
      (world.fail (block.lineNumber cursor) line error).map fun world ↦
        (world.place cursor frames).recover block line := by
  unfold State.failed State.settle World.fail World.place
  dsimp only
  by_cases hstop : (error.isFatal || world.interpreter.halted) = true
  · rw [if_pos hstop, if_pos hstop]
    rfl
  · rw [if_neg hstop, if_neg hstop]
    by_cases hstrict : (world.interpreter.record
        ⟨block.lineNumber cursor, Text.trim line, error⟩).options.strict = true
    · rw [if_pos hstrict, if_pos hstrict]
      rfl
    · rw [if_neg hstrict, if_neg hstrict]
      rfl

/-- A line that failed ends the run only when its error is fatal or the run is strict or halted. -/
theorem failed_ended {state : State} {error : Error} {outcome : Outcome}
    (h : state.failed block line error = .ended outcome) :
    outcome.result = .error error ∧ outcome.interpreter.options = state.interpreter.options ∧
      (error.isFatal = true ∨ state.interpreter.options.strict = true ∨
        state.interpreter.halted = true) := by
  unfold State.failed State.settle at h
  by_cases hstop : (error.isFatal || state.interpreter.halted) = true
  · rw [if_pos hstop] at h
    obtain rfl := Flow.ended.inj h
    refine ⟨rfl, rfl, ?_⟩
    rcases Bool.or_eq_true_iff.mp hstop with hfatal | hhalted
    · exact .inl hfatal
    · exact .inr (.inr hhalted)
  · rw [if_neg hstop] at h
    dsimp only [Interpreter.record] at h
    by_cases hstrict : state.interpreter.options.strict = true
    · rw [if_pos hstrict] at h
      obtain rfl := Flow.ended.inj h
      exact ⟨rfl, rfl, .inr (.inl hstrict)⟩
    · rw [if_neg hstrict] at h
      cases h

/-- A line that failed is passed over only when the run is not halted. -/
theorem failed_onward {state next : State} {error : Error}
    (h : state.failed block line error = .onward next) :
    next.interpreter.options = state.interpreter.options ∧ next.interpreter.halted = false := by
  unfold State.failed State.settle at h
  by_cases hstop : (error.isFatal || state.interpreter.halted) = true
  · rw [if_pos hstop] at h
    cases h
  · rw [if_neg hstop] at h
    dsimp only [Interpreter.record] at h
    by_cases hstrict : state.interpreter.options.strict = true
    · rw [if_pos hstrict] at h
      cases h
    · rw [if_neg hstrict] at h
      obtain rfl := Flow.onward.inj h
      have hhalted : state.interpreter.halted = false := by
        cases hmark : state.interpreter.halted with
        | false => rfl
        | true =>
            rw [hmark, Bool.or_true] at hstop
            exact absurd rfl hstop
      unfold State.recover
      split
      · exact ⟨rfl, hhalted⟩
      · exact ⟨rfl, hhalted⟩
      · exact ⟨rfl, hhalted⟩

/-- A line that neither opens nor closes a block is passed over. -/
theorem recover_plain (hopens : ∀ kind, Line.kind line ≠ .opener kind)
    (hcloses : ∀ kind, Line.kind line ≠ .closer kind) (world : World) :
    (world.place cursor frames).recover block line = world.place (cursor + 1) frames := by
  unfold State.recover
  split
  next hkind => exact absurd hkind (hopens _)
  next hkind => exact absurd hkind (hcloses _)
  next => rfl

/-- A block whose opener fails before it is entered is skipped. -/
theorem recover_outside (hopens : Line.kind line = .opener kind) {closer : Nat}
    (hpartner : block.map.partner? cursor = some closer) (houtside : Outside frames cursor)
    (world : World) :
    (world.place cursor frames).recover block line = world.place (closer + 1) frames := by
  cases frames with
  | nil => simp only [State.recover, hopens, World.place, hpartner, Option.getD_some]
  | cons frame outer =>
      -- The innermost frame is that of a block around this one, so it stays.
      have hlt : frame.opener < cursor := houtside frame rfl
      have hne : frame.opener ≠ cursor := by omega
      simp only [State.recover, hopens, World.place, hpartner, Option.getD_some]
      exact congrArg (State.mk (closer + 1) · world.scope world.interpreter) (if_neg hne)

/-- A block whose opener fails when it is reached again is left. -/
theorem recover_again (hopens : Line.kind line = .opener kind) {closer : Nat} {frame : Frame}
    (hpartner : block.map.partner? cursor = some closer) (hframe : frame.opener = cursor)
    (world : World) :
    (world.place cursor (frame :: frames)).recover block line =
      world.place (closer + 1) frames := by
  simp only [State.recover, hopens, World.place, hpartner, Option.getD_some, hframe, if_pos]

/-- A block whose closer fails is left. -/
theorem recover_closer (hcloses : Line.kind line = .closer kind) {frame : Frame}
    (hframe : frame.closer = cursor) (world : World) :
    (world.place cursor (frame :: frames)).recover block line =
      world.place (cursor + 1) frames := by
  simp only [State.recover, hcloses, World.place, hframe, if_pos]

/-- A line outside the block structure is carried out, and the machine goes on after it. -/
theorem execute_plain (hplain : Line.kind line = .skipped ∨ Line.kind line = .statement)
    (calls : Calls) (world : World) :
    (world.place cursor frames).execute calls block line =
      (world.line calls (block.lineNumber cursor) line).map (·.place (cursor + 1) frames) := by
  have hrecover : ∀ world : World, (world.place cursor frames).recover block line =
      world.place (cursor + 1) frames := by
    refine recover_plain (fun kind hkind ↦ ?_) (fun kind hkind ↦ ?_)
    all_goals
      rw [hkind] at hplain
      rcases hplain with hplain | hplain <;> cases hplain
  have hfailed : ∀ (world : World) (error : Error),
      (world.place cursor frames).failed block line error =
        (world.fail (block.lineNumber cursor) line error).map (·.place (cursor + 1) frames) := by
    intro world error
    rw [failed_place]
    simp only [hrecover]
  rcases hplain with hkind | hkind
  · rw [State.execute, State.decide, hkind, World.line, hkind]
    rfl
  · rw [State.execute, State.decide, hkind, World.line, if_pos hkind]
    simp only [State.decideStatement, World.place, World.statement]
    cases hstatement : world.interpreter.registry.statement world.scope line with
    | error error => exact hfailed world error
    | ok effect =>
        cases effect with
        | draw action => rfl
        | bind name value => rfl
        | call name arguments =>
            simp only [bind, Except.bind]
            cases hprepare : world.interpreter.prepare name arguments world.scope with
            | error error => exact hfailed world error
            | ok call =>
                simp only [pure, Except.pure, State.carryOut, World.call]
                cases calls call.method.block call.locals world.interpreter.enter with
                | none => rfl
                | some callee =>
                    simp only [State.returned, World.returned]
                    cases callee.result with
                    | ok value => rfl
                    | error error => exact hfailed ⟨world.scope, callee.interpreter.leave⟩ error

/-- What a conditional does: it goes on in its body, or at its `else` or its closer. -/
theorem decide_conditional (hopens : Line.kind line = .opener .conditional) {closer : Nat}
    (hpartner : block.map.partner? cursor = some closer) (world : World) :
    (world.place cursor frames).decide block line =
      (world.test "if condition".toList line).map fun taken ↦
        .move (if taken then cursor + 1 else (block.map.else? cursor).getD closer)
          (.conditional taken cursor closer :: frames) .nothing := by
  have hcloser : block.closer cursor = .ok closer := by rw [Block.closer, hpartner]
  simp only [State.decide, hopens, State.decideConditional, World.place, World.test, hcloser]
  cases State.conditionText "if condition".toList (Line.splitWord line).2 with
  | error error => rfl
  | ok text =>
      simp only [bind, Except.bind]
      cases Expression.condition world.scope text with
      | error error => rfl
      | ok taken => rfl

/-- A conditional that is reached tests its condition. -/
theorem execute_conditional (hopens : Line.kind line = .opener .conditional) {closer : Nat}
    (hpartner : block.map.partner? cursor = some closer) (houtside : Outside frames cursor)
    (calls : Calls) (world : World) :
    (world.place cursor frames).execute calls block line =
      match world.test "if condition".toList line with
      | .error error =>
          (world.fail (block.lineNumber cursor) line error).map (·.place (closer + 1) frames)
      | .ok true => .onward (world.place (cursor + 1) (.conditional true cursor closer :: frames))
      | .ok false =>
          .onward (world.place ((block.map.else? cursor).getD closer)
            (.conditional false cursor closer :: frames)) := by
  rw [State.execute, decide_conditional hopens hpartner]
  cases world.test "if condition".toList line with
  | error error =>
      simp only [Except.map, State.carryOut, failed_place,
        recover_outside hopens hpartner houtside]
  | ok taken => cases taken <;> rfl

/-- The machine reaches a loop from outside, or again after a pass. -/
def Arrives (cursor closer : Nat) (outer frames : List Frame) : Prop :=
  frames = outer ∧ Outside outer cursor ∨ frames = .whileLoop cursor closer :: outer

/-- What a loop does, whether it is reached from outside or again: it starts a pass, or goes on
after its closer. -/
theorem decide_while (hopens : Line.kind line = .opener .whileLoop) {closer : Nat}
    (hpartner : block.map.partner? cursor = some closer) {outer : List Frame}
    (harrives : Arrives cursor closer outer frames) (world : World) :
    (world.place cursor frames).decide block line =
      (world.test "while condition".toList line).map fun again ↦
        if again then .move (cursor + 1) (.whileLoop cursor closer :: outer) .nothing
        else .move (closer + 1) outer .nothing := by
  have hcloser : block.closer cursor = .ok closer := by rw [Block.closer, hpartner]
  -- From outside the loop pushes its frame, and later it finds it on top of the outer ones.
  have hframes : (if (world.place cursor frames).isReentry then frames
        else .whileLoop cursor closer :: frames) = .whileLoop cursor closer :: outer ∧
      (if (world.place cursor frames).isReentry then frames.tail else frames) = outer := by
    rcases harrives with ⟨rfl, houtside⟩ | rfl
    · have hfirst : (world.place cursor frames).isReentry = false := by
        unfold State.isReentry World.place
        split
        next opener _ _ hframes =>
            dsimp only at hframes
            have hlt : opener < cursor := houtside (.whileLoop opener _) (by rw [hframes]; rfl)
            exact beq_eq_false_iff_ne.mpr (by dsimp only; omega)
        next => rfl
      rw [hfirst]
      exact ⟨rfl, rfl⟩
    · have hagain : (world.place cursor (.whileLoop cursor closer :: outer)).isReentry := by
        simp [State.isReentry, World.place]
      rw [hagain]
      exact ⟨rfl, rfl⟩
  rw [State.decide, hopens]
  simp only [World.place] at hframes
  simp only [State.decideWhile, World.place, World.test, hcloser, bind, Except.bind,
    hframes.1, hframes.2]
  cases State.conditionText "while condition".toList (Line.splitWord line).2 with
  | error error => rfl
  | ok text =>
      dsimp only
      cases Expression.condition world.scope text with
      | error error => rfl
      | ok again => cases again <;> rfl

/-- A loop tests its condition before each pass. -/
theorem execute_while (hopens : Line.kind line = .opener .whileLoop) {closer : Nat}
    (hpartner : block.map.partner? cursor = some closer) {outer : List Frame}
    (harrives : Arrives cursor closer outer frames) (calls : Calls) (world : World) :
    (world.place cursor frames).execute calls block line =
      match world.test "while condition".toList line with
      | .error error =>
          (world.fail (block.lineNumber cursor) line error).map (·.place (closer + 1) outer)
      | .ok true => .onward (world.place (cursor + 1) (.whileLoop cursor closer :: outer))
      | .ok false => .onward (world.place (closer + 1) outer) := by
  have hrecover : ∀ world : World, (world.place cursor frames).recover block line =
      world.place (closer + 1) outer := by
    rcases harrives with ⟨rfl, houtside⟩ | rfl
    · exact recover_outside hopens hpartner houtside
    · exact recover_again hopens hpartner rfl
  rw [State.execute, decide_while hopens hpartner harrives]
  cases world.test "while condition".toList line with
  | error error => simp only [Except.map, State.carryOut, failed_place, hrecover]
  | ok again => cases again <;> rfl

/-- What a counting loop does: it sets its counter, and starts a pass if the start is in range. -/
theorem decide_for (hopens : Line.kind line = .opener .forLoop) {closer : Nat}
    (hpartner : block.map.partner? cursor = some closer) (world : World) :
    (world.place cursor frames).decide block line =
      (world.count line).map fun counting ↦
        if counting.enters then
          .move (cursor + 1)
            (.forLoop counting.counter counting.bounds.limit counting.bounds.step (cursor + 1)
              closer :: frames)
            (.bind counting.counter counting.bounds.start)
        else .move (closer + 1) frames (.bind counting.counter counting.bounds.start) := by
  have hcloser : block.closer cursor = .ok closer := by rw [Block.closer, hpartner]
  rw [State.decide, hopens]
  simp only [State.decideFor, World.place, World.count, hcloser]
  cases Loop.Header.parse? (Line.splitWord line).2 with
  | none => rfl
  | some header =>
      simp only [bind, Except.bind]
      cases Loop.bounds world.scope header with
      | error error => rfl
      | ok bounds =>
          dsimp only
          cases Loop.inRange bounds.start bounds.limit bounds.step with
          | error error => rfl
          | ok enters => cases enters <;> rfl

/-- A counting loop sets its counter before it is entered or left. -/
theorem execute_for (hopens : Line.kind line = .opener .forLoop) {closer : Nat}
    (hpartner : block.map.partner? cursor = some closer) (houtside : Outside frames cursor)
    (calls : Calls) (world : World) :
    (world.place cursor frames).execute calls block line =
      match world.count line with
      | .error error =>
          (world.fail (block.lineNumber cursor) line error).map (·.place (closer + 1) frames)
      | .ok ⟨counter, bounds, true⟩ =>
          .onward ((world.bind counter bounds.start).place (cursor + 1)
            (.forLoop counter bounds.limit bounds.step (cursor + 1) closer :: frames))
      | .ok ⟨counter, bounds, false⟩ =>
          .onward ((world.bind counter bounds.start).place (closer + 1) frames) := by
  rw [State.execute, decide_for hopens hpartner]
  cases world.count line with
  | error error =>
      simp only [Except.map, State.carryOut, failed_place,
        recover_outside hopens hpartner houtside]
  | ok counting =>
      obtain ⟨counter, bounds, enters⟩ := counting
      cases enters <;> rfl

/-- What the definition of a method does: it stores the lines up to the closer. -/
theorem decide_method (hopens : Line.kind line = .opener .method) {closer : Nat}
    (hpartner : block.map.partner? cursor = some closer) (world : World) :
    (world.place cursor frames).decide block line =
      (Method.define (Line.splitWord line).2 (block.lines.extract (cursor + 1) closer)
        (block.lineNumber (cursor + 1))).map fun method ↦
          .move (closer + 1) frames (.define method) := by
  have hcloser : block.closer cursor = .ok closer := by rw [Block.closer, hpartner]
  rw [State.decide, hopens]
  simp only [State.decideMethod, World.place, hcloser, bind, Except.bind]
  cases Method.define (Line.splitWord line).2 (block.lines.extract (cursor + 1) closer)
    (block.lineNumber (cursor + 1)) <;> rfl

/-- The definition of a method is passed over. -/
theorem execute_method (hopens : Line.kind line = .opener .method) {closer : Nat}
    (hpartner : block.map.partner? cursor = some closer) (houtside : Outside frames cursor)
    (calls : Calls) (world : World) :
    (world.place cursor frames).execute calls block line =
      match Method.define (Line.splitWord line).2 (block.lines.extract (cursor + 1) closer)
          (block.lineNumber (cursor + 1)) with
      | .error error =>
          (world.fail (block.lineNumber cursor) line error).map (·.place (closer + 1) frames)
      | .ok method =>
          .onward (World.place { world with interpreter := world.interpreter.define method }
            (closer + 1) frames) := by
  rw [State.execute, decide_method hopens hpartner]
  cases Method.define (Line.splitWord line).2 (block.lines.extract (cursor + 1) closer)
    (block.lineNumber (cursor + 1)) with
  | error error =>
      simp only [Except.map, State.carryOut, failed_place,
        recover_outside hopens hpartner houtside]
  | ok method => rfl

/-- An `else` after the true part goes on at the closer, and one before the other part starts it. -/
theorem decide_else (hturns : Line.kind line = .otherwise) {opener closer : Nat} (taken : Bool)
    (world : World) :
    (world.place cursor (.conditional taken opener closer :: frames)).decide block line =
      .ok (.move (if taken then closer else cursor + 1)
        (.conditional taken opener closer :: frames) .nothing) := by
  rw [State.decide, hturns]
  cases taken <;> rfl

/-- An `else` moves the cursor and nothing else. -/
theorem execute_else (hturns : Line.kind line = .otherwise) {opener closer : Nat} (taken : Bool)
    (calls : Calls) (world : World) :
    (world.place cursor (.conditional taken opener closer :: frames)).execute calls block line =
      .onward (world.place (if taken then closer else cursor + 1)
        (.conditional taken opener closer :: frames)) := by
  rw [State.execute, decide_else hturns]
  rfl

/-- The closer of a conditional leaves it. -/
theorem decide_end_conditional (hcloses : Line.kind line = .closer .conditional) {opener : Nat}
    (taken : Bool) (world : World) :
    (world.place cursor (.conditional taken opener cursor :: frames)).decide block line =
      .ok (.move (cursor + 1) frames .nothing) := by
  rw [State.decide, hcloses]
  simp [State.decideCloser, World.place, Frame.closer]

/-- The closer of a conditional changes nothing else. -/
theorem execute_end_conditional (hcloses : Line.kind line = .closer .conditional) {opener : Nat}
    (taken : Bool) (calls : Calls) (world : World) :
    (world.place cursor (.conditional taken opener cursor :: frames)).execute calls block line =
      .onward (world.place (cursor + 1) frames) := by
  rw [State.execute, decide_end_conditional hcloses]
  rfl

/-- The closer of a loop goes back to its condition. -/
theorem decide_end_while (hcloses : Line.kind line = .closer .whileLoop) {opener : Nat}
    (world : World) :
    (world.place cursor (.whileLoop opener cursor :: frames)).decide block line =
      .ok (.move opener (.whileLoop opener cursor :: frames) .nothing) := by
  rw [State.decide, hcloses]
  simp [State.decideCloser, World.place, Frame.closer]

/-- The closer of a loop changes nothing else. -/
theorem execute_end_while (hcloses : Line.kind line = .closer .whileLoop) {opener : Nat}
    (calls : Calls) (world : World) :
    (world.place cursor (.whileLoop opener cursor :: frames)).execute calls block line =
      .onward (world.place opener (.whileLoop opener cursor :: frames)) := by
  rw [State.execute, decide_end_while hcloses]
  rfl

/-- What the closer of a counting loop does: it moves the counter, and starts another pass while it
is in range. -/
theorem decide_end_for (hcloses : Line.kind line = .closer .forLoop) {counter : Text}
    {limit step : Value} {start : Nat} (world : World) :
    (world.place cursor (.forLoop counter limit step start cursor :: frames)).decide block line =
      (world.advance counter limit step).map fun (value, again) ↦
        if again then
          .move start (.forLoop counter limit step start cursor :: frames) (.bind counter value)
        else .move (cursor + 1) frames (.bind counter value) := by
  rw [State.decide, hcloses]
  simp only [State.decideCloser, World.place, Frame.closer, ne_eq, not_true_eq_false, if_false,
    reduceCtorEq, State.decideEndFor, World.advance]
  cases Command.variableOf world.scope counter with
  | error error => rfl
  | ok current =>
      simp only [bind, Except.bind]
      cases Loop.advance current step with
      | error error => rfl
      | ok value =>
          dsimp only
          cases Loop.inRange value limit step with
          | error error => rfl
          | ok again => cases again <;> rfl

/-- The closer of a counting loop sets its counter, or leaves the loop when that fails. -/
theorem execute_end_for (hcloses : Line.kind line = .closer .forLoop) {counter : Text}
    {limit step : Value} {start : Nat} (calls : Calls) (world : World) :
    (world.place cursor (.forLoop counter limit step start cursor :: frames)).execute calls block
        line =
      match world.advance counter limit step with
      | .error error =>
          (world.fail (block.lineNumber cursor) line error).map (·.place (cursor + 1) frames)
      | .ok (value, true) =>
          .onward ((world.bind counter value).place start
            (.forLoop counter limit step start cursor :: frames))
      | .ok (value, false) =>
          .onward ((world.bind counter value).place (cursor + 1) frames) := by
  have hframe : (Frame.forLoop counter limit step start cursor).closer = cursor := rfl
  rw [State.execute, decide_end_for hcloses]
  cases world.advance counter limit step with
  | error error =>
      simp only [Except.map, State.carryOut, failed_place, recover_closer hcloses hframe]
  | ok next =>
      obtain ⟨value, again⟩ := next
      cases again <;> rfl

end Lines

end PenScript
