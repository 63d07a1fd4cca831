import PenScript.Command.Execution
import PenScript.Proofs.Program.Tree

/-!
# Structured execution

Here a program is run by recursion on its nesting tree. There is no cursor, no stack of frames and
no recovery: a conditional runs one of its parts, a loop runs its body pass after pass, and the
definition of a method stores its body. A line that fails is noted by `World.fail`, and what it
belongs to is passed over.

`Program.exec` takes the meaning of a method call and a bound on the passes of every loop, and
`runStructured` ties the knot with fuel.
-/

namespace PenScript

/-- Where a piece of a program leads. -/
inductive Flow (Position : Type) where
  /-- The fuel does not last. -/
  | unfinished
  /-- On to what comes after the piece. -/
  | onward (position : Position)
  /-- To the end of the whole run. -/
  | ended (outcome : Outcome)

namespace Flow

variable {Position Next Last : Type}

/-- Goes on with the next piece. -/
def andThen : Flow Position → (Position → Flow Next) → Flow Next
  | .unfinished, _ => .unfinished
  | .onward position, next => next position
  | .ended outcome, _ => .ended outcome

/-- Moves the position. -/
def map (place : Position → Next) (flow : Flow Position) : Flow Next :=
  flow.andThen fun position ↦ .onward (place position)

/-- The end of a run that goes on to its end after the piece. -/
def finish : Flow Position → (Position → Option Outcome) → Option Outcome
  | .unfinished, _ => none
  | .onward position, rest => rest position
  | .ended outcome, _ => some outcome

/-- The end of a run whose last piece leads here. -/
def outcome? (flow : Flow World) : Option Outcome :=
  flow.finish fun world ↦ some ⟨.ok (), world.scope, world.interpreter⟩

@[simp] theorem unfinished_and_then (next : Position → Flow Next) :
    Flow.unfinished.andThen next = .unfinished := rfl

@[simp] theorem onward_and_then (position : Position) (next : Position → Flow Next) :
    (Flow.onward position).andThen next = next position := rfl

@[simp] theorem ended_and_then (outcome : Outcome) (next : Position → Flow Next) :
    (Flow.ended outcome).andThen next = .ended outcome := rfl

@[simp] theorem and_then_onward (flow : Flow Position) : flow.andThen .onward = flow := by
  cases flow <;> rfl

theorem and_then_assoc (flow : Flow Position) (first : Position → Flow Next)
    (second : Next → Flow Last) :
    (flow.andThen first).andThen second =
      flow.andThen fun position ↦ (first position).andThen second := by
  cases flow <;> rfl

/-- A flow that goes on after a move has gone on before it. -/
theorem map_onward {flow : Flow Position} {place : Position → Next} {next : Next}
    (h : flow.map place = .onward next) :
    ∃ position, flow = .onward position ∧ next = place position := by
  cases flow with
  | unfinished => cases h
  | onward position => exact ⟨position, rfl, (Flow.onward.inj h).symm⟩
  | ended outcome => cases h

/-- Two pieces lead alike: the fuel of neither lasts, or both go on from positions that are alike, or
both end the run in ways that are alike. -/
inductive Related (near : Position → Next → Prop) (last : Outcome → Outcome → Prop) :
    Flow Position → Flow Next → Prop where
  | unfinished : Related near last .unfinished .unfinished
  | onward {position : Position} {next : Next} :
      near position next → Related near last (.onward position) (.onward next)
  | ended {outcome other : Outcome} :
      last outcome other → Related near last (.ended outcome) (.ended other)

/-- Runs that go on alike from alike positions end alike. -/
theorem Related.finish {near : Position → Next → Prop} {last : Outcome → Outcome → Prop}
    {first : Flow Position} {second : Flow Next} {rest : Position → Option Outcome}
    {others : Next → Option Outcome} (h : Related near last first second)
    (hrest : ∀ position next, near position next →
      Option.Rel last (rest position) (others next)) :
    Option.Rel last (first.finish rest) (second.finish others) := by
  cases h with
  | unfinished => exact .none
  | onward hnear => exact hrest _ _ hnear
  | ended hlast => exact .some hlast

end Flow

/-- The meaning of method calls: how the body of a method ends with its first variables. -/
abbrev Calls := Block → Scope → Interpreter → Option Outcome

/-- A counting loop that is set up: its counter, its bounds, and whether the start is in range. -/
structure Counting where
  counter : Text
  bounds : Loop.Bounds
  enters : Bool

namespace World

/-- Sets a variable. -/
def bind (world : World) (name : Text) (value : Value) : World :=
  { world with scope := world.scope.insert name value }

/-- A line failed. Its error is recorded with its number and its text, unless it is fatal or the run
is halted already; then, and in a strict run, the run ends. -/
def fail (world : World) (number : Nat) (text : Text) (error : Error) : Flow World :=
  if error.isFatal || world.interpreter.halted then
    .ended ⟨.error error, world.scope, world.interpreter⟩
  else
    let recorded := world.interpreter.record ⟨number, Text.trim text, error⟩
    if recorded.options.strict then .ended ⟨.error error, world.scope, recorded.halt⟩
    else .onward ⟨world.scope, recorded⟩

/-- A line that failed is passed over, or its error ends the run. -/
theorem fail_cases (world : World) (number : Nat) (text : Text) (error : Error) :
    (∃ after, world.fail number text error = .onward after) ∨
      ∃ outcome, world.fail number text error = .ended outcome ∧ outcome.result = .error error := by
  unfold fail
  split
  · exact .inr ⟨_, rfl, rfl⟩
  · dsimp only
    split
    · exact .inr ⟨_, rfl, rfl⟩
    · exact .inl ⟨_, rfl⟩

/-- The world after the call of a method: the name of the method is bound to its result, or the
line of the call fails with the error that ended the body. -/
def returned (world : World) (number : Nat) (text : Text) (method : Method) (callee : Outcome) :
    Flow World :=
  match callee.result with
  | .ok () =>
      .onward ⟨world.scope.insert method.name (method.result callee.scope),
        callee.interpreter.leave⟩
  | .error error => fail ⟨world.scope, callee.interpreter.leave⟩ number text error

/-- Calls a method that is prepared. -/
def call (calls : Calls) (world : World) (number : Nat) (text : Text) (call : Interpreter.Call) :
    Flow World :=
  match calls call.method.block call.locals world.interpreter.enter with
  | none => .unfinished
  | some callee => world.returned number text call.method callee

/-- Carries out a statement. -/
def statement (calls : Calls) (world : World) (number : Nat) (text : Text) : Flow World :=
  match world.interpreter.registry.statement world.scope text with
  | .error error => world.fail number text error
  | .ok (.draw action) => .onward { world with interpreter := world.interpreter.draw action }
  | .ok (.bind name value) => .onward (world.bind name value)
  | .ok (.call name arguments) =>
      match world.interpreter.prepare name arguments world.scope with
      | .error error => world.fail number text error
      | .ok prepared => world.call calls number text prepared

/-- Carries out a line outside the block structure, where only statements do anything. -/
def line (calls : Calls) (world : World) (number : Nat) (text : Text) : Flow World :=
  if Line.kind text = .statement then world.statement calls number text else .onward world

/-- The truth value of the condition in a header. -/
def test (world : World) (shape header : Text) : Except Error Bool := do
  let text ← State.conditionText shape (Line.splitWord header).2
  Expression.condition world.scope text

/-- Runs one of the two parts of a conditional. -/
def conditional (world : World) (number : Nat) (header : Text) (yes no : World → Flow World) :
    Flow World :=
  match world.test "if condition".toList header with
  | .error error => world.fail number header error
  | .ok true => yes world
  | .ok false => no world

/-- Runs the body as long as the condition is true, which is tested before every pass. -/
def whileLoop (number : Nat) (header : Text) (body : World → Flow World) : Nat → World → Flow World
  | 0, _ => .unfinished
  | passes + 1, world =>
      match world.test "while condition".toList header with
      | .error error => world.fail number header error
      | .ok true => (body world).andThen (whileLoop number header body passes)
      | .ok false => .onward world

/-- Evaluates the header of a counting loop. -/
def count (world : World) (header : Text) : Except Error Counting :=
  match Loop.Header.parse? (Line.splitWord header).2 with
  | none => .error (Arguments.notExpected Loop.shape)
  | some parts => do
      let bounds ← Loop.bounds world.scope parts
      let enters ← Loop.inRange bounds.start bounds.limit bounds.step
      pure ⟨parts.counter, bounds, enters⟩

/-- The next value of a counter, read from its variable, and whether it is still in range. -/
def advance (world : World) (counter : Text) (limit step : Value) :
    Except Error (Value × Bool) := do
  let current ← Command.variableOf world.scope counter
  let next ← Loop.advance current step
  let again ← Loop.inRange next limit step
  pure (next, again)

/-- Runs the body of a counting loop, moves the counter, and starts over while it is in range. -/
def forPasses (counter : Text) (limit step : Value) (number : Nat) (closer : Text)
    (body : World → Flow World) : Nat → World → Flow World
  | 0, _ => .unfinished
  | passes + 1, world =>
      (body world).andThen fun world ↦
        match world.advance counter limit step with
        | .error error => world.fail number closer error
        | .ok (value, true) =>
            forPasses counter limit step number closer body passes (world.bind counter value)
        | .ok (value, false) => .onward (world.bind counter value)

/-- Runs a counting loop, whose bounds are evaluated once. -/
def forLoop (world : World) (passes number : Nat) (header : Text) (closerNumber : Nat)
    (closer : Text) (body : World → Flow World) : Flow World :=
  match world.count header with
  | .error error => world.fail number header error
  | .ok ⟨counter, bounds, true⟩ =>
      forPasses counter bounds.limit bounds.step closerNumber closer body passes
        (world.bind counter bounds.start)
  | .ok ⟨counter, bounds, false⟩ => .onward (world.bind counter bounds.start)

/-- Stores a method with the lines of its body, which are not run. -/
def define (world : World) (number : Nat) (header : Text) (body : Array Text) : Flow World :=
  match Method.define (Line.splitWord header).2 body (number + 1) with
  | .error error => world.fail number header error
  | .ok method => .onward { world with interpreter := world.interpreter.define method }

/-- Runs a block without an `else`. The body comes as its lines and as what running it does. -/
def block (world : World) (passes : Nat) (kind : BlockKind) (number : Nat) (header : Text)
    (closerNumber : Nat) (closer : Text) (lines : List Text) (body : World → Flow World) :
    Flow World :=
  match kind with
  | .conditional => world.conditional number header body .onward
  | .whileLoop => whileLoop number header body passes world
  | .forLoop => world.forLoop passes number header closerNumber closer body
  | .method => world.define number header lines.toArray

end World

namespace Program

/-- Runs a program whose first line has the given number. -/
def exec (calls : Calls) (passes : Nat) : Program → Nat → World → Flow World
  | .empty, _, world => .onward world
  | .line text _ rest, number, world =>
      (world.line calls number text).andThen (rest.exec calls passes (number + 1))
  | .block kind header _ body closer _ rest, number, world =>
      (world.block passes kind number header (number + 1 + body.size) closer body.lines
        (body.exec calls passes (number + 1))).andThen
        (rest.exec calls passes (number + 1 + body.size + 1))
  | .branches header _ yes _ _ no _ _ rest, number, world =>
      (world.conditional number header (yes.exec calls passes (number + 1))
        (no.exec calls passes (number + 1 + yes.size + 1))).andThen
        (rest.exec calls passes (number + 1 + yes.size + 1 + no.size + 1))

/-- One program after another is run by running the first and then the second. -/
theorem exec_append (calls : Calls) (passes : Nat) (first last : Program) (number : Nat)
    (world : World) :
    (first.append last).exec calls passes number world =
      (first.exec calls passes number world).andThen
        (last.exec calls passes (number + first.size)) := by
  induction first generalizing number world with
  | empty => rfl
  | line text plain rest ih =>
      have hsize : number + 1 + rest.size = number + (rest.size + 1) := by omega
      rw [append, exec, exec, Flow.and_then_assoc, size, ← hsize]
      exact congrArg _ (funext (ih _))
  | block kind header opens body closer closes rest _ ih =>
      have hsize : number + 1 + body.size + 1 + rest.size =
          number + (body.size + rest.size + 2) := by omega
      rw [append, exec, exec, Flow.and_then_assoc, size, ← hsize]
      exact congrArg _ (funext (ih _))
  | branches header opens yes otherwise turns no closer closes rest _ _ ih =>
      have hsize : number + 1 + yes.size + 1 + no.size + 1 + rest.size =
          number + (yes.size + no.size + rest.size + 3) := by omega
      rw [append, exec, exec, Flow.and_then_assoc, size, ← hsize]
      exact congrArg _ (funext (ih _))

end Program

/-- Runs the nesting tree of a block. -/
def runStructured : Nat → Calls
  | 0, _, _, _ => none
  | fuel + 1, block, scope, interpreter =>
      (block.program.exec (runStructured fuel) (fuel + 1) block.firstLine
        ⟨scope, interpreter⟩).outcome?

end PenScript
