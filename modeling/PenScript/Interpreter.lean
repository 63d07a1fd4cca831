import PenScript.Canvas
import PenScript.Command
import PenScript.Frame
import PenScript.Loop
import PenScript.Method
import PenScript.Options
import PenScript.Text.Lines

/-!
# The interpreter

A block of lines is run by a machine with a cursor. Loops and conditionals move the cursor and push
and pop frames; a method call runs the body of the method as a block of its own, with its own
variables. `State.decide` says what the line at the cursor does and changes nothing, `State.apply`
carries it out, and `State.settle` deals with a line that fails: it is recorded, and the run goes on
after it, unless the error is fatal or the interpreter is strict.

A run may go on forever, so `run` takes fuel and answers `none` when it does not end with it. More
fuel never changes an answer.
-/

namespace PenScript

/-- Everything that outlasts a line of a program, apart from the variables of the method that
runs. `halted` says that a strict run has ended with an error. -/
structure Interpreter where
  canvas : Canvas
  registry : Registry
  methods : MethodTable
  globals : Scope
  errors : Array LineError
  options : Options
  callDepth : Nat
  nextLine : Nat
  halted : Bool

namespace Interpreter

/-- A fresh interpreter. -/
def new (options : Options) (registry : Registry) : Interpreter where
  canvas := .blank
  registry := registry
  methods := .empty
  globals := .empty
  errors := #[]
  options := options
  callDepth := 0
  nextLine := 1
  halted := false

/-- Forgets methods, variables and recorded errors. The canvas and the options stay. -/
def reset (interpreter : Interpreter) : Interpreter :=
  { interpreter with
    methods := .empty
    globals := .empty
    errors := #[]
    callDepth := 0
    nextLine := 1
    halted := false }

/-- The interpreter in strict mode or out of it. -/
def setStrict (interpreter : Interpreter) (strict : Bool) : Interpreter :=
  { interpreter with options := { interpreter.options with strict := strict } }

/-- The interpreter with a blank canvas. -/
def clearCanvas (interpreter : Interpreter) : Interpreter :=
  { interpreter with canvas := .blank }

/-- Carries out a drawing action. -/
def draw (interpreter : Interpreter) (action : Canvas.Action) : Interpreter :=
  { interpreter with canvas := interpreter.canvas.perform action }

/-- Adds a method, in place of the one of the same name. -/
def define (interpreter : Interpreter) (method : Method) : Interpreter :=
  { interpreter with methods := interpreter.methods.insert method }

/-- Records the error of a line. -/
def record (interpreter : Interpreter) (failure : LineError) : Interpreter :=
  { interpreter with errors := interpreter.errors.push failure }

/-- Marks a strict run as ended. -/
def halt (interpreter : Interpreter) : Interpreter :=
  { interpreter with halted := true }

/-- One more method body is being run. -/
def enter (interpreter : Interpreter) : Interpreter :=
  { interpreter with callDepth := interpreter.callDepth + 1 }

/-- One method body less is being run. -/
def leave (interpreter : Interpreter) : Interpreter :=
  { interpreter with callDepth := interpreter.callDepth - 1 }

/-- The variables of a method call: each parameter has the value of its argument. -/
def bindArguments (caller : Scope) : Scope → List (Text × Text) → Except Error Scope
  | locals, [] => .ok locals
  | locals, (parameter, argument) :: rest => do
      let value ← Expression.evaluate caller argument
      bindArguments caller (locals.insert parameter value) rest

/-- A method and the variables that it starts with. -/
structure Call where
  method : Method
  locals : Scope

/-- The call of a method with argument texts. The arguments are evaluated in the scope of the
caller, before the depth of calls is checked. -/
def prepare (interpreter : Interpreter) (name : Text) (arguments : List Text) (caller : Scope) :
    Except Error Call :=
  match interpreter.methods.get? name with
  | none => .error (.undefinedMethod name)
  | some method => do
      if method.parameters.length ≠ arguments.length then
        throw (.argumentCount method.name method.parameters.length arguments.length)
      let locals ← bindArguments caller .empty (method.parameters.zip arguments)
      if interpreter.options.maxCallDepth ≤ interpreter.callDepth then
        throw (.recursionLimit interpreter.options.maxCallDepth)
      pure ⟨method, locals⟩

end Interpreter

/-- The result of a method: its local variable of the same name, in any letter case, or zero. -/
def Method.result (method : Method) (locals : Scope) : Value :=
  (locals.findIgnoringCase method.name).getD (.integer 0)

/-- What a line changes besides the cursor and the frames. -/
inductive Change where
  | nothing
  | draw (action : Canvas.Action)
  | bind (name : Text) (value : Value)
  | define (method : Method)

/-- What a line does: it changes something and moves the cursor, or it calls a method. -/
inductive Decision where
  | move (target : Nat) (frames : List Frame) (change : Change)
  | call (call : Interpreter.Call)

/-- The machine in the middle of a block: the line that comes next, the blocks that are being run,
innermost first, the variables, and the interpreter. -/
structure State where
  cursor : Nat
  frames : List Frame
  scope : Scope
  interpreter : Interpreter

/-- The end of a run: whether it ended with an error, and what it leaves behind. -/
structure Outcome where
  result : Except Error Unit
  scope : Scope
  interpreter : Interpreter

namespace State

/-- The machine before the first line of a block. -/
def start (scope : Scope) (interpreter : Interpreter) : State :=
  ⟨0, [], scope, interpreter⟩

/-- The cursor goes to the next line and nothing changes. -/
def next (state : State) : Decision :=
  .move (state.cursor + 1) state.frames .nothing

/-- The decision of a statement. -/
def decideStatement (state : State) (line : Text) : Except Error Decision := do
  let effect ← state.interpreter.registry.statement state.scope line
  match effect with
  | .draw action => pure (.move (state.cursor + 1) state.frames (.draw action))
  | .bind name value => pure (.move (state.cursor + 1) state.frames (.bind name value))
  | .call name arguments =>
      let call ← state.interpreter.prepare name arguments state.scope
      pure (.call call)

/-- The text of a condition, which must not be empty. -/
def conditionText (shape text : Text) : Except Error Text :=
  if (Text.trim text).isEmpty then .error (Arguments.notExpected shape) else .ok (Text.trim text)

/-- A conditional goes on in its body when its condition is true, and otherwise at its `else` or its
closer. -/
def decideConditional (state : State) (block : Block) (header : Text) : Except Error Decision := do
  let text ← conditionText "if condition".toList header
  let taken ← Expression.condition state.scope text
  let closer ← block.closer state.cursor
  let target := if taken then state.cursor + 1
    else (block.map.else? state.cursor).getD closer
  pure (.move target (.conditional taken state.cursor closer :: state.frames) .nothing)

/-- The innermost block that is being run is the loop on the line of the cursor, which is therefore
reached again. -/
def isReentry (state : State) : Bool :=
  match state.frames with
  | .whileLoop opener _ :: _ => opener == state.cursor
  | _ => false

/-- A loop tests its condition before each pass and goes on after its closer when it is false. -/
def decideWhile (state : State) (block : Block) (header : Text) : Except Error Decision := do
  let closer ← block.closer state.cursor
  let text ← conditionText "while condition".toList header
  let again ← Expression.condition state.scope text
  if again then
    let frames := if state.isReentry then state.frames
      else .whileLoop state.cursor closer :: state.frames
    pure (.move (state.cursor + 1) frames .nothing)
  else
    let frames := if state.isReentry then state.frames.tail else state.frames
    pure (.move (closer + 1) frames .nothing)

/-- A counting loop sets its counter, and is left at once when the start is out of range. -/
def decideFor (state : State) (block : Block) (text : Text) : Except Error Decision := do
  match Loop.Header.parse? text with
  | none => throw (Arguments.notExpected Loop.shape)
  | some header =>
      let bounds ← Loop.bounds state.scope header
      let closer ← block.closer state.cursor
      let enters ← Loop.inRange bounds.start bounds.limit bounds.step
      let change := Change.bind header.counter bounds.start
      if enters then
        let frame := Frame.forLoop header.counter bounds.limit bounds.step (state.cursor + 1) closer
        pure (.move (state.cursor + 1) (frame :: state.frames) change)
      else pure (.move (closer + 1) state.frames change)

/-- The definition of a method stores its body and goes on after it. -/
def decideMethod (state : State) (block : Block) (header : Text) : Except Error Decision := do
  let closer ← block.closer state.cursor
  let body := block.lines.extract (state.cursor + 1) closer
  let method ← Method.define header body (block.lineNumber (state.cursor + 1))
  pure (.move (closer + 1) state.frames (.define method))

/-- An `else` that is reached after the true part of its conditional ends it; one that is reached
because the condition was false starts the other part. -/
def decideElse (state : State) (block : Block) : Except Error Decision :=
  match state.frames with
  | .conditional true _ closer :: _ => .ok (.move closer state.frames .nothing)
  | .conditional false _ _ :: _ => .ok state.next
  | _ => .error (.unmatchedBlock ⟨block.lineNumber state.cursor, .strayElse⟩)

/-- The closer of a counting loop moves the counter and starts another pass while it is in range. -/
def decideEndFor (state : State) (counter : Text) (limit step : Value) (bodyStart : Nat)
    (outer : List Frame) : Except Error Decision := do
  let current ← Command.variableOf state.scope counter
  let next ← Loop.advance current step
  let again ← Loop.inRange next limit step
  if again then pure (.move bodyStart state.frames (.bind counter next))
  else pure (.move (state.cursor + 1) outer (.bind counter next))

/-- A closer belongs to the innermost block that is being run. The body of a method is skipped when
it is defined, so the closer of a method does nothing. -/
def decideCloser (state : State) (block : Block) (kind : BlockKind) : Except Error Decision :=
  let stray := Except.error
    (.unmatchedBlock ⟨block.lineNumber state.cursor, .strayCloser kind⟩)
  if kind = .method then .ok state.next
  else match state.frames with
    | [] => stray
    | frame :: outer =>
        if frame.closer ≠ state.cursor then stray
        else match frame with
          | .forLoop counter limit step bodyStart _ =>
              state.decideEndFor counter limit step bodyStart outer
          | .whileLoop opener _ => .ok (.move opener state.frames .nothing)
          | .conditional .. => .ok (.move (state.cursor + 1) outer .nothing)

/-- What the line at the cursor does. -/
def decide (state : State) (block : Block) (line : Text) : Except Error Decision :=
  let rest := (Line.splitWord line).2
  match Line.kind line with
  | .skipped => .ok state.next
  | .statement => state.decideStatement line
  | .opener .conditional => state.decideConditional block rest
  | .opener .whileLoop => state.decideWhile block rest
  | .opener .forLoop => state.decideFor block rest
  | .opener .method => state.decideMethod block rest
  | .otherwise => state.decideElse block
  | .closer kind => state.decideCloser block kind

/-- The machine after a line that moves the cursor and changes something. -/
def apply (state : State) (target : Nat) (frames : List Frame) (change : Change) : State :=
  match change with
  | .nothing => { state with cursor := target, frames := frames }
  | .draw action =>
      { state with
        cursor := target
        frames := frames
        interpreter := state.interpreter.draw action }
  | .bind name value =>
      { state with cursor := target, frames := frames, scope := state.scope.insert name value }
  | .define method =>
      { state with
        cursor := target
        frames := frames
        interpreter := state.interpreter.define method }

/-- The machine after a line that failed: a block whose header failed is skipped, a block whose
closer failed is left, and any other line is passed over. -/
def recover (state : State) (block : Block) (line : Text) : State :=
  match Line.kind line with
  | .opener _ =>
      { state with
        cursor := ((block.map.partner? state.cursor).getD state.cursor) + 1
        frames := match state.frames with
          | frame :: outer => if frame.opener = state.cursor then outer else state.frames
          | [] => [] }
  | .closer _ =>
      { state with
        cursor := state.cursor + 1
        frames := match state.frames with
          | frame :: outer => if frame.closer = state.cursor then outer else state.frames
          | [] => [] }
  | _ => { state with cursor := state.cursor + 1 }

/-- The end of a run with an error. -/
def stop (state : State) (error : Error) : Outcome :=
  ⟨.error error, state.scope, state.interpreter⟩

/-- Deals with a line that failed. A fatal error, or any error once a strict run is halted, ends the
run and is not recorded. Every other error is recorded, and then ends a strict run. -/
def settle (state : State) (block : Block) (line : Text) (error : Error) : Except Outcome State :=
  if error.isFatal || state.interpreter.halted then .error (state.stop error)
  else
    let failure : LineError := ⟨block.lineNumber state.cursor, Text.trim line, error⟩
    let recorded := { state with interpreter := state.interpreter.record failure }
    if recorded.interpreter.options.strict then
      .error ({ recorded with interpreter := recorded.interpreter.halt }.stop error)
    else .ok (recorded.recover block line)

/-- The machine after a call that succeeded: the name of the method is bound to its result. -/
def resume (state : State) (method : Method) (locals : Scope) (interpreter : Interpreter) : State :=
  { state with
    cursor := state.cursor + 1
    scope := state.scope.insert method.name (method.result locals)
    interpreter := interpreter }

end State

/-- Runs a block from a state of the machine. -/
def run : Nat → Block → State → Option Outcome
  | 0, _, _ => none
  | fuel + 1, block, state =>
      match block.lines[state.cursor]? with
      | none => some ⟨.ok (), state.scope, state.interpreter⟩
      | some line =>
          match state.decide block line with
          | .ok (.move target frames change) => run fuel block (state.apply target frames change)
          | .ok (.call call) =>
              match run fuel call.method.block (.start call.locals state.interpreter.enter) with
              | none => none
              | some callee =>
                  let interpreter := callee.interpreter.leave
                  match callee.result with
                  | .ok () =>
                      run fuel block (state.resume call.method callee.scope interpreter)
                  | .error error =>
                      match { state with interpreter := interpreter }.settle block line error with
                      | .ok recovered => run fuel block recovered
                      | .error outcome => some outcome
          | .error error =>
              match state.settle block line error with
              | .ok recovered => run fuel block recovered
              | .error outcome => some outcome

namespace Interpreter

/-- The end of a method call: the name and the result of the method, or an error. -/
structure CallOutcome where
  result : Except Error (Text × Value)
  interpreter : Interpreter

/-- Calls a method with argument texts. The variables of the caller do not change. -/
def callMethod (fuel : Nat) (interpreter : Interpreter) (name : Text) (arguments : List Text)
    (caller : Scope) : Option CallOutcome :=
  match interpreter.prepare name arguments caller with
  | .error error => some ⟨.error error, interpreter⟩
  | .ok call =>
      (run fuel call.method.block (.start call.locals interpreter.enter)).map fun callee ↦
        { result := callee.result.map fun () ↦ (call.method.name, call.method.result callee.scope)
          interpreter := callee.interpreter.leave }

/-- Carries out the effect of a statement outside a block. -/
def perform (fuel : Nat) (interpreter : Interpreter) (scope : Scope)
    (effect : Except Error Effect) : Option Outcome :=
  match effect with
  | .error error => some ⟨.error error, scope, interpreter⟩
  | .ok (.draw action) => some ⟨.ok (), scope, interpreter.draw action⟩
  | .ok (.bind name value) => some ⟨.ok (), scope.insert name value, interpreter⟩
  | .ok (.call name arguments) =>
      (interpreter.callMethod fuel name arguments scope).map fun outcome ↦
        match outcome.result with
        | .ok (declared, value) => ⟨.ok (), scope.insert declared value, outcome.interpreter⟩
        | .error error => ⟨.error error, scope, outcome.interpreter⟩

/-- Runs lines against a scope. Lines that do not nest are not run at all. -/
def executeBlock (fuel : Nat) (interpreter : Interpreter) (lines : List Text) (firstLine : Nat)
    (scope : Scope) : Option Outcome :=
  match Block.ofLines lines.toArray firstLine with
  | .error cause => some ⟨.error (.unmatchedBlock cause), scope, interpreter⟩
  | .ok block => run fuel block (.start scope interpreter)

/-- The end of a run against the global variables. -/
structure RunOutcome where
  result : Except Error Unit
  interpreter : Interpreter

/-- Runs more lines of a program. Methods and variables stay, and line numbers go on. -/
def feed (fuel : Nat) (interpreter : Interpreter) (lines : List Text) : Option RunOutcome :=
  let ready :=
    { interpreter with nextLine := interpreter.nextLine + lines.length, halted := false }
  (ready.executeBlock fuel lines interpreter.nextLine interpreter.globals).map fun outcome ↦
    ⟨outcome.result, { outcome.interpreter with globals := outcome.scope }⟩

/-- Runs a whole program from a clean state. -/
def runLines (fuel : Nat) (interpreter : Interpreter) (lines : List Text) : Option RunOutcome :=
  interpreter.reset.feed fuel lines

/-- Runs the lines of a source text from a clean state. -/
def runSource (fuel : Nat) (interpreter : Interpreter) (source : Text) : Option RunOutcome :=
  interpreter.runLines fuel (Text.lines source)

end Interpreter

end PenScript
