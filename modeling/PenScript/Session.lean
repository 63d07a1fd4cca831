import PenScript.Interpreter

/-!
# Interactive sessions

A session takes one line at a time. Lines wait while a block is open and are run together once every
block is closed. Each run shows what it drew and which errors it recorded. A line that starts with a
colon, while no lines wait, is a command to the session itself.
-/

namespace PenScript

/-- An interpreter, the lines that wait, and how much of the drawing and of the errors has been
shown. -/
structure Session where
  interpreter : Interpreter
  pending : List Text
  shownOperations : Nat
  shownErrors : Nat

/-- The answer to a line. -/
inductive Reply where
  | output (lines : List Text)
  /-- A block is open, more lines are needed. -/
  | pending
  | quit

namespace Session

/-- A session with a fresh interpreter. -/
def new (options : Options) : Session :=
  ⟨.new options .standard, [], 0, 0⟩

/-- Some lines wait. -/
def isPending (session : Session) : Bool :=
  !session.pending.isEmpty

/-- The lines of the help text. -/
def help : List Text :=
  ["BOOSE REPL Commands:",
    "  :help, :h, :?   Show this help",
    "  :quit, :q       Exit the REPL",
    "  :vars           List global variables",
    "  :methods        List defined methods",
    "  :trace          Show everything drawn so far",
    "  :clear          Forget variables, methods and drawing",
    "",
    "Enter BOOSE statements, for example:",
    "  int x = 50",
    "  moveto x 100",
    "  circle 20",
    "Blocks (if, while, for, method) run once their closing line is entered."].map String.toList

/-- A global variable in a listing. -/
def describeVariable (entry : Text × Value) : Text :=
  entry.1 ++ " = ".toList ++ entry.2.text ++ " (".toList ++ entry.2.typeName ++ [')']

/-- A method in a listing. -/
def describeMethod (method : Method) : Text :=
  method.name ++ '(' :: Text.join ", ".toList method.parameters ++ [')']

/-- An error message of the session. -/
def errorLine (message : Text) : Text :=
  "error: ".toList ++ message

/-- The session after everything is forgotten. -/
def clear (session : Session) : Session :=
  { interpreter := session.interpreter.reset.clearCanvas
    pending := []
    shownOperations := 0
    shownErrors := 0 }

/-- The answer to a command of the session. -/
def command (session : Session) (text : Text) : Reply × Session :=
  match String.ofList text with
  | ":quit" | ":q" | ":exit" => (.quit, session)
  | ":help" | ":h" | ":?" => (.output help, session)
  | ":vars" => (.output (session.interpreter.globals.entries.map describeVariable), session)
  | ":methods" => (.output (session.interpreter.methods.sorted.map describeMethod), session)
  | ":trace" =>
      (.output (session.interpreter.canvas.operations.toList.map Canvas.Operation.description),
        session)
  | ":clear" => (.output ["cleared".toList], session.clear)
  | _ =>
      (.output ["Unknown command: ".toList ++ text, "Type :help for help.".toList], session)

/-- The message of a fatal error, which is not among the recorded ones. -/
def fatalLines : Except Error Unit → List Text
  | .error error => if error.isFatal then [errorLine error.message] else []
  | .ok () => []

/-- What a run adds to the output: the operations and the errors that have not been shown, and the
error that ended it. -/
def newLines (session : Session) (outcome : Interpreter.RunOutcome) : List Text :=
  let operations := outcome.interpreter.canvas.operations.toList.drop session.shownOperations
  let errors := outcome.interpreter.errors.toList.drop session.shownErrors
  operations.map Canvas.Operation.description ++
    errors.map (fun failure ↦ errorLine failure.message) ++ fatalLines outcome.result

/-- The session after a run, with everything shown and no lines waiting. -/
def shown (outcome : Interpreter.RunOutcome) : Session where
  interpreter := outcome.interpreter
  pending := []
  shownOperations := outcome.interpreter.canvas.operations.size
  shownErrors := outcome.interpreter.errors.size

/-- Runs the lines that wait. -/
def runPending (fuel : Nat) (session : Session) : Option (Reply × Session) :=
  (session.interpreter.feed fuel session.pending).map fun outcome ↦
    (.output (session.newLines outcome), shown outcome)

/-- The answer to one line, and the session after it. -/
def submit (fuel : Nat) (session : Session) (line : Text) : Option (Reply × Session) :=
  let trimmed := Text.trim line
  if trimmed.head? = some ':' ∧ !session.isPending then some (session.command trimmed)
  else if trimmed.isEmpty ∧ !session.isPending then some (.output [], session)
  else
    let waiting := { session with pending := session.pending ++ [line] }
    if isBalanced waiting.pending then waiting.runPending fuel
    else some (.pending, waiting)

end Session

end PenScript
