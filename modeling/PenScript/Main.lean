import PenScript.CommandLine.Execution

/-!
# The program

The outer layer: it reads the files that a task names, lets the library answer, and prints. A
session reads and answers line by line.
-/

namespace PenScript.CommandLine

/-- Enough steps for every run that ends in practice. -/
def budget : Nat := 1000000000000000

/-- Why reading a file failed. -/
def problemOf : IO.Error → FileProblem
  | .permissionDenied .. => .denied
  | .inappropriateType .. => .isDirectory
  | .userError _ => .notText
  | _ => .missing

/-- The contents of a file. -/
def readPath (path : Text) : IO (Except FileProblem Text) := do
  try
    let contents ← IO.FS.readFile (String.ofList path)
    pure (.ok contents.toList)
  catch problem => pure (.error (problemOf problem))

/-- The files that a request may need. -/
def Request.paths : Request → List Text
  | .perform task settingsFile =>
      settingsFile.getD defaultSettingsFile ::
        match task with
        | .run file _ _ | .check file => [file]
        | .evaluate _ | .converse => []
  | .help | .version => []

/-- Answers the lines of standard input until a line ends the session. -/
partial def converse (input output : IO.FS.Stream) (session : Session) : IO UInt32 := do
  let answer ← input.getLine
  if answer.isEmpty then
    output.putStr (String.ofList farewell)
    return 0
  match session.submit budget ((Text.lines answer.toList).headD []) with
  | none => return 1
  | some (reply, session) =>
      output.putStr (String.ofList (replyOutput reply))
      output.flush
      match reply with
      | .quit => return 0
      | _ => converse input output session

/-- Prints an answer. -/
def finish (ending : Option Ending) : IO UInt32 := do
  match ending with
  | none => return 1
  | some ending =>
      (← IO.getStdout).putStr (String.ofList ending.output)
      (← IO.getStderr).putStr (String.ofList ending.errors)
      return ending.exit.toUInt32

/-- Answers the arguments of the command line. -/
def answer (arguments : List Text) : IO UInt32 := do
  let paths := ((Request.ofArguments? arguments).map Request.paths).getD []
  let contents ← paths.mapM readPath
  let files : Files := fun path ↦ ((paths.zip contents).lookup path).getD (.error .missing)
  match Request.ofArguments? arguments with
  | some (.perform .converse settingsFile) =>
      match findSettings files settingsFile with
      | .error error => finish (some (failure error))
      | .ok settings =>
          let output ← IO.getStdout
          output.putStr (String.ofList greeting)
          output.flush
          converse (← IO.getStdin) output (.new settings.options)
  | _ => finish (execute budget files [] arguments)

end PenScript.CommandLine

/-- Answers the command line. -/
def main (arguments : List String) : IO UInt32 :=
  PenScript.CommandLine.answer (arguments.map String.toList)
