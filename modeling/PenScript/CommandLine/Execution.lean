import PenScript.Canvas.Export
import PenScript.CommandLine.Request
import PenScript.Files
import PenScript.Report
import PenScript.Session
import PenScript.Settings

/-!
# Execution of the command line

`execute` answers a list of arguments, given the files that can be read and the standard input, with
an exit code and with what is written to standard output and to standard error. Programs may run
forever, so it takes the fuel that every run gets.
-/

namespace PenScript.CommandLine

/-- The exit code, and what is written to standard output and to standard error. -/
structure Ending where
  exit : UInt8
  output : Text
  errors : Text

/-- A line of output. -/
def line (text : Text) : Text :=
  text ++ ['\n']

/-- The end with an error that concerns no program. -/
def failure (error : Error) : Ending :=
  ⟨1, [], line ("Error: ".toList ++ error.message)⟩

/-- The contents of a program file. -/
def readProgram (files : Files) (file : Text) : Except Error Text :=
  (files file).mapError fun problem ↦ .file (file ++ ": ".toList ++ problem.message)

/-- The file in which settings are looked for when none is named. -/
def defaultSettingsFile : Text := "boose.toml".toList

/-- The settings in the text of a file. -/
def parseSettings (text : Text) : Except Error Settings :=
  match Settings.ofText? text with
  | some settings => .ok settings
  | none => .error (.settings "invalid settings".toList)

/-- The settings in the named file, or else in the default file when there is one. -/
def findSettings (files : Files) (settingsFile : Option Text) : Except Error Settings :=
  match settingsFile with
  | some file =>
      match files file with
      | .ok text => parseSettings text
      | .error problem => .error (.settings (file ++ ": ".toList ++ problem.message))
  | none =>
      match files defaultSettingsFile with
      | .ok text => parseSettings text
      | .error _ => .ok {}

/-- What a drawing prints: its operations as data, or its trace unless that is empty. -/
def drawingOutput (canvas : Canvas) (json : Bool) : Text :=
  if json then line (canvas.operationsJson.pretty 0)
  else if canvas.trace.isEmpty then []
  else line canvas.trace

/-- The exit code after a run: errors of single lines give another one than a run that was ended by
an error. -/
def runExit (outcome : Interpreter.RunOutcome) : UInt8 :=
  match outcome.result with
  | .error _ => 1
  | .ok () => if outcome.interpreter.errors.isEmpty then 0 else 2

/-- The reports on a run: the recorded errors, and the fatal error that ended it. -/
def runReports (file source : Text) (outcome : Interpreter.RunOutcome) : Text :=
  outcome.interpreter.errors.toList.flatMap (Report.ofLineError file source) ++
    match outcome.result with
    | .error error => if error.isFatal then Report.render file source error none else []
    | .ok () => []

/-- Runs a program and prints what it drew. -/
def runProgram (fuel : Nat) (options : Options) (file source : Text) (json : Bool) :
    Option Ending :=
  ((Interpreter.new options .standard).runSource fuel source).map fun outcome ↦
    { exit := runExit outcome
      output := drawingOutput outcome.interpreter.canvas json
      errors := runReports file source outcome }

/-- Checks that the blocks of a program are closed. -/
def checkProgram (file source : Text) : Ending :=
  match BlockMap.build (Text.lines source) 1 with
  | .ok _ => ⟨0, line ("✓ ".toList ++ file ++ ": all blocks are closed".toList), []⟩
  | .error cause => ⟨1, [], Report.render file source (.unmatchedBlock cause) none⟩

/-- Evaluates an expression without variables. -/
def evaluateText (expression : Text) : Ending :=
  match Expression.evaluate .empty expression with
  | .ok value => ⟨0, line value.text, []⟩
  | .error error => failure error

/-- The name of the program with its version. -/
def versionText : Text := "boose 0.1.0".toList

/-- What a session prints first. -/
def greeting : Text :=
  line "BOOSE REPL v0.1.0".toList ++ line "Type :help for help, :quit to exit.".toList ++ line []

/-- What a session prints last. -/
def farewell : Text := line "Goodbye!".toList

/-- What a session prints after a line. -/
def replyOutput : Reply → Text
  | .output lines => lines.flatMap line
  | .pending => []
  | .quit => farewell

/-- What a session prints in answer to lines, up to the line that ends it. -/
def conversation (fuel : Nat) : Session → List Text → Option Text
  | _, [] => some farewell
  | session, first :: rest =>
      (session.submit fuel first).bind fun (reply, session) ↦
        match reply with
        | .quit => some (replyOutput reply)
        | _ => (conversation fuel session rest).map (replyOutput reply ++ ·)

/-- The text that describes the command line. -/
def helpText : Text :=
  (["BOOSE drawing language interpreter",
    "",
    "Usage: boose [OPTIONS] <COMMAND>",
    "",
    "Commands:",
    "  run    Run a BOOSE program and print what it drew",
    "  check  Check that every block in a program is closed",
    "  eval   Evaluate a single expression",
    "  repl   Start an interactive session",
    "  help   Print this message or the help of the given subcommand(s)",
    "",
    "Options:",
    "  -v, --verbose...       Raise log verbosity (-v debug, -vv trace). BOOSE_LOG overrides",
    "      --config <CONFIG>  Configuration file (defaults to ./boose.toml when present)",
    "  -h, --help             Print help",
    "  -V, --version          Print version"].map String.toList).flatMap line

/-- The end of a misused command line. -/
def misuse : Ending :=
  ⟨2, [], line "error: invalid arguments".toList ++ line [] ++
    line "Usage: boose [OPTIONS] <COMMAND>".toList ++ line [] ++
    line "For more information, try '--help'.".toList⟩

/-- Carries out a task with the settings that were found. -/
def perform (fuel : Nat) (files : Files) (input : Text) (settings : Settings) :
    Task → Option Ending
  | .run file json strict =>
      match readProgram files file with
      | .error error => some (failure error)
      | .ok source =>
          let options := { settings.options with strict := settings.options.strict || strict }
          runProgram fuel options file source json
  | .check file =>
      match readProgram files file with
      | .error error => some (failure error)
      | .ok source => some (checkProgram file source)
  | .evaluate expression => some (evaluateText expression)
  | .converse =>
      (conversation fuel (.new settings.options) (Text.lines input)).map fun output ↦
        ⟨0, greeting ++ output, []⟩

/-- The answer to a list of arguments. -/
def execute (fuel : Nat) (files : Files) (input : Text) (arguments : List Text) : Option Ending :=
  match Request.ofArguments? arguments with
  | none => some misuse
  | some .help => some ⟨0, helpText, []⟩
  | some .version => some ⟨0, line versionText, []⟩
  | some (.perform task settingsFile) =>
      match findSettings files settingsFile with
      | .error error => some (failure error)
      | .ok settings => perform fuel files input settings task

end PenScript.CommandLine
