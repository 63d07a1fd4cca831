import PenScript.Text

/-!
# Requests

The arguments of the command line are read from left to right: a command with its operand and flags,
and options that may stand before the command or after it. `Request.ofArguments?` yields what is
asked for, or nothing when the arguments are misused.
-/

namespace PenScript.CommandLine

/-- The commands of the command line. -/
inductive Verb where
  | run
  | check
  | eval
  | repl
deriving DecidableEq

/-- The word for a command. -/
def Verb.name : Verb → Text
  | .run => "run".toList
  | .check => "check".toList
  | .eval => "eval".toList
  | .repl => "repl".toList

/-- The command of a word. -/
def Verb.ofName? (name : Text) : Option Verb :=
  [Verb.run, .check, .eval, .repl].find? fun verb ↦ verb.name == name

/-- What is to be done. -/
inductive Task where
  | run (file : Text) (json strict : Bool)
  | check (file : Text)
  | evaluate (expression : Text)
  | converse

/-- What a command line asks for. -/
inductive Request where
  | help
  | version
  /-- A task, and the settings file if one is named. -/
  | perform (task : Task) (settingsFile : Option Text)

namespace Request

/-- What has been read of a command line: the command, its operand and flags, the settings file
named before the command, and the one named after it. -/
structure Draft where
  verb : Option Verb := none
  operand : Option Text := none
  json : Bool := false
  strict : Bool := false
  outerSettings : Option Text := none
  innerSettings : Option Text := none

namespace Draft

/-- A word may be the value of an option: it is not empty and does not look like an option. -/
def isValue (word : Text) : Bool :=
  word == ['-'] || (!word.isEmpty && word.head? != some '-')

/-- The draft with an operand. Every command but `repl` takes one, and a file has a name. -/
def addOperand? (draft : Draft) (word : Text) : Option Draft :=
  match draft.verb, draft.operand with
  | some .eval, none => some { draft with operand := some word }
  | some .run, none | some .check, none =>
      if word.isEmpty then none else some { draft with operand := some word }
  | _, _ => none

/-- The draft with a settings file, which may be named once before the command and once after it. -/
def addSettings? (draft : Draft) (file : Text) : Option Draft :=
  match draft.verb with
  | none =>
      if draft.outerSettings.isSome then none else some { draft with outerSettings := some file }
  | some _ =>
      if draft.innerSettings.isSome then none else some { draft with innerSettings := some file }

/-- The draft with a flag of the command `run`, which may be given once. -/
def addFlag? (draft : Draft) (flag : Text) : Option Draft :=
  if draft.verb ≠ some .run then none
  else match String.ofList flag with
    | "--json" => if draft.json then none else some { draft with json := true }
    | "--strict" => if draft.strict then none else some { draft with strict := true }
    | _ => none

/-- What is asked for at the end of the arguments. The settings file named last in the order of
levels counts. -/
def finish? (draft : Draft) : Option Request :=
  let settingsFile := draft.innerSettings.or draft.outerSettings
  match draft.verb, draft.operand with
  | some .run, some file => some (.perform (.run file draft.json draft.strict) settingsFile)
  | some .check, some file => some (.perform (.check file) settingsFile)
  | some .eval, some expression => some (.perform (.evaluate expression) settingsFile)
  | some .repl, none => some (.perform .converse settingsFile)
  | _, _ => none

end Draft

/-- The result of a group of letters behind one dash. -/
inductive Letters where
  | done
  | help
  | version
  | misused

/-- Reads letters from left to right; the version is asked for before a command only. -/
def letters (beforeCommand : Bool) : Text → Letters
  | [] => .done
  | 'v' :: rest => letters beforeCommand rest
  | 'h' :: _ => .help
  | 'V' :: _ => if beforeCommand then .version else .misused
  | _ => .misused

/-- Help on a command, or on all of them. -/
def ofHelp? : List Text → Option Request
  | [] => some .help
  | [word] =>
      if word = "help".toList || (Verb.ofName? word).isSome then some .help else none
  | _ => none

/-- Goes on with the arguments that are left. -/
def ofArgumentsFrom? (draft : Draft) : List Text → Option Request
  | [] => draft.finish?
  | word :: rest =>
      if word = "--".toList then (rest.foldlM Draft.addOperand? draft).bind Draft.finish?
      else if word = "--help".toList then some .help
      else if word = "--version".toList then if draft.verb = none then some .version else none
      else if word = "--verbose".toList then ofArgumentsFrom? draft rest
      else if word = "--config".toList then
        match rest with
        | file :: others =>
            if Draft.isValue file then
              (draft.addSettings? file).bind fun draft ↦ ofArgumentsFrom? draft others
            else none
        | [] => none
      else match "--config=".toList.isPrefixOf? word with
        | some file =>
            if file.isEmpty then none
            else (draft.addSettings? file).bind fun draft ↦ ofArgumentsFrom? draft rest
        | none =>
            match word with
            | '-' :: '-' :: _ =>
                (draft.addFlag? word).bind fun draft ↦ ofArgumentsFrom? draft rest
            | '-' :: letter :: others =>
                match letters (draft.verb = none) (letter :: others) with
                | .done => ofArgumentsFrom? draft rest
                | .help => some .help
                | .version => some .version
                | .misused => none
            | _ =>
                if draft.verb ≠ none then
                  (draft.addOperand? word).bind fun draft ↦ ofArgumentsFrom? draft rest
                else if word = "help".toList then ofHelp? rest
                else (Verb.ofName? word).bind fun verb ↦
                  ofArgumentsFrom? { draft with verb := some verb } rest

/-- What a list of arguments asks for. -/
def ofArguments? (arguments : List Text) : Option Request :=
  ofArgumentsFrom? {} arguments

end Request

end PenScript.CommandLine
