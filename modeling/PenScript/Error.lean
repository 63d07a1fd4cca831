import PenScript.Fault
import PenScript.Line
import PenScript.Suggestion

/-!
# Errors

What can go wrong with a line, with a whole program, and with the files around it. An error is a
cause with its data; `Error.kind` is the headline of a report and `Error.message` its wording. An
error in the structure of the blocks is fatal, every other one concerns a single line.
-/

namespace PenScript

/-- Why lines do not form blocks. -/
inductive BlockProblem where
  /-- A second alternative; the line is that of the conditional. -/
  | secondElse (line : Nat)
  | elseWithoutConditional
  | closerWithoutOpener (kind : BlockKind)
  /-- A closer of one kind while a block of another kind, opened on the line, is open. -/
  | crossed (closer opened : BlockKind) (line : Nat)
  | missingCloser (kind : BlockKind)
  /-- An opener that is run has no closer. -/
  | openEnded
  /-- An alternative that is run outside a conditional. -/
  | strayElse
  /-- A closer that is run outside its block. -/
  | strayCloser (kind : BlockKind)
deriving DecidableEq

/-- The wording of a block problem. -/
def BlockProblem.message : BlockProblem → Text
  | .secondElse line => "second 'else' for 'if' at line ".toList ++ Text.ofNat line
  | .elseWithoutConditional => "'else' without matching 'if'".toList
  | .closerWithoutOpener kind =>
      '\'' :: kind.closer ++ "' without matching '".toList ++ kind.opener ++ ['\'']
  | .crossed closer opened line =>
      '\'' :: closer.closer ++ "' found but '".toList ++ opened.opener ++ "' at line ".toList ++
        Text.ofNat line ++ " is still open".toList
  | .missingCloser kind =>
      "missing '".toList ++ kind.closer ++ "' for '".toList ++ kind.opener ++ ['\'']
  | .openEnded => "block has no closing line".toList
  | .strayElse => "'else' outside 'if'".toList
  | .strayCloser kind =>
      '\'' :: kind.closer ++ "' without an open '".toList ++ kind.opener ++ ['\'']

/-- A block problem and the line of the program where it shows. -/
structure BlockError where
  line : Nat
  problem : BlockProblem
deriving DecidableEq

/-- What is wrong with the arguments of a command or the header of a block. A `shape` is the form
that was expected. -/
inductive ArgumentProblem where
  | expected (shape : Text)
  | missing (part shape : Text)
  | invalidName (name shape : Text)
  | invalidParameter (name shape : Text)
  | duplicateParameter (name : Text)
  | emptyArgument (shape : Text)
  | unknownElementType (name shape : Text)
  | unknownColour (name : Text)
  | keywordAssigned (keyword : Text)
  | fillState
  | noArguments (keyword : Text)
  | outsideCanvas (number : Int64)
  | negativeSize (part : Text) (number : Int32)
  | colourComponent (number : Int64)
  | arrayLength (part : Text) (number : Int64)
  | arrayTooLarge (name : Text)
  | zeroStep
  | counterOverflow
  | boundNotNumber

/-- The expected form, as the end of a message. -/
def ArgumentProblem.expectedShape (shape : Text) : Text :=
  "expected '".toList ++ shape ++ ['\'']

/-- The wording of an argument problem. -/
def ArgumentProblem.message : ArgumentProblem → Text
  | .expected shape => expectedShape shape
  | .missing part shape => "missing ".toList ++ part ++ ", ".toList ++ expectedShape shape
  | .invalidName name shape =>
      '\'' :: name ++ "' is not a valid name, ".toList ++ expectedShape shape
  | .invalidParameter name shape =>
      "invalid parameter name '".toList ++ name ++ "', ".toList ++ expectedShape shape
  | .duplicateParameter name => "duplicate parameter '".toList ++ name ++ ['\'']
  | .emptyArgument shape => "empty argument, ".toList ++ expectedShape shape
  | .unknownElementType name shape =>
      "unknown element type '".toList ++ name ++ "', ".toList ++ expectedShape shape
  | .unknownColour name => "unknown colour '".toList ++ name ++ ['\'']
  | .keywordAssigned keyword =>
      '\'' :: keyword ++ "' is a command keyword and cannot be assigned".toList
  | .fillState => "expected 'fill on' or 'fill off'".toList
  | .noArguments keyword => '\'' :: keyword ++ "' takes no arguments".toList
  | .outsideCanvas number => Text.ofInt number.toInt ++ " is outside the canvas range".toList
  | .negativeSize part number =>
      part ++ " must not be negative, got ".toList ++ Text.ofInt number.toInt
  | .colourComponent number =>
      "colour component ".toList ++ Text.ofInt number.toInt ++ " is not in 0..=255".toList
  | .arrayLength part number =>
      part ++ " must be between 1 and ".toList ++ Text.ofNat Value.maxElements ++
        ", got ".toList ++ Text.ofInt number.toInt
  | .arrayTooLarge name =>
      "array '".toList ++ name ++ "' is larger than ".toList ++ Text.ofNat Value.maxElements ++
        " elements".toList
  | .zeroStep => "for loop step must not be zero".toList
  | .counterOverflow => "for loop counter overflowed".toList
  | .boundNotNumber => "for loop bound is not a number".toList

/-- What can go wrong. -/
inductive Error where
  | expression (text : Text) (cause : Fault)
  | unknownCommand (keyword : Text) (suggestion : Option Text)
  | argument (problem : ArgumentProblem)
  | argumentCount (method : Text) (expected got : Nat)
  | undefinedMethod (name : Text)
  | undefinedVariable (name : Text)
  | unmatchedBlock (cause : BlockError)
  | arrayBounds (name : Text) (index : Int64) (length : Nat)
  | typeMismatch (mismatch : TypeMismatch)
  | recursionLimit (limit : Nat)
  | file (message : Text)
  | settings (message : Text)

namespace Error

/-- The headline of an error. -/
def kind : Error → Text
  | .expression .. => "Expression".toList
  | .unknownCommand .. => "Unknown command".toList
  | .argument .. => "Argument".toList
  | .argumentCount .. => "Argument count".toList
  | .undefinedMethod .. => "Undefined method".toList
  | .undefinedVariable .. => "Undefined variable".toList
  | .unmatchedBlock .. => "Unmatched block".toList
  | .arrayBounds .. => "Array bounds".toList
  | .typeMismatch .. => "Type mismatch".toList
  | .recursionLimit .. => "Recursion".toList
  | .file .. => "IO".toList
  | .settings .. => "Config".toList

/-- The wording of an error. -/
def message : Error → Text
  | .expression text cause =>
      "cannot evaluate `".toList ++ text ++ "`: ".toList ++ cause.message
  | .unknownCommand keyword suggestion =>
      "unknown command: ".toList ++ keyword ++ Suggestion.hint suggestion
  | .argument problem => problem.message
  | .argumentCount method expected got =>
      "method ".toList ++ method ++ " expects ".toList ++ Text.ofNat expected ++
        " argument(s), got ".toList ++ Text.ofNat got
  | .undefinedMethod name => "method '".toList ++ name ++ "' is not defined".toList
  | .undefinedVariable name => undefinedVariableMessage name
  | .unmatchedBlock cause =>
      "line ".toList ++ Text.ofNat cause.line ++ ": ".toList ++ cause.problem.message
  | .arrayBounds name index length =>
      "index ".toList ++ Text.ofInt index.toInt ++ " out of bounds for '".toList ++ name ++
        "' (length ".toList ++ Text.ofNat length ++ [')']
  | .typeMismatch mismatch => mismatch.message
  | .recursionLimit limit => "method call depth exceeded ".toList ++ Text.ofNat limit
  | .file message => "IO error: ".toList ++ message
  | .settings message => "config error: ".toList ++ message

/-- The line of the program that an error names by itself. -/
def line? : Error → Option Nat
  | .unmatchedBlock cause => some cause.line
  | _ => none

/-- The error ends the whole run. -/
def isFatal : Error → Bool
  | .unmatchedBlock _ => true
  | _ => false

end Error

/-- An error of one line, with the number of the line and its text without blanks around it. -/
structure LineError where
  line : Nat
  text : Text
  error : Error

/-- The wording of a line error. -/
def LineError.message (failure : LineError) : Text :=
  "line ".toList ++ Text.ofNat failure.line ++ " ('".toList ++ failure.text ++ "'): ".toList ++
    failure.error.message

end PenScript
