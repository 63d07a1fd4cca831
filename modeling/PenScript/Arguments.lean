import PenScript.Expression
import PenScript.Line

/-!
# Arguments of commands

The text after a command keyword is cut into argument texts. Commas outside quotes and parentheses
separate arguments; without such commas blanks do, except around an operator: `k + 1` and `k+ 1` are
one argument, while `k -1` is two. A target and a value are separated by an equals sign that is no
part of a comparison.
-/

namespace PenScript.Arguments

/-- An arithmetic operator character. -/
def isOperator (c : Char) : Bool :=
  c == '+' || c == '-' || c == '*' || c == '/' || c == '%'

/-- A word that is one operator character. -/
def isLoneOperator (word : Text) : Bool :=
  match word with
  | [c] => isOperator c
  | _ => false

/-- The last character of a word is an operator. -/
def endsInOperator (word : Text) : Bool :=
  word.getLast?.any isOperator

/-- Collects words out of parts between blanks: an empty part lengthens the run of blanks before the
next word. -/
def collectWords (blanks part : Text) : List (Char × Text) → List (Text × Text)
  | [] => if part.isEmpty then [] else [(blanks, part)]
  | (blank, next) :: rest =>
      if part.isEmpty then collectWords (blanks ++ [blank]) next rest
      else (blanks, part) :: collectWords [blank] next rest

/-- The words of a text, cut at blanks outside quotes and parentheses, each with the blanks before
it. -/
def words (text : Text) : List (Text × Text) :=
  let parts := Nesting.cut Text.isBlank Nesting.start text
  collectWords [] parts.1 parts.2

/-- Joins words to arguments. The argument so far takes in the next word when it ends in an operator
or the next word is a lone operator. -/
def joinWords (argument : Text) (joining : Bool) : List (Text × Text) → List Text
  | [] => [argument]
  | (blanks, word) :: rest =>
      if joining || isLoneOperator word then
        joinWords (argument ++ blanks ++ word) (endsInOperator word) rest
      else argument :: joinWords word (endsInOperator word) rest

/-- The arguments of a text that are separated by blanks. -/
def spaced (text : Text) : List Text :=
  match words text with
  | [] => []
  | (_, word) :: rest => joinWords word (endsInOperator word) rest

/-- The arguments of a text that are separated by commas. -/
def listed (text : Text) : List Text :=
  (Text.splitOutside ',' text).map Text.trim

/-- The arguments of a text: separated by commas if there are any, and by blanks otherwise. -/
def list (text : Text) : List Text :=
  let trimmed := Text.trim text
  if trimmed.isEmpty then []
  else if (listed trimmed).length > 1 then listed trimmed
  else spaced trimmed

/-- The failure to find an expected form. -/
def notExpected (shape : Text) : Error :=
  .argument (.expected shape)

/-- The one argument that is the whole text. -/
def single (shape text : Text) : Except Error Text :=
  if text.isEmpty then .error (notExpected shape) else .ok text

/-- Exactly two arguments. -/
def pair (shape text : Text) : Except Error (Text × Text) :=
  match list text with
  | [first, second] =>
      if first.isEmpty || second.isEmpty then .error (notExpected shape) else .ok (first, second)
  | _ => .error (notExpected shape)

/-- Exactly three arguments. -/
def triple (shape text : Text) : Except Error (Text × Text × Text) :=
  match list text with
  | [first, second, third] =>
      if first.isEmpty || second.isEmpty || third.isEmpty then .error (notExpected shape)
      else .ok (first, second, third)
  | _ => .error (notExpected shape)

/-- The text is a name. -/
def identifier (shape text : Text) : Except Error Text :=
  if Text.isIdentifier text then .ok text else .error (.argument (.invalidName text shape))

/-- An equals sign between these neighbours is part of a comparison. -/
def isComparing (previous next : Option Char) : Bool :=
  previous == some '=' || previous == some '<' || previous == some '>' || previous == some '!' ||
    next == some '='

/-- Goes on with `assignment?` after a character of the text. -/
def assignmentFrom (previous : Option Char) : Nesting → Text → Option (Text × Text)
  | _, [] => none
  | nesting, c :: rest =>
      if nesting.isFree c && c == '=' && !isComparing previous rest.head? then some ([], rest)
      else
        (assignmentFrom (some c) (nesting.next c) rest).map fun (left, right) ↦ (c :: left, right)

/-- The two sides of the first equals sign outside quotes and parentheses that is no part of a
comparison. -/
def assignment? (text : Text) : Option (Text × Text) :=
  (assignmentFrom none Nesting.start text).map fun (left, right) ↦
    (Text.trim left, Text.trim right)

/-- A name, and the expression after an equals sign if there is one. -/
def nameAndExpression (shape text : Text) : Except Error (Text × Option Text) := do
  let name ← identifier shape (Line.splitWord text).1
  let rest := (Line.splitWord text).2
  if rest.isEmpty then pure (name, none)
  else match Line.afterEquals? rest with
    | none => throw (notExpected shape)
    | some expression =>
        if (Text.trim expression).isEmpty then
          throw (.argument (.missing "expression".toList shape))
        else pure (name, some (Text.trim expression))

end PenScript.Arguments
