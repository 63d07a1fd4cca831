import PenScript.Arguments
import PenScript.Canvas
import PenScript.Elements
import PenScript.Integer

/-!
# Commands

A statement is a command keyword with arguments, or an assignment. A command only looks at the
variables: it turns its argument text into one `Effect`, or fails and has none. Carrying the effect
out is left to the interpreter. `Command.execute` does both at once, one step after another.
-/

namespace PenScript

/-- What one statement does. -/
inductive Effect where
  | draw (action : Canvas.Action)
  | bind (name : Text) (value : Value)
  | call (method : Text) (arguments : List Text)

/-- The types of variables that keep their type. -/
inductive VariableKind where
  | integer
  | real
  | boolean
deriving DecidableEq

namespace VariableKind

/-- The keyword that declares a variable. -/
def keyword : VariableKind → Text
  | .integer => "int".toList
  | .real => "real".toList
  | .boolean => "boolean".toList

/-- The value of a variable that is declared without one. -/
def initial : VariableKind → Value
  | .integer => .integer 0
  | .real => .real 0
  | .boolean => .boolean false

/-- The kind of variable that holds a value, if its type is kept. -/
def ofValue? : Value → Option VariableKind
  | .integer _ => some .integer
  | .real _ => some .real
  | .boolean _ => some .boolean
  | _ => none

/-- The value converted to the kind: a real number is truncated to an integer, an integer widened to
a real number, and a number is true when it is not zero. -/
def convert (kind : VariableKind) (value : Value) : Except TypeMismatch Value :=
  match kind, value with
  | .integer, .integer number => .ok (.integer number)
  | .integer, .real number => (Value.real number).toInteger.map .integer
  | .real, .integer number => .ok (.real (Real.ofInteger number))
  | .real, .real number => .ok (.real number)
  | .boolean, .boolean truth => .ok (.boolean truth)
  | .boolean, .integer number => .ok (.boolean (number != 0))
  | .boolean, .real number => .ok (.boolean (number != 0))
  | _, _ => .error (value.mismatch kind.keyword)

end VariableKind

/-- The commands. -/
inductive Command where
  | array
  | declare (kind : VariableKind)
  | call
  | cast
  | circle
  | clear
  | drawTo
  | fill
  | moveTo
  | peek
  | penColour
  | poke
  | rectangle
  | reset
  | triangle
  | write
deriving DecidableEq

namespace Command

/-- The keyword of a command. -/
def keyword : Command → Text
  | .array => "array".toList
  | .declare kind => kind.keyword
  | .call => "call".toList
  | .cast => "cast".toList
  | .circle => "circle".toList
  | .clear => "clear".toList
  | .drawTo => "drawto".toList
  | .fill => "fill".toList
  | .moveTo => "moveto".toList
  | .peek => "peek".toList
  | .penColour => "pencolour".toList
  | .poke => "poke".toList
  | .rectangle => "rect".toList
  | .reset => "reset".toList
  | .triangle => "tri".toList
  | .write => "write".toList

/-- All commands in the order of their keywords. -/
def all : List Command :=
  [.array, .declare .boolean, .call, .cast, .circle, .clear, .drawTo, .fill, .declare .integer,
    .moveTo, .peek, .penColour, .poke, .declare .real, .rectangle, .reset, .triangle, .write]

/-- A coordinate or a size on the canvas. A real number is rounded, a half going away from zero. -/
def toCoordinate (value : Value) : Except Error Int32 := do
  let number ← match value with
    | .integer number => pure number
    | .real number =>
        if number.isFinite then pure (Real.round number)
        else throw (.typeMismatch (value.mismatch "number".toList))
    | _ => throw (.typeMismatch (value.mismatch "number".toList))
  match Integer.toInt32? number with
  | some coordinate => pure coordinate
  | none => throw (.argument (.outsideCanvas number))

/-- A size on the canvas, which is not negative. -/
def toSize (part : Text) (value : Value) : Except Error Int32 := do
  let size ← toCoordinate value
  if size < 0 then throw (.argument (.negativeSize part size)) else pure size

/-- A component of a colour. -/
def toComponent (value : Value) : Except Error UInt8 := do
  let number ← value.toInteger.mapError .typeMismatch
  match Integer.toByte? number with
  | some component => pure component
  | none => throw (.argument (.colourComponent number))

/-- A colour by its name in any letter case. -/
def namedColour? (name : Text) : Option Colour :=
  [("black", ⟨0, 0, 0⟩), ("white", ⟨255, 255, 255⟩), ("red", ⟨255, 0, 0⟩), ("green", ⟨0, 128, 0⟩),
    ("blue", ⟨0, 0, 255⟩), ("yellow", ⟨255, 255, 0⟩), ("cyan", ⟨0, 255, 255⟩),
    ("magenta", ⟨255, 0, 255⟩), ("orange", ⟨255, 165, 0⟩), ("gray", ⟨128, 128, 128⟩),
    ("grey", ⟨128, 128, 128⟩), ("purple", ⟨128, 0, 128⟩), ("pink", ⟨255, 192, 203⟩),
    ("brown", (⟨165, 42, 42⟩ : Colour))].lookup (String.ofList (Text.toLower name))

/-- The values of two arguments. -/
def evaluatePair (scope : Scope) (shape text : Text) : Except Error (Value × Value) := do
  let (first, second) ← Arguments.pair shape text
  let left ← Expression.evaluate scope first
  let right ← Expression.evaluate scope second
  pure (left, right)

/-- A point given by its two coordinates. -/
def point (scope : Scope) (shape text : Text) : Except Error Point := do
  let (first, second) ← evaluatePair scope shape text
  let x ← toCoordinate first
  let y ← toCoordinate second
  pure ⟨x, y⟩

/-- A width and a height. -/
def sizes (scope : Scope) (shape text : Text) : Except Error (Int32 × Int32) := do
  let (first, second) ← evaluatePair scope shape text
  let width ← toSize "width".toList first
  let height ← toSize "height".toList second
  pure (width, height)

/-- The radius of a circle. -/
def radius (scope : Scope) (text : Text) : Except Error Int32 := do
  let argument ← Arguments.single "circle radius".toList text
  let value ← Expression.evaluate scope argument
  toSize "radius".toList value

/-- The colour that a pen is set to: the name of one, unless it is a variable, or three
components. -/
def colour (scope : Scope) (text : Text) : Except Error Colour :=
  if Text.isIdentifier text && !scope.contains text then
    match namedColour? text with
    | some colour => .ok colour
    | none => .error (.argument (.unknownColour text))
  else do
    let (first, second, third) ← Arguments.triple "pencolour red green blue".toList text
    let r ← Expression.evaluate scope first
    let g ← Expression.evaluate scope second
    let b ← Expression.evaluate scope third
    let red ← toComponent r
    let green ← toComponent g
    let blue ← toComponent b
    pure ⟨red, green, blue⟩

/-- The fill state that a word asks for. -/
def fillState (text : Text) : Except Error Bool :=
  match String.ofList (Text.toLower text) with
  | "on" | "true" | "1" => .ok true
  | "off" | "false" | "0" => .ok false
  | _ => .error (.argument .fillState)

/-- The text that is written at the pen. -/
def written (scope : Scope) (text : Text) : Except Error Text := do
  let argument ← Arguments.single "write expression".toList text
  let value ← Expression.evaluate scope argument
  pure value.drawnText

/-- A command without arguments. -/
def withoutArguments (command : Command) (text : Text) (effect : Effect) : Except Error Effect :=
  if text.isEmpty then .ok effect else .error (.argument (.noArguments command.keyword))

/-- The declaration of a variable, which has the initial value of its kind unless one is given. -/
def declaration (kind : VariableKind) (scope : Scope) (text : Text) : Except Error Effect := do
  let (name, expression) ←
    Arguments.nameAndExpression (kind.keyword ++ " name = expression".toList) text
  match expression with
  | none => pure (.bind name kind.initial)
  | some expression =>
      let value ← Expression.evaluate scope expression
      let converted ← (kind.convert value).mapError .typeMismatch
      pure (.bind name converted)

/-- An assignment to a variable. An existing number or truth value keeps its type, and an array
cannot be assigned to. -/
def assignment (scope : Scope) (text : Text) : Except Error Effect := do
  let shape := "name = expression".toList
  let (name, expression) ← Arguments.nameAndExpression shape text
  match expression with
  | none => throw (Arguments.notExpected shape)
  | some expression =>
      let value ← Expression.evaluate scope expression
      match scope.get? name with
      | none => pure (.bind name value)
      | some existing =>
          if existing.isArray then throw (.typeMismatch ⟨existing.typeName, value.typeName⟩)
          else match VariableKind.ofValue? existing with
            | none => pure (.bind name value)
            | some kind =>
                let converted ← (kind.convert value).mapError .typeMismatch
                pure (.bind name converted)

/-- The conversion of a value to an integer variable. -/
def conversion (scope : Scope) (text : Text) : Except Error Effect := do
  let shape := "cast destination = source".toList
  let name ← Arguments.identifier shape (Line.splitWord text).1
  let source := match (Line.splitWord text).2 with
    | '=' :: rest => Text.trim rest
    | rest => Text.trim rest
  if source.isEmpty then throw (Arguments.notExpected shape)
  let value ← Expression.evaluate scope source
  let number ← value.toInteger.mapError .typeMismatch
  pure (.bind name (.integer number))

/-- A length of an array. -/
def toLength (part : Text) (value : Value) : Except Error Nat := do
  let number ← value.toInteger.mapError .typeMismatch
  match Integer.toNat? number with
  | some length =>
      if 0 < length ∧ length ≤ Value.maxElements then pure length
      else throw (.argument (.arrayLength part number))
  | none => throw (.argument (.arrayLength part number))

/-- An array of zeros with the given element type and sizes. -/
def zeroArray? (element : Text) (rows : Nat) (columns : Option Nat) : Option Value :=
  match String.ofList element, columns with
  | "int", none => some (.integerArray (Array.replicate rows 0))
  | "int", some columns => some (.integerMatrix (.constant rows columns 0))
  | "real", none => some (.realArray (Array.replicate rows 0))
  | "real", some columns => some (.realMatrix (.constant rows columns 0))
  | _, _ => none

/-- The creation of an array. -/
def allocation (scope : Scope) (text : Text) : Except Error Effect := do
  let shape := "array int|real name size[,columns]".toList
  let element := Text.toLower (Line.splitWord text).1
  let target := Line.splitWord (Line.splitWord text).2
  let name ← Arguments.identifier shape target.1
  let sizes := Arguments.list target.2
  if element.isEmpty || sizes.isEmpty || 2 < sizes.length then
    throw (Arguments.notExpected shape)
  let lengths ← (sizes.zip ["array size", "column count"]).mapM fun (size, part) ↦ do
    let value ← Expression.evaluate scope size
    toLength part.toList value
  let rows := lengths.headD 1
  let columns := lengths[1]?
  if Value.maxElements < rows * columns.getD 1 then throw (.argument (.arrayTooLarge name))
  match zeroArray? element rows columns with
  | some created => pure (.bind name created)
  | none => throw (.argument (.unknownElementType element shape))

/-- The variable of a name. -/
def variableOf (scope : Scope) (name : Text) : Except Error Value :=
  match scope.get? name with
  | some value => .ok value
  | none => .error (.undefinedVariable name)

/-- The index texts and the value text of a store: the value follows an equals sign, or is the last
argument. -/
def storeParts (text : Text) : List Text × Text :=
  match Arguments.assignment? text with
  | some (indices, value) => (Arguments.list indices, value)
  | none => ((Arguments.list text).dropLast, (Arguments.list text).getLastD [])

/-- The store of a value into an element of an array. -/
def store (scope : Scope) (text : Text) : Except Error Effect := do
  let shape := "poke array index [column] = value".toList
  let name ← Arguments.identifier shape (Line.splitWord text).1
  let array ← variableOf scope name
  let (indexTexts, valueText) := storeParts (Line.splitWord text).2
  if valueText.isEmpty then throw (.argument (.missing "value".toList shape))
  array.checkRank name indexTexts.length
  let indices ← indexTexts.mapM (Expression.evaluate scope)
  let value ← Expression.evaluate scope valueText
  let updated ← array.setElement name indices value
  pure (.bind name updated)

/-- The load of an element of an array into a variable. -/
def load (scope : Scope) (text : Text) : Except Error Effect := do
  let shape := "peek variable = array index [column]".toList
  let target ← Arguments.identifier shape (Line.splitWord text).1
  let source := Line.splitWord (match (Line.splitWord text).2 with
    | '=' :: rest => rest
    | rest => rest)
  if source.1.isEmpty then throw (Arguments.notExpected shape)
  let name ← Arguments.identifier shape source.1
  let indexTexts := Arguments.list source.2
  let array ← variableOf scope name
  array.checkRank name indexTexts.length
  let indices ← indexTexts.mapM (Expression.evaluate scope)
  let value ← array.element name indices
  pure (.bind target value)

/-- The argument texts of a call. In parentheses only commas separate them. -/
def callArguments (shape text : Text) : Except Error (List Text) :=
  match text with
  | '(' :: inner =>
      match Text.dropLast? ')' inner with
      | none => .error (.argument (.missing "')'".toList shape))
      | some inside =>
          if (Text.trim inside).isEmpty then .ok []
          else .ok (Arguments.listed (Text.trim inside))
  | _ => .ok (Arguments.list text)

/-- The call of a method. -/
def invocation (text : Text) : Except Error Effect := do
  let shape := "call name(argument, ...)".toList
  let name ← Arguments.identifier shape (Line.splitWord text).1
  let arguments ← callArguments shape (Line.splitWord text).2
  if arguments.any (·.isEmpty) then throw (.argument (.emptyArgument shape))
  pure (.call name arguments)

/-- The effect of a command on trimmed argument text. -/
def effect (command : Command) (scope : Scope) (text : Text) : Except Error Effect :=
  match command with
  | .moveTo => (point scope "moveto x y".toList text).map (.draw <| .moveTo ·)
  | .drawTo => (point scope "drawto x y".toList text).map (.draw <| .drawTo ·)
  | .rectangle =>
      (sizes scope "rect width height".toList text).map fun (width, height) ↦
        .draw (.rectangle width height)
  | .triangle =>
      (sizes scope "tri width height".toList text).map fun (width, height) ↦
        .draw (.triangle width height)
  | .circle => (radius scope text).map (.draw <| .circle ·)
  | .penColour => (colour scope text).map (.draw <| .setColour ·)
  | .fill => (fillState text).map (.draw <| .setFill ·)
  | .write => (written scope text).map (.draw <| .write ·)
  | .clear => command.withoutArguments text (.draw .clear)
  | .reset => command.withoutArguments text (.draw (.moveTo ⟨0, 0⟩))
  | .declare kind => declaration kind scope text
  | .array => allocation scope text
  | .poke => store scope text
  | .peek => load scope text
  | .cast => conversion scope text
  | .call => invocation text

end Command

/-- The commands that an interpreter knows, in the order of their keywords. -/
structure Registry where
  commands : List Command

namespace Registry

/-- The registry with all commands. -/
def standard : Registry := ⟨Command.all⟩

/-- The registry without commands. -/
def empty : Registry := ⟨[]⟩

/-- The keywords in sorted order. -/
def keywords (registry : Registry) : List Text :=
  registry.commands.map Command.keyword

/-- The command of a keyword in any letter case. -/
def find? (registry : Registry) (keyword : Text) : Option Command :=
  registry.commands.find? fun command ↦ command.keyword == Text.toLower keyword

/-- There is a command of the keyword. -/
def has (registry : Registry) (keyword : Text) : Bool :=
  (registry.find? keyword).isSome

/-- The effect of a keyword and its arguments. An unknown keyword may be a misspelt one. -/
def dispatch (registry : Registry) (scope : Scope) (keyword arguments : Text) :
    Except Error Effect :=
  match registry.find? keyword with
  | some command => command.effect scope (Text.trim arguments)
  | none =>
      .error (.unknownCommand keyword
        (Suggestion.closest? (Text.toLower keyword) registry.keywords 2))

/-- The effect of an assignment. A command keyword cannot be assigned to. -/
def assign (registry : Registry) (scope : Scope) (line : Text) : Except Error Effect :=
  let name := (Line.splitWord line).1
  if registry.has name then .error (.argument (.keywordAssigned name))
  else Command.assignment scope (Text.trim line)

/-- The effect of a statement. A line that does not start with a word is an unknown command. -/
def statement (registry : Registry) (scope : Scope) (line : Text) : Except Error Effect :=
  let trimmed := Text.trim line
  let keyword := (Line.splitWord trimmed).1
  let rest := (Line.splitWord trimmed).2
  if keyword.isEmpty then .error (.unknownCommand (Text.firstWord trimmed) none)
  else if (Line.afterEquals? rest).isSome then registry.assign scope trimmed
  else registry.dispatch scope keyword rest

end Registry

end PenScript
