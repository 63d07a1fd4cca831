import PenScript.Interpreter

/-!
# Commands at work

`Command.effect` says in advance what a statement does. Here a statement does it: a command works on
the variables and on the canvas step by step, and whatever it has changed by the time it fails stays
changed. Its expressions are evaluated in the variables as they are at that moment.

Nothing in the types keeps such a command from changing something and then failing, or from changing
two things. That no command does is a property of the order of its steps.
-/

namespace PenScript

/-- What a piece of a program reads and changes. -/
structure World where
  scope : Scope
  interpreter : Interpreter

/-- A piece of work on a world. It may fail and leaves the world as it is by then, and it may go on
forever, which is `none`. -/
abbrev Work (α : Type) := ExceptT Error (StateT World Option) α

namespace Work

/-- The variables as they are now. -/
def scope : Work Scope := do
  let world ← get
  pure world.scope

/-- Evaluates an expression. -/
def evaluate (text : Text) : Work Value := do
  let scope ← Work.scope
  Expression.evaluate scope text

/-- Looks a variable up. -/
def lookUp (name : Text) : Work Value := do
  let scope ← Work.scope
  Command.variableOf scope name

/-- Gives a variable a value. -/
def define (name : Text) (value : Value) : Work Unit :=
  modify fun world ↦ { world with scope := world.scope.insert name value }

/-- Draws on the canvas. -/
def draw (action : Canvas.Action) : Work Unit :=
  modify fun world ↦ { world with interpreter := world.interpreter.draw action }

/-- Calls a method and answers with the name under which it is defined and its result. -/
def callMethod (fuel : Nat) (name : Text) (arguments : List Text) : Work (Text × Value) :=
  ExceptT.mk fun world ↦
    (world.interpreter.callMethod fuel name arguments world.scope).map fun outcome ↦
      (outcome.result, { world with interpreter := outcome.interpreter })

/-- How the work ends, and the world that it leaves behind. -/
def outcome (work : Work Unit) (world : World) : Option Outcome :=
  (work.run.run world).map fun (result, after) ↦ ⟨result, after.scope, after.interpreter⟩

end Work

namespace Command

/-- Moves the pen to a point, or draws a line to it. -/
def executePoint (shape : Text) (action : Point → Canvas.Action) (text : Text) : Work Unit := do
  let (first, second) ← Arguments.pair shape text
  let left ← Work.evaluate first
  let right ← Work.evaluate second
  let x ← toCoordinate left
  let y ← toCoordinate right
  Work.draw (action ⟨x, y⟩)

/-- Draws a shape with a width and a height. -/
def executeSizes (shape : Text) (action : Int32 → Int32 → Canvas.Action) (text : Text) :
    Work Unit := do
  let (first, second) ← Arguments.pair shape text
  let left ← Work.evaluate first
  let right ← Work.evaluate second
  let width ← toSize "width".toList left
  let height ← toSize "height".toList right
  Work.draw (action width height)

/-- Draws a circle. -/
def executeCircle (text : Text) : Work Unit := do
  let argument ← Arguments.single "circle radius".toList text
  let value ← Work.evaluate argument
  let radius ← toSize "radius".toList value
  Work.draw (.circle radius)

/-- Sets the colour of the pen. A single name that is no variable is the name of a colour. -/
def executeColour (text : Text) : Work Unit := do
  let scope ← Work.scope
  if Text.isIdentifier text && !scope.contains text then
    match namedColour? text with
    | some colour => Work.draw (.setColour colour)
    | none => throw (.argument (.unknownColour text))
  else
    let (first, second, third) ← Arguments.triple "pencolour red green blue".toList text
    let r ← Work.evaluate first
    let g ← Work.evaluate second
    let b ← Work.evaluate third
    let red ← toComponent r
    let green ← toComponent g
    let blue ← toComponent b
    Work.draw (.setColour ⟨red, green, blue⟩)

/-- Sets the fill state. -/
def executeFill (text : Text) : Work Unit := do
  let on ← fillState text
  Work.draw (.setFill on)

/-- Writes at the pen. -/
def executeWriting (text : Text) : Work Unit := do
  let argument ← Arguments.single "write expression".toList text
  let value ← Work.evaluate argument
  Work.draw (.write value.drawnText)

/-- Draws without arguments. -/
def executePlainly (command : Command) (action : Canvas.Action) (text : Text) : Work Unit := do
  if !text.isEmpty then throw (.argument (.noArguments command.keyword))
  Work.draw action

/-- Declares a variable. -/
def executeDeclaration (kind : VariableKind) (text : Text) : Work Unit := do
  let (name, expression) ←
    Arguments.nameAndExpression (kind.keyword ++ " name = expression".toList) text
  let value ← match expression with
    | none => pure kind.initial
    | some expression => do
        let value ← Work.evaluate expression
        (kind.convert value).mapError Error.typeMismatch
  Work.define name value

/-- Assigns to a variable. -/
def executeAssignment (text : Text) : Work Unit := do
  let shape := "name = expression".toList
  let (name, expression) ← Arguments.nameAndExpression shape text
  match expression with
  | none => throw (Arguments.notExpected shape)
  | some expression =>
      let value ← Work.evaluate expression
      let scope ← Work.scope
      let kept ← match scope.get? name with
        | none => pure value
        | some existing => do
            if existing.isArray then
              throw (.typeMismatch ⟨existing.typeName, value.typeName⟩)
            match VariableKind.ofValue? existing with
            | none => pure value
            | some kind => (kind.convert value).mapError Error.typeMismatch
      Work.define name kept

/-- Converts a value to an integer variable. -/
def executeConversion (text : Text) : Work Unit := do
  let shape := "cast destination = source".toList
  let name ← Arguments.identifier shape (Line.splitWord text).1
  let source := match (Line.splitWord text).2 with
    | '=' :: rest => Text.trim rest
    | rest => Text.trim rest
  if source.isEmpty then throw (Arguments.notExpected shape)
  let value ← Work.evaluate source
  let number ← value.toInteger.mapError Error.typeMismatch
  Work.define name (.integer number)

/-- Creates an array. -/
def executeAllocation (text : Text) : Work Unit := do
  let shape := "array int|real name size[,columns]".toList
  let element := Text.toLower (Line.splitWord text).1
  let target := Line.splitWord (Line.splitWord text).2
  let name ← Arguments.identifier shape target.1
  let sizes := Arguments.list target.2
  if element.isEmpty || sizes.isEmpty || 2 < sizes.length then
    throw (Arguments.notExpected shape)
  let size ← Work.evaluate (sizes.headD [])
  let rows ← toLength "array size".toList size
  let columns ← match sizes[1]? with
    | none => pure none
    | some size => do
        let value ← Work.evaluate size
        let columns ← toLength "column count".toList value
        pure (some columns)
  if columns.any fun columns ↦ Value.maxElements < rows * columns then
    throw (.argument (.arrayTooLarge name))
  match zeroArray? element rows columns with
  | some created => Work.define name created
  | none => throw (.argument (.unknownElementType element shape))

/-- Stores a value into an element of an array. The variable is looked up once more for it. -/
def executeStore (text : Text) : Work Unit := do
  let shape := "poke array index [column] = value".toList
  let name ← Arguments.identifier shape (Line.splitWord text).1
  let array ← Work.lookUp name
  let (indexTexts, valueText) := storeParts (Line.splitWord text).2
  if valueText.isEmpty then throw (.argument (.missing "value".toList shape))
  array.checkRank name indexTexts.length
  let indices ← indexTexts.mapM Work.evaluate
  let value ← Work.evaluate valueText
  let current ← Work.lookUp name
  let updated ← current.setElement name indices value
  Work.define name updated

/-- Loads an element of an array into a variable. -/
def executeLoad (text : Text) : Work Unit := do
  let shape := "peek variable = array index [column]".toList
  let target ← Arguments.identifier shape (Line.splitWord text).1
  let source := Line.splitWord (match (Line.splitWord text).2 with
    | '=' :: rest => rest
    | rest => rest)
  if source.1.isEmpty then throw (Arguments.notExpected shape)
  let name ← Arguments.identifier shape source.1
  let indexTexts := Arguments.list source.2
  let array ← Work.lookUp name
  array.checkRank name indexTexts.length
  let indices ← indexTexts.mapM Work.evaluate
  let current ← Work.lookUp name
  let value ← current.element name indices
  Work.define target value

/-- Calls a method and gives its result to the variable of its name. -/
def executeInvocation (fuel : Nat) (text : Text) : Work Unit := do
  let shape := "call name(argument, ...)".toList
  let name ← Arguments.identifier shape (Line.splitWord text).1
  let arguments ← callArguments shape (Line.splitWord text).2
  if arguments.any (·.isEmpty) then throw (.argument (.emptyArgument shape))
  let (declared, result) ← Work.callMethod fuel name arguments
  Work.define declared result

/-- Executes a command on trimmed argument text. -/
def execute (fuel : Nat) (command : Command) (text : Text) : Work Unit :=
  match command with
  | .moveTo => executePoint "moveto x y".toList .moveTo text
  | .drawTo => executePoint "drawto x y".toList .drawTo text
  | .rectangle => executeSizes "rect width height".toList .rectangle text
  | .triangle => executeSizes "tri width height".toList .triangle text
  | .circle => executeCircle text
  | .penColour => executeColour text
  | .fill => executeFill text
  | .write => executeWriting text
  | .clear => command.executePlainly .clear text
  | .reset => command.executePlainly (.moveTo ⟨0, 0⟩) text
  | .declare kind => executeDeclaration kind text
  | .array => executeAllocation text
  | .poke => executeStore text
  | .peek => executeLoad text
  | .cast => executeConversion text
  | .call => executeInvocation fuel text

end Command

namespace Registry

/-- Executes a keyword with its arguments. -/
def execute (fuel : Nat) (registry : Registry) (keyword arguments : Text) : Work Unit :=
  match registry.find? keyword with
  | some command => command.execute fuel (Text.trim arguments)
  | none =>
      throw (.unknownCommand keyword
        (Suggestion.closest? (Text.toLower keyword) registry.keywords 2))

/-- Executes an assignment. -/
def executeAssignment (registry : Registry) (line : Text) : Work Unit :=
  let name := (Line.splitWord line).1
  if registry.has name then throw (.argument (.keywordAssigned name))
  else Command.executeAssignment (Text.trim line)

/-- Executes a statement. -/
def executeStatement (fuel : Nat) (registry : Registry) (line : Text) : Work Unit :=
  let trimmed := Text.trim line
  let keyword := (Line.splitWord trimmed).1
  let rest := (Line.splitWord trimmed).2
  if keyword.isEmpty then throw (.unknownCommand (Text.firstWord trimmed) none)
  else if (Line.afterEquals? rest).isSome then registry.executeAssignment trimmed
  else registry.execute fuel keyword rest

end Registry

end PenScript
