import PenScript.Block
import PenScript.NameMap
import PenScript.Text.Fields

/-!
# Methods

A method has a name, parameters, and a body of lines that nest. The header `name(a, b)` may also be
written `name a b`. Methods are found by name in any letter case.
-/

namespace PenScript

/-- A method as it was defined. Its block holds the lines of the body. -/
structure Method where
  name : Text
  parameters : List Text
  block : Block

namespace Method

/-- The form of a method header. -/
def shape : Text := "method name(param, ...)".toList

/-- The parameters are names and differ from each other and from those seen before. -/
def checkParameters (seen : List Text) : List Text → Except ArgumentProblem Unit
  | [] => .ok ()
  | name :: rest =>
      if !Text.isIdentifier name then .error (.invalidParameter name shape)
      else if seen.contains name then .error (.duplicateParameter name)
      else checkParameters (name :: seen) rest

/-- The part of a header that holds the parameters, without the parentheses around it. -/
def parameterText (rest : Text) : Except ArgumentProblem Text :=
  match rest with
  | '(' :: inner =>
      match Text.dropLast? ')' inner with
      | some parameters => .ok parameters
      | none => .error (.missing "')' in method signature".toList shape)
  | _ => .ok rest

/-- The name and the parameters in a header. Parameters are separated by commas, spaces and tabs. -/
def signature (header : Text) : Except ArgumentProblem (Text × List Text) := do
  let name := (Line.splitWord header).1
  if !Text.isIdentifier name then throw (.missing "method name".toList shape)
  let text ← parameterText (Line.splitWord header).2
  let fields := Text.fields (fun c ↦ c == ',' || c == ' ' || c == '\t') text
  let parameters := (fields.map Text.trim).filter (!·.isEmpty)
  checkParameters [] parameters
  pure (name, parameters)

/-- The method with a header and the lines of a body, whose first line has the given number. -/
def define (header : Text) (body : Array Text) (firstLine : Nat) : Except Error Method := do
  let (name, parameters) ← (signature header).mapError .argument
  let block ← (Block.ofLines body firstLine).mapError .unmatchedBlock
  pure ⟨name, parameters, block⟩

end Method

/-- Methods by their names in small letters. -/
structure MethodTable where
  methods : NameMap Method

namespace MethodTable

/-- The table without methods. -/
def empty : MethodTable := ⟨.empty⟩

/-- The table with one more method, in place of the one of the same name. -/
def insert (table : MethodTable) (method : Method) : MethodTable :=
  ⟨table.methods.insert (Text.toLower method.name) method⟩

/-- The method of a name. -/
def get? (table : MethodTable) (name : Text) : Option Method :=
  table.methods.get? (Text.toLower name)

/-- There is a method of the name. -/
def contains (table : MethodTable) (name : Text) : Bool :=
  table.methods.contains (Text.toLower name)

/-- The number of methods. -/
def size (table : MethodTable) : Nat :=
  table.methods.size

/-- The table has no methods. -/
def isEmpty (table : MethodTable) : Bool :=
  table.methods.isEmpty

/-- The methods in the order of their names as they are written. -/
def sorted (table : MethodTable) : List Method :=
  table.methods.values.mergeSort fun left right ↦ !decide (right.name < left.name)

end MethodTable

end PenScript
