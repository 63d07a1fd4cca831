import PenScript.Canvas
import PenScript.Json

/-!
# Drawings as JSON

The log of a canvas as data: one object for each operation, which names the operation first.
-/

namespace PenScript.Canvas

/-- A point as the list of its coordinates. -/
def pointJson (point : Point) : Json :=
  .array [.number point.x.toInt, .number point.y.toInt]

/-- A byte as a number. -/
def byteJson (byte : UInt8) : Json :=
  .number byte.toNat

/-- A width and a height as members of an object. -/
def sizeMembers (width height : Int32) : List (Text × Json) :=
  [("width".toList, .number width.toInt), ("height".toList, .number height.toInt)]

/-- The name of an operation as data. -/
def Operation.name : Operation → Text
  | .moveTo _ => "move_to".toList
  | .line .. => "draw_to".toList
  | .colour _ => "colour".toList
  | .fill _ => "fill".toList
  | .rectangle .. => "rectangle".toList
  | .circle .. => "circle".toList
  | .triangle .. => "triangle".toList
  | .text .. => "text".toList
  | .clear => "clear".toList

/-- The data of an operation, apart from its name. -/
def Operation.members : Operation → List (Text × Json)
  | .moveTo target => [("x".toList, .number target.x.toInt), ("y".toList, .number target.y.toInt)]
  | .line start target => [("from".toList, pointJson start), ("to".toList, pointJson target)]
  | .colour shade =>
      [("r".toList, byteJson shade.red), ("g".toList, byteJson shade.green),
        ("b".toList, byteJson shade.blue)]
  | .fill on => [("on".toList, .bool on)]
  | .rectangle corner width height filled =>
      ("at".toList, pointJson corner) :: sizeMembers width height ++
        [("filled".toList, .bool filled)]
  | .circle centre radius filled =>
      [("at".toList, pointJson centre), ("radius".toList, .number radius.toInt),
        ("filled".toList, .bool filled)]
  | .triangle corner width height filled =>
      ("at".toList, pointJson corner) :: sizeMembers width height ++
        [("filled".toList, .bool filled)]
  | .text place written => [("at".toList, pointJson place), ("text".toList, .string written)]
  | .clear => []

/-- An operation as an object. -/
def Operation.toJson (operation : Operation) : Json :=
  .object (("op".toList, .string operation.name) :: operation.members)

/-- The log of a canvas as a list of objects. -/
def operationsJson (canvas : Canvas) : Json :=
  .array (canvas.operations.toList.map Operation.toJson)

/-- The whole canvas as an object. -/
def toJson (canvas : Canvas) : Json :=
  .object
    [("position".toList, pointJson canvas.position),
      ("colour".toList,
        .array [byteJson canvas.colour.red, byteJson canvas.colour.green,
          byteJson canvas.colour.blue]),
      ("fill".toList, .bool canvas.filling),
      ("ops".toList, canvas.operationsJson)]

end PenScript.Canvas
