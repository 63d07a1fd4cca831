import PenScript.Text.Quoted

/-!
# The canvas

The canvas has a pen with a position, a colour and a fill state, and it keeps a log of everything
that was drawn. A drawing command is an `Action`; the `Operation` in the log also says where the pen
was and whether shapes were filled. The trace shows the log, one operation on each line.
-/

namespace PenScript

/-- A place on the canvas. -/
structure Point where
  x : Int32
  y : Int32
deriving DecidableEq

/-- A colour by its three components. -/
structure Colour where
  red : UInt8
  green : UInt8
  blue : UInt8
deriving DecidableEq

namespace Canvas

/-- What a program asks of the canvas. -/
inductive Action where
  | moveTo (target : Point)
  /-- Draws a line from the pen to the target and moves the pen there. -/
  | drawTo (target : Point)
  | setColour (colour : Colour)
  | setFill (on : Bool)
  /-- Draws a rectangle with its top left corner at the pen. -/
  | rectangle (width height : Int32)
  /-- Draws a circle around the pen. -/
  | circle (radius : Int32)
  | triangle (width height : Int32)
  | write (text : Text)
  | clear
deriving DecidableEq

/-- What was drawn. -/
inductive Operation where
  | moveTo (target : Point)
  | line (start target : Point)
  | colour (colour : Colour)
  | fill (on : Bool)
  | rectangle (corner : Point) (width height : Int32) (filled : Bool)
  | circle (centre : Point) (radius : Int32) (filled : Bool)
  | triangle (corner : Point) (width height : Int32) (filled : Bool)
  | text (place : Point) (text : Text)
  | clear
deriving DecidableEq

end Canvas

/-- The pen and the log of the canvas. -/
structure Canvas where
  position : Point
  colour : Colour
  filling : Bool
  operations : Array Canvas.Operation
deriving DecidableEq

namespace Canvas

/-- The canvas at the start: the pen is black, at the origin, and does not fill. -/
def blank : Canvas := ⟨⟨0, 0⟩, ⟨0, 0, 0⟩, false, #[]⟩

/-- What an action records, given the pen before it. -/
def record (canvas : Canvas) : Action → Operation
  | .moveTo target => .moveTo target
  | .drawTo target => .line canvas.position target
  | .setColour colour => .colour colour
  | .setFill on => .fill on
  | .rectangle width height => .rectangle canvas.position width height canvas.filling
  | .circle radius => .circle canvas.position radius canvas.filling
  | .triangle width height => .triangle canvas.position width height canvas.filling
  | .write text => .text canvas.position text
  | .clear => .clear

/-- The pen after an action. The log stays as it is. -/
def movePen (canvas : Canvas) : Action → Canvas
  | .moveTo target | .drawTo target => { canvas with position := target }
  | .setColour colour => { canvas with colour := colour }
  | .setFill on => { canvas with filling := on }
  | .rectangle .. | .circle _ | .triangle .. | .write _ | .clear => canvas

/-- The canvas with one more operation in its log. -/
def push (canvas : Canvas) (operation : Operation) : Canvas :=
  { canvas with operations := canvas.operations.push operation }

/-- The canvas after an action. -/
def perform (canvas : Canvas) (action : Action) : Canvas :=
  (canvas.movePen action).push (canvas.record action)

namespace Operation

/-- The two coordinates of a point. -/
def pointText (point : Point) : Text :=
  Text.ofInt point.x.toInt ++ ',' :: Text.ofInt point.y.toInt

/-- A pair of sizes. -/
def sizeText (width height : Int32) : Text :=
  Text.ofInt width.toInt ++ 'x' :: Text.ofInt height.toInt

/-- The place of a shape, and whether it is filled. -/
def placeText (point : Point) (filled : Bool) : Text :=
  " at ".toList ++ pointText point ++ (if filled then " filled".toList else [])

/-- The line that shows an operation. -/
def description : Operation → Text
  | .moveTo target => "moveto ".toList ++ pointText target
  | .line start target => "line ".toList ++ pointText start ++ " -> ".toList ++ pointText target
  | .colour shade =>
      "colour ".toList ++ Text.ofNat shade.red.toNat ++ ',' :: Text.ofNat shade.green.toNat ++
        ',' :: Text.ofNat shade.blue.toNat
  | .fill on => "fill ".toList ++ (if on then "on".toList else "off".toList)
  | .rectangle corner width height filled =>
      "rect ".toList ++ sizeText width height ++ placeText corner filled
  | .circle centre radius filled =>
      "circle r=".toList ++ Text.ofInt radius.toInt ++ placeText centre filled
  | .triangle corner width height filled =>
      "tri ".toList ++ sizeText width height ++ placeText corner filled
  | .text place written =>
      "text ".toList ++ Text.quoted written ++ placeText place false
  | .clear => "clear".toList

end Operation

/-- The log with one operation on each line. -/
def trace (canvas : Canvas) : Text :=
  Text.join ['\n'] (canvas.operations.toList.map Operation.description)

end Canvas

end PenScript
