import PenScript.Expression
import PenScript.Integer
import PenScript.Line

/-!
# Counting loops

The header `variable = start to end step s` of a counting loop, and how its counter moves. The words
`to` and `step` stand between ASCII blanks and are read in any letter case; without a step the
counter moves by one. A counter that is an integer stays exact, and every other one is a real
number.
-/

namespace PenScript.Loop

/-- The parts of the header of a counting loop. -/
structure Header where
  counter : Text
  start : Text
  limit : Text
  step : Option Text

/-- An ASCII blank: a space, a tab, a line feed, a form feed or a carriage return. -/
def isAsciiBlank (c : Char) : Bool :=
  c == ' ' || c == '\t' || c == '\n' || c == '\x0c' || c == '\r'

/-- The rest of a text after a word, in any letter case, that ends the text or has a blank after
it. -/
def afterWord? (word text : Text) : Option Text :=
  let rest := text.drop word.length
  if Text.toLower (text.take word.length) == word && rest.head?.all isAsciiBlank then some rest
  else none

/-- The texts before and after the first place where a word stands between blanks or the ends of the
text. `free` says that the text starts at such a place. -/
def splitAtWord (word : Text) (free : Bool) : Text → Option (Text × Text)
  | [] => none
  | c :: rest =>
      match if free then afterWord? word (c :: rest) else none with
      | some after => some ([], after)
      | none =>
          (splitAtWord word (isAsciiBlank c) rest).map fun (before, after) ↦ (c :: before, after)

/-- The header of a counting loop. -/
def Header.parse? (text : Text) : Option Header := do
  let counter := (Line.splitWord text).1
  guard (counter.head?.any fun c ↦ !c.isDigit)
  let after ← Line.afterEquals? (Line.splitWord text).2
  let (start, bounds) ← splitAtWord "to".toList true after
  let (limit, step) := match splitAtWord "step".toList true bounds with
    | some (limit, step) => (Text.trim limit, some (Text.trim step))
    | none => (Text.trim bounds, none)
  guard (!(Text.trim start).isEmpty && !limit.isEmpty && !step.any (·.isEmpty))
  pure ⟨counter, Text.trim start, limit, step⟩

/-- The form of the header of a counting loop. -/
def shape : Text := "for variable = start to end [step n]".toList

/-- The number that an expression in a header denotes. -/
def number (scope : Scope) (text : Text) : Except Error Value := do
  let value ← Expression.evaluate scope text
  value.toNumber.mapError .typeMismatch

/-- A value as a real number. -/
def realOf (value : Value) : Except Error Float :=
  value.toReal.mapError .typeMismatch

/-- The counter has not passed the limit in the direction of the step. -/
def inRange (counter limit step : Value) : Except Error Bool := do
  let order ← match counter, limit with
    | .integer a, .integer b => pure (compare a.toInt b.toInt)
    | _, _ => do
        let a ← realOf counter
        let b ← realOf limit
        if a < b then pure .lt
        else if b < a then pure .gt
        else if a == b then pure .eq
        else throw (.argument .boundNotNumber)
  let direction ← realOf step
  pure (if 0 < direction then order.isLE else order.isGE)

/-- The counter after one step. -/
def advance (counter step : Value) : Except Error Value :=
  match counter, step with
  | .integer a, .integer b =>
      match Integer.add? a b with
      | some next => .ok (.integer next)
      | none => .error (.argument .counterOverflow)
  | _, _ => do
      let a ← realOf counter
      let b ← realOf step
      pure (.real (a + b))

/-- The start, the limit and the step of a loop. -/
structure Bounds where
  start : Value
  limit : Value
  step : Value

/-- The numbers in a header, evaluated in the order in which they are written. The step must not be
zero. -/
def bounds (scope : Scope) (header : Header) : Except Error Bounds := do
  let start ← number scope header.start
  let limit ← number scope header.limit
  let step ← match header.step with
    | none => pure (.integer 1)
    | some text => number scope text
  let direction ← realOf step
  if direction == 0 then throw (.argument .zeroStep)
  pure ⟨start, limit, step⟩

end PenScript.Loop
