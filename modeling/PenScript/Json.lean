import PenScript.Text

/-!
# JSON

The part of JSON that a drawing needs, and its layout over several lines: two spaces for each level,
every element and every member on a line of its own.
-/

namespace PenScript

/-- A JSON value. Members of an object keep their order. -/
inductive Json where
  | bool (truth : Bool)
  | number (value : Int)
  | string (text : Text)
  | array (items : List Json)
  | object (members : List (Text × Json))

namespace Json

/-- The form of one character inside a JSON string. Only quotes, backslashes and control characters
below the space are escaped. -/
def escapedChar (c : Char) : Text :=
  match c with
  | '"' => "\\\"".toList
  | '\\' => "\\\\".toList
  | '\n' => "\\n".toList
  | '\r' => "\\r".toList
  | '\t' => "\\t".toList
  | '\x08' => "\\b".toList
  | '\x0c' => "\\f".toList
  | _ =>
      if c.toNat < 0x20 then
        "\\u".toList ++ List.leftpad 4 '0' (Nat.toDigits 16 c.toNat)
      else [c]

/-- A text as a JSON string. -/
def stringLiteral (text : Text) : Text :=
  '"' :: text.flatMap escapedChar ++ ['"']

/-- The start of a line at a level of nesting. -/
def newLine (level : Nat) : Text :=
  '\n' :: List.replicate (2 * level) ' '

/-- Items between two brackets, each on a line one level deeper. -/
def bracketed (opening closing : Text) (level : Nat) (items : List Text) : Text :=
  if items.isEmpty then opening ++ closing
  else
    opening ++ newLine (level + 1) ++ Text.join (',' :: newLine (level + 1)) items ++
      newLine level ++ closing

mutual

/-- The layout of a value at a level of nesting. -/
def pretty (level : Nat) : Json → Text
  | .bool truth => if truth then "true".toList else "false".toList
  | .number value => Text.ofInt value
  | .string text => stringLiteral text
  | .array items => bracketed ['['] [']'] level (prettyItems (level + 1) items)
  | .object members =>
      bracketed ['\x7b'] ['\x7d'] level (prettyMembers (level + 1) members)

/-- The layouts of the elements of an array. -/
def prettyItems (level : Nat) : List Json → List Text
  | [] => []
  | item :: rest => pretty level item :: prettyItems level rest

/-- The layouts of the members of an object. -/
def prettyMembers (level : Nat) : List (Text × Json) → List Text
  | [] => []
  | (name, value) :: rest =>
      (stringLiteral name ++ ": ".toList ++ pretty level value) :: prettyMembers level rest

end

end Json

end PenScript
