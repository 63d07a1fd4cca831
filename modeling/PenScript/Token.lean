import PenScript.Real.Numeral
import PenScript.Text

/-!
# Tokens

The tokens of an arithmetic expression, and the text of each.
-/

namespace PenScript

/-- A token of an arithmetic expression. -/
inductive Token where
  | boolean (value : Bool)
  | real (value : Float)
  | integer (value : Int64)
  | name (text : Text)
  | plus
  | minus
  | star
  | slash
  | percent
  | leftParen
  | rightParen

/-- The text of a token: a number is in decimal notation, and a name or a mark stands for itself. -/
def Token.text : Token → Text
  | .boolean value => if value then "true".toList else "false".toList
  | .real value => Real.shortest value
  | .integer value => Text.ofInt value.toInt
  | .name text => text
  | .plus => ['+']
  | .minus => ['-']
  | .star => ['*']
  | .slash => ['/']
  | .percent => ['%']
  | .leftParen => ['(']
  | .rightParen => [')']

end PenScript
