import PenScript.Operator
import PenScript.Text.Quoted
import PenScript.Token
import PenScript.Value

/-!
# Faults of evaluation

Why a text has no value. A fault is a cause; `Fault.message` holds its wording.
-/

namespace PenScript

/-- Why a text has no value. -/
inductive Fault where
  | emptyExpression
  | missingOperand
  | malformedString (segment : Text)
  | unexpectedInput (slice : Text) (offset : Nat)
  | unexpectedToken (token : Token)
  | missingParenthesis
  | unexpectedEnd
  | undefinedVariable (name : Text)
  | typeMismatch (mismatch : TypeMismatch)
  | overflow (operator : ArithmeticOperator)
  | divisionByZero
  | notFinite (operator : ArithmeticOperator)
  | unordered

/-- The wording of an undefined variable. -/
def undefinedVariableMessage (name : Text) : Text :=
  "undefined variable: ".toList ++ name

/-- The wording of a fault. -/
def Fault.message : Fault → Text
  | .emptyExpression => "empty expression".toList
  | .missingOperand => "missing operand around '+'".toList
  | .malformedString segment => "malformed string literal ".toList ++ segment
  | .unexpectedInput slice offset =>
      "unexpected input ".toList ++ Text.quoted slice ++ " at offset ".toList ++ Text.ofNat offset
  | .unexpectedToken token => "unexpected `".toList ++ token.text ++ "`".toList
  | .missingParenthesis => "missing ')'".toList
  | .unexpectedEnd => "unexpected end of expression".toList
  | .undefinedVariable name => undefinedVariableMessage name
  | .typeMismatch mismatch => mismatch.message
  | .overflow operator => "integer overflow in '".toList ++ [operator.symbol, '\'']
  | .divisionByZero => "division by zero".toList
  | .notFinite operator =>
      '\'' :: operator.symbol :: "' produced a non-finite number".toList
  | .unordered => "cannot order NaN".toList

end PenScript
