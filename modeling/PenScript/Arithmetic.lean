import PenScript.Fault
import PenScript.Integer
import PenScript.Scope
import PenScript.Token.Scan

/-!
# Arithmetic

Arithmetic expressions over numbers and variables. Integers stay exact: a result that does not fit
is an overflow, and a quotient that is not whole is a real number. The value of a token list is
computed while it is read, by the grammar

    sum     := product (('+' | '-') product)*
    product := factor (('*' | '/' | '%') factor)*
    factor  := ('-' | '+') factor | atom
    atom    := literal | name | '(' sum ')'

so the fault that is reported is the first one from left to right.
-/

namespace PenScript

namespace ArithmeticOperator

/-- An integer result, or the overflow of the operator. -/
def exact (operator : ArithmeticOperator) (result : Option Int64) : Except Fault Value :=
  match result with
  | some number => .ok (.integer number)
  | none => .error (.overflow operator)

/-- The operator between two integers. -/
def applyIntegers (operator : ArithmeticOperator) (left right : Int64) : Except Fault Value :=
  match operator with
  | .add => operator.exact (Integer.add? left right)
  | .subtract => operator.exact (Integer.sub? left right)
  | .multiply => operator.exact (Integer.mul? left right)
  | .divide =>
      if right = 0 then .error .divisionByZero
      else if Integer.remainder? left right = some 0 then
        operator.exact (Integer.quotient? left right)
      else .ok (.real (Real.ofInteger left / Real.ofInteger right))
  | .remainder =>
      if right = 0 then .error .divisionByZero
      else operator.exact (Integer.remainder? left right)

/-- The operator between two real numbers, whatever the result. -/
def onReals : ArithmeticOperator → Float → Float → Float
  | .add, left, right => left + right
  | .subtract, left, right => left - right
  | .multiply, left, right => left * right
  | .divide, left, right => left / right
  | .remainder, left, right => Real.remainder left right

/-- The operator between two real numbers. The result has to be finite. -/
def applyReals (operator : ArithmeticOperator) (left right : Float) : Except Fault Value :=
  if (operator = .divide ∨ operator = .remainder) ∧ right == 0 then .error .divisionByZero
  else
    let result := operator.onReals left right
    if result.isFinite then .ok (.real result) else .error (.notFinite operator)

/-- The operator between two values. When one of them is a real number, the other is widened. -/
def apply (operator : ArithmeticOperator) (left right : Value) : Except Fault Value :=
  match left, right with
  | .integer a, .integer b => operator.applyIntegers a b
  | _, _ =>
      match left.real?, right.real? with
      | some a, some b => operator.applyReals a b
      | none, _ => .error (.typeMismatch (left.mismatch "number".toList))
      | some _, none => .error (.typeMismatch (right.mismatch "number".toList))

/-- The additive operator that a token is. -/
def additive? : Token → Option ArithmeticOperator
  | .plus => some .add
  | .minus => some .subtract
  | _ => none

/-- The multiplicative operator that a token is. -/
def multiplicative? : Token → Option ArithmeticOperator
  | .star => some .multiply
  | .slash => some .divide
  | .percent => some .remainder
  | _ => none

end ArithmeticOperator

namespace Arithmetic

/-- The opposite of a number. -/
def negate : Value → Except Fault Value
  | .integer number => ArithmeticOperator.subtract.exact (Integer.neg? number)
  | .real number => .ok (.real (-number))
  | other => .error (.typeMismatch (other.mismatch "number".toList))

/-- A value, and the tokens after those it was computed from. -/
abbrev Reading := Except Fault (Value × List Token)

mutual

/-- A sum: products with `+` and `-` between them, from left to right. -/
def sum (scope : Scope) : Nat → List Token → Reading
  | 0, _ => .error .unexpectedEnd
  | fuel + 1, tokens => do
      let (value, rest) ← product scope fuel tokens
      sumTail scope fuel value rest

/-- The further terms of a sum whose value so far is given. -/
def sumTail (scope : Scope) : Nat → Value → List Token → Reading
  | 0, _, _ => .error .unexpectedEnd
  | _ + 1, value, [] => .ok (value, [])
  | fuel + 1, value, token :: rest =>
      match ArithmeticOperator.additive? token with
      | none => .ok (value, token :: rest)
      | some operator => do
          let (right, others) ← product scope fuel rest
          let result ← operator.apply value right
          sumTail scope fuel result others

/-- A product: factors with `*`, `/` and `%` between them, from left to right. -/
def product (scope : Scope) : Nat → List Token → Reading
  | 0, _ => .error .unexpectedEnd
  | fuel + 1, tokens => do
      let (value, rest) ← factor scope fuel tokens
      productTail scope fuel value rest

/-- The further factors of a product whose value so far is given. -/
def productTail (scope : Scope) : Nat → Value → List Token → Reading
  | 0, _, _ => .error .unexpectedEnd
  | _ + 1, value, [] => .ok (value, [])
  | fuel + 1, value, token :: rest =>
      match ArithmeticOperator.multiplicative? token with
      | none => .ok (value, token :: rest)
      | some operator => do
          let (right, others) ← factor scope fuel rest
          let result ← operator.apply value right
          productTail scope fuel result others

/-- A factor: an atom after any number of signs. -/
def factor (scope : Scope) : Nat → List Token → Reading
  | 0, _ => .error .unexpectedEnd
  | fuel + 1, .minus :: rest => do
      let (value, others) ← factor scope fuel rest
      let result ← negate value
      pure (result, others)
  | fuel + 1, .plus :: rest => do
      let (value, others) ← factor scope fuel rest
      let result ← value.toNumber.mapError .typeMismatch
      pure (result, others)
  | fuel + 1, tokens => atom scope fuel tokens

/-- A literal, a variable, or a sum in parentheses. -/
def atom (scope : Scope) : Nat → List Token → Reading
  | 0, _ => .error .unexpectedEnd
  | _ + 1, [] => .error .unexpectedEnd
  | _ + 1, .integer number :: rest => .ok (.integer number, rest)
  | _ + 1, .real number :: rest => .ok (.real number, rest)
  | _ + 1, .boolean truth :: rest => .ok (.boolean truth, rest)
  | _ + 1, .name name :: rest =>
      match scope.get? name with
      | some value => .ok (value, rest)
      | none => .error (.undefinedVariable name)
  | fuel + 1, .leftParen :: rest => do
      let (value, others) ← sum scope fuel rest
      match others with
      | .rightParen :: afterParen => .ok (value, afterParen)
      | _ => .error .missingParenthesis
  | _ + 1, token :: _ => .error (.unexpectedToken token)

end

/-- The value of a token list. Between two tokens the functions of the grammar call each other at
most six times, so the fuel always suffices. -/
def ofTokens (scope : Scope) (tokens : List Token) : Except Fault Value :=
  if tokens.isEmpty then .error .emptyExpression
  else do
    let (value, rest) ← sum scope (6 * tokens.length + 6) tokens
    match rest with
    | [] => pure value
    | token :: _ => .error (.unexpectedToken token)

/-- The value of an arithmetic expression. -/
def evaluate (scope : Scope) (text : Text) : Except Fault Value := do
  let tokens ← Token.scan (Text.trim text)
  ofTokens scope tokens

end Arithmetic

end PenScript
