/-!
# Operators

The operators of expressions: arithmetic on numbers, comparison of two values, and the two logical
connectives.
-/

namespace PenScript

/-- An arithmetic operator between two numbers. -/
inductive ArithmeticOperator where
  | add
  | subtract
  | multiply
  | divide
  | remainder
deriving DecidableEq

/-- The character that an arithmetic operator is written with. -/
def ArithmeticOperator.symbol : ArithmeticOperator → Char
  | .add => '+'
  | .subtract => '-'
  | .multiply => '*'
  | .divide => '/'
  | .remainder => '%'

/-- A comparison of two values. -/
inductive Comparison where
  | lessOrEqual
  | greaterOrEqual
  | equal
  | different
  | less
  | greater
deriving DecidableEq

/-- A logical connective of two truth values. -/
inductive Connective where
  | conjunction
  | disjunction
deriving DecidableEq

/-- The truth value of a connective. -/
def Connective.apply : Connective → Bool → Bool → Bool
  | .conjunction, left, right => left && right
  | .disjunction, left, right => left || right

end PenScript
