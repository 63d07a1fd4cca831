import PenScript.Arithmetic
import PenScript.Error
import PenScript.Nesting

/-!
# Expressions

An expression is a concatenation when it holds a quote, and a formula otherwise. A formula is split
at its first connective outside parentheses, so connectives group to the right whichever they are; a
leading `!` negates a whole comparison; a comparison is split at its first operator, and what is
left is arithmetic. Both sides of a connective are always evaluated, the left one first. A failure
is reported together with the whole text that was evaluated.
-/

namespace PenScript

namespace Connective

/-- The connective that a text starts with, and what follows it. -/
def front? : Text → Option (Connective × Text)
  | '&' :: '&' :: rest => some (.conjunction, rest)
  | '|' :: '|' :: rest => some (.disjunction, rest)
  | _ => none

/-- What follows a connective is shorter. -/
theorem length_of_front_connective {text rest : Text} {connective : Connective}
    (read : front? text = some (connective, rest)) : rest.length < text.length := by
  unfold front? at read
  split at read
  · simp only [Option.some.injEq, Prod.mk.injEq] at read
    simp only [← read.2, List.length_cons]
    omega
  · simp only [Option.some.injEq, Prod.mk.injEq] at read
    simp only [← read.2, List.length_cons]
    omega
  · simp at read

end Connective

namespace Comparison

/-- The comparison that a text starts with, and what follows it. A comparison of two characters goes
before the one that is its first character. -/
def front? : Text → Option (Comparison × Text)
  | '<' :: '=' :: rest => some (.lessOrEqual, rest)
  | '>' :: '=' :: rest => some (.greaterOrEqual, rest)
  | '=' :: '=' :: rest => some (.equal, rest)
  | '!' :: '=' :: rest => some (.different, rest)
  | '<' :: rest => some (.less, rest)
  | '>' :: rest => some (.greater, rest)
  | _ => none

/-- Whether two values are equal. Only truth values, texts and numbers can be compared, each with
their own kind. -/
def areEqual (left right : Value) : Except Fault Bool :=
  match left, right with
  | .boolean a, .boolean b => .ok (a == b)
  | .string a, .string b => .ok (a == b)
  | _, _ =>
      if left.isNumber && right.isNumber then .ok (left.equal right)
      else .error (.typeMismatch (right.mismatch left.typeName))

/-- The order of two numbers. -/
def order (left right : Value) : Except Fault Ordering :=
  match left, right with
  | .integer a, .integer b => .ok (compare a.toInt b.toInt)
  | _, _ => do
      let a ← left.toReal.mapError .typeMismatch
      let b ← right.toReal.mapError .typeMismatch
      if a < b then pure .lt
      else if b < a then pure .gt
      else if a == b then pure .eq
      else .error .unordered

/-- The truth value of a comparison. -/
def apply (comparison : Comparison) (left right : Value) : Except Fault Bool :=
  match comparison with
  | .equal => areEqual left right
  | .different => (areEqual left right).map (!·)
  | .less => (order left right).map (·.isLT)
  | .lessOrEqual => (order left right).map (·.isLE)
  | .greater => (order left right).map (·.isGT)
  | .greaterOrEqual => (order left right).map (·.isGE)

end Comparison

namespace Expression

private theorem length_of_trim (text : Text) : (Text.trim text).length ≤ text.length := by
  have hend : ((Text.trimStart text).reverse.dropWhile Text.isBlank).length ≤
      (Text.trimStart text).reverse.length := (List.dropWhile_suffix _).length_le
  have hstart : (Text.trimStart text).length ≤ text.length :=
    (List.dropWhile_suffix _).length_le
  rw [List.length_reverse] at hend
  simp only [Text.trim, Text.trimEnd, List.length_reverse]
  omega

/-- The inside of a text that a pair of parentheses encloses. -/
def enclosed? : Text → Option Text
  | '(' :: rest => Nesting.closedBy (Nesting.start.next '(') rest
  | _ => none

private theorem length_of_enclosed {text inner : Text} (enclosed : enclosed? text = some inner) :
    inner.length < text.length := by
  unfold enclosed? at enclosed
  split at enclosed
  · have := Nesting.length_of_closed_by enclosed
    simp only [List.length_cons]
    omega
  · simp at enclosed

/-- The text without blanks around it and without the pairs of parentheses that enclose all of it.
-/
def core (text : Text) : Text :=
  match enclosed : enclosed? (Text.trim text) with
  | none => Text.trim text
  | some inner =>
      have : inner.length < text.length :=
        Nat.lt_of_lt_of_le (length_of_enclosed enclosed) (length_of_trim text)
      core inner
termination_by text.length

/-- The core of a text is no longer than the text. -/
theorem length_of_core (text : Text) : (core text).length ≤ text.length := by
  fun_induction core text with
  | case1 text _ => exact length_of_trim text
  | case2 text inner _ shorter ih => exact Nat.le_of_lt (Nat.lt_of_le_of_lt ih shorter)

/-- The truth value of a value in a formula. -/
def truth (value : Value) : Except Fault Bool :=
  value.toBool.mapError .typeMismatch

/-- The value of a formula without connectives and negation: a comparison or arithmetic. -/
def comparison (scope : Scope) (text : Text) : Except Fault Value :=
  match Nesting.findOperator Comparison.front? Nesting.start text with
  | none => Arithmetic.evaluate scope text
  | some (left, operator, right) => do
      let a ← Arithmetic.evaluate scope left
      let b ← Arithmetic.evaluate scope right
      let result ← operator.apply a b
      pure (.boolean result)

/-- What follows a negation at the start of a formula. -/
def negated? : Text → Option Text
  | '!' :: rest => if rest.head? = some '=' then none else some rest
  | _ => none

private theorem length_of_negated {text rest : Text} (negated : negated? text = some rest) :
    rest.length < text.length := by
  unfold negated? at negated
  split at negated
  · split at negated
    · simp at negated
    · simp_all
  · simp at negated

/-- The value of a text without quotes. -/
def formula (scope : Scope) (text : Text) : Except Fault Value :=
  if (core text).isEmpty then .error .emptyExpression
  else match found : Nesting.findOperator Connective.front? Nesting.start (core text) with
    | some (left, connective, right) =>
        have : left.length + right.length < text.length :=
          Nat.lt_of_lt_of_le
            (Nesting.length_of_find_operator Connective.length_of_front_connective found)
            (length_of_core text)
        do
          let a ← (formula scope left).bind truth
          let b ← (formula scope right).bind truth
          pure (.boolean (connective.apply a b))
    | none =>
        match negated : negated? (core text) with
        | some rest =>
            have : rest.length < text.length :=
              Nat.lt_of_lt_of_le (length_of_negated negated) (length_of_core text)
            do
              let a ← (formula scope rest).bind truth
              pure (.boolean (!a))
        | none => comparison scope (core text)
termination_by text.length

/-- The inside of a text in quotes that holds no other quote. -/
def literal? : Text → Option Text
  | '"' :: rest =>
      (Text.dropLast? '"' rest).bind fun inner ↦ if inner.contains '"' then none else some inner
  | _ => none

/-- The value of one operand of a concatenation. -/
def segment (scope : Scope) (text : Text) : Except Fault Value :=
  let trimmed := Text.trim text
  if trimmed.isEmpty then .error .missingOperand
  else match literal? trimmed with
    | some inner => .ok (.string inner)
    | none =>
        if trimmed.contains '"' then .error (.malformedString trimmed)
        else formula scope trimmed

/-- The value of operands with plus signs between them: numbers are added from left to right, and
when some operand is no number the texts of all of them are joined. -/
def combined (values : List Value) : Except Fault Value :=
  if values.all Value.isNumber then
    match values with
    | [] => .ok (.integer 0)
    | first :: rest => rest.foldlM (ArithmeticOperator.apply .add) first
  else .ok (.string (values.flatMap Value.text))

/-- The value of a text with quotes. -/
def concatenation (scope : Scope) (text : Text) : Except Fault Value := do
  let values ← (Text.splitOutside '+' text).mapM (segment scope)
  combined values

/-- The value of a text. -/
def value (scope : Scope) (text : Text) : Except Fault Value :=
  if text.contains '"' then concatenation scope (core text) else formula scope text

/-- A failure is reported with the text that was evaluated. -/
def report {α : Type} (text : Text) (result : Except Fault α) : Except Error α :=
  result.mapError (.expression (Text.trim text))

/-- The value of an expression. -/
def evaluate (scope : Scope) (text : Text) : Except Error Value :=
  report text (value scope text)

/-- The truth value of an expression. -/
def condition (scope : Scope) (text : Text) : Except Error Bool :=
  report text ((value scope text).bind truth)

end Expression

end PenScript
