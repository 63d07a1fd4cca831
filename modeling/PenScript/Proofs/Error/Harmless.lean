import PenScript.Interpreter

/-!
# Errors of a single line

A result is `Harmless` when it is no fatal error. Everything that a line evaluates is harmless: an
expression fails with an expression error, and the commands, the headers of loops and the elements
of arrays have errors of their own. So a fatal error can only come from the block structure.
-/

namespace PenScript

variable {α β : Type}

/-- The result is no fatal error. -/
def Harmless (result : Except Error α) : Prop :=
  ∀ error, result = .error error → error.isFatal = false

namespace Harmless

theorem ok (value : α) : Harmless (.ok value : Except Error α) := by
  intro error h
  cases h

theorem pure (value : α) : Harmless (Pure.pure value : Except Error α) :=
  ok value

theorem error {error : Error} (h : error.isFatal = false) :
    Harmless (.error error : Except Error α) := by
  intro other hother
  obtain rfl : error = other := Except.error.inj hother
  exact h

/-- Raising an error that is not fatal. -/
theorem throw {error : Error} (h : error.isFatal = false) :
    Harmless (throw error : Except Error α) :=
  .error h

/-- What would come after an error that is not fatal does not matter. -/
theorem throw_bind {error : Error} (h : error.isFatal = false) (rest : β → Except Error α) :
    Harmless (throwThe Error error >>= rest) :=
  .error h

/-- One computation after another. -/
theorem bind {first : Except Error α} {rest : α → Except Error β} (h : Harmless first)
    (hrest : ∀ value, Harmless (rest value)) : Harmless (first >>= rest) := by
  cases first with
  | error error => exact .error (h error rfl)
  | ok value => exact hrest value

/-- Either branch of a test. -/
theorem ite {condition : Prop} [Decidable condition] {yes no : Except Error α} (hyes : Harmless yes)
    (hno : Harmless no) : Harmless (if condition then yes else no) := by
  split
  · exact hyes
  · exact hno

/-- The value of a computation is changed. -/
theorem map {first : Except Error α} (h : Harmless first) (change : α → β) :
    Harmless (first.map change) := by
  cases first with
  | error error => exact .error (h error rfl)
  | ok value => exact .ok (change value)

/-- Errors are wrapped in one that is not fatal. -/
theorem mapError {Cause : Type} {wrap : Cause → Error} (h : ∀ cause, (wrap cause).isFatal = false)
    (result : Except Cause α) : Harmless (result.mapError wrap) := by
  cases result with
  | error cause => exact .error (h cause)
  | ok value => exact .ok value

/-- A computation for each item of a list. -/
theorem mapM {Item : Type} {each : Item → Except Error α} (h : ∀ item, Harmless (each item))
    (items : List Item) : Harmless (items.mapM each) := by
  induction items with
  | nil => exact .ok []
  | cons item items ih =>
      rw [List.mapM_cons]
      exact (h item).bind fun _ ↦ ih.bind fun _ ↦ .ok _

end Harmless

namespace Expression

theorem evaluate_harmless (scope : Scope) (text : Text) : Harmless (evaluate scope text) :=
  .mapError (fun _ ↦ rfl) _

theorem condition_harmless (scope : Scope) (text : Text) : Harmless (condition scope text) :=
  .mapError (fun _ ↦ rfl) _

end Expression

namespace Arguments

theorem single_harmless (shape text : Text) : Harmless (single shape text) := by
  unfold single
  split
  · exact .error rfl
  · exact .ok _

theorem pair_harmless (shape text : Text) : Harmless (pair shape text) := by
  unfold pair
  split
  · split
    · exact .error rfl
    · exact .ok _
  · exact .error rfl

theorem triple_harmless (shape text : Text) : Harmless (triple shape text) := by
  unfold triple
  split
  · split
    · exact .error rfl
    · exact .ok _
  · exact .error rfl

theorem identifier_harmless (shape text : Text) : Harmless (identifier shape text) := by
  unfold identifier
  split
  · exact .ok _
  · exact .error rfl

theorem name_and_expression_harmless (shape text : Text) :
    Harmless (nameAndExpression shape text) := by
  refine (identifier_harmless _ _).bind fun name ↦ ?_
  dsimp only
  split
  · exact .ok _
  · split
    · exact .throw rfl
    · split
      · exact .throw rfl
      · exact .ok _

end Arguments

namespace Value

theorem check_rank_harmless (array : Value) (name : Text) (given : Nat) :
    Harmless (array.checkRank name given) := by
  unfold checkRank
  split
  · exact .error rfl
  · split
    · exact .ok _
    · exact .error rfl

theorem to_index_harmless (value : Value) (name : Text) (length : Nat) :
    Harmless (value.toIndex name length) := by
  refine (Harmless.mapError (fun _ ↦ rfl) _).bind fun number ↦ ?_
  split
  · split
    · exact .ok _
    · exact .throw rfl
  · exact .throw rfl

theorem array_place_harmless (name : Text) (length : Nat) (indices : List Value) :
    Harmless (arrayPlace name length indices) := by
  unfold arrayPlace
  split
  · exact to_index_harmless _ _ _
  · exact .error rfl

theorem matrix_place_harmless (name : Text) (rows columns : Nat) (indices : List Value) :
    Harmless (matrixPlace name rows columns indices) := by
  unfold matrixPlace
  split
  · exact (to_index_harmless _ _ _).bind fun _ ↦ (to_index_harmless _ _ _).bind fun _ ↦ .ok _
  · exact .error rfl

theorem element_harmless (array : Value) (name : Text) (indices : List Value) :
    Harmless (array.element name indices) := by
  unfold element
  split
  case h_1 | h_2 => exact (array_place_harmless _ _ _).bind fun _ ↦ .ok _
  case h_3 | h_4 => exact (matrix_place_harmless _ _ _ _).bind fun _ ↦ .ok _
  case h_5 => exact .error rfl

theorem integer_element_harmless (value : Value) : Harmless value.integerElement := by
  unfold integerElement
  split
  · exact .ok _
  · exact .error rfl

theorem real_element_harmless (value : Value) : Harmless value.realElement :=
  .mapError (fun _ ↦ rfl) _

theorem set_element_harmless (array : Value) (name : Text) (indices : List Value) (value : Value) :
    Harmless (array.setElement name indices value) := by
  unfold setElement
  split
  case h_1 =>
    exact (integer_element_harmless _).bind fun _ ↦ (array_place_harmless _ _ _).bind fun _ ↦ .ok _
  case h_2 =>
    exact (real_element_harmless _).bind fun _ ↦ (array_place_harmless _ _ _).bind fun _ ↦ .ok _
  case h_3 =>
    exact (integer_element_harmless _).bind fun _ ↦
      (matrix_place_harmless _ _ _ _).bind fun _ ↦ .ok _
  case h_4 =>
    exact (real_element_harmless _).bind fun _ ↦
      (matrix_place_harmless _ _ _ _).bind fun _ ↦ .ok _
  case h_5 => exact .error rfl

end Value

namespace Command

theorem to_coordinate_harmless (value : Value) : Harmless (toCoordinate value) := by
  unfold toCoordinate
  dsimp only
  split
  · refine (Harmless.pure _).bind fun number ↦ ?_
    split
    · exact .ok _
    · exact .throw rfl
  · split
    · refine (Harmless.pure _).bind fun number ↦ ?_
      split
      · exact .ok _
      · exact .throw rfl
    · exact .throw_bind rfl _
  · exact .throw_bind rfl _

theorem to_size_harmless (part : Text) (value : Value) : Harmless (toSize part value) := by
  refine (to_coordinate_harmless value).bind fun size ↦ ?_
  split
  · exact .throw rfl
  · exact .ok _

theorem to_component_harmless (value : Value) : Harmless (toComponent value) := by
  refine (Harmless.mapError (fun _ ↦ rfl) _).bind fun number ↦ ?_
  split
  · exact .ok _
  · exact .throw rfl

theorem evaluate_pair_harmless (scope : Scope) (shape text : Text) :
    Harmless (evaluatePair scope shape text) :=
  (Arguments.pair_harmless _ _).bind fun _ ↦
    (Expression.evaluate_harmless _ _).bind fun _ ↦
      (Expression.evaluate_harmless _ _).bind fun _ ↦ .ok _

theorem point_harmless (scope : Scope) (shape text : Text) : Harmless (point scope shape text) :=
  (evaluate_pair_harmless _ _ _).bind fun _ ↦
    (to_coordinate_harmless _).bind fun _ ↦ (to_coordinate_harmless _).bind fun _ ↦ .ok _

theorem sizes_harmless (scope : Scope) (shape text : Text) : Harmless (sizes scope shape text) :=
  (evaluate_pair_harmless _ _ _).bind fun _ ↦
    (to_size_harmless _ _).bind fun _ ↦ (to_size_harmless _ _).bind fun _ ↦ .ok _

theorem radius_harmless (scope : Scope) (text : Text) : Harmless (radius scope text) :=
  (Arguments.single_harmless _ _).bind fun _ ↦
    (Expression.evaluate_harmless _ _).bind fun _ ↦ to_size_harmless _ _

theorem colour_harmless (scope : Scope) (text : Text) : Harmless (colour scope text) := by
  unfold colour
  split
  · split
    · exact .ok _
    · exact .error rfl
  · exact (Arguments.triple_harmless _ _).bind fun _ ↦
      (Expression.evaluate_harmless _ _).bind fun _ ↦
        (Expression.evaluate_harmless _ _).bind fun _ ↦
          (Expression.evaluate_harmless _ _).bind fun _ ↦
            (to_component_harmless _).bind fun _ ↦
              (to_component_harmless _).bind fun _ ↦
                (to_component_harmless _).bind fun _ ↦ .ok _

theorem fill_state_harmless (text : Text) : Harmless (fillState text) := by
  unfold fillState
  split
  case h_7 => exact .error rfl
  all_goals exact .ok _

theorem written_harmless (scope : Scope) (text : Text) : Harmless (written scope text) :=
  (Arguments.single_harmless _ _).bind fun _ ↦
    (Expression.evaluate_harmless _ _).bind fun _ ↦ .ok _

theorem without_arguments_harmless (command : Command) (text : Text) (effect : Effect) :
    Harmless (command.withoutArguments text effect) := by
  unfold withoutArguments
  split
  · exact .ok _
  · exact .error rfl

theorem declaration_harmless (kind : VariableKind) (scope : Scope) (text : Text) :
    Harmless (declaration kind scope text) := by
  refine (Arguments.name_and_expression_harmless _ _).bind fun (name, expression) ↦ ?_
  dsimp only
  split
  · exact .ok _
  · exact (Expression.evaluate_harmless _ _).bind fun _ ↦
      (Harmless.mapError (fun _ ↦ rfl) _).bind fun _ ↦ .ok _

theorem assignment_harmless (scope : Scope) (text : Text) : Harmless (assignment scope text) := by
  refine (Arguments.name_and_expression_harmless _ _).bind fun (name, expression) ↦ ?_
  dsimp only
  split
  · exact .throw rfl
  · refine (Expression.evaluate_harmless _ _).bind fun value ↦ ?_
    split
    · exact .ok _
    · split
      · exact .throw rfl
      · split
        · exact .ok _
        · exact (Harmless.mapError (fun _ ↦ rfl) _).bind fun _ ↦ .ok _

theorem conversion_harmless (scope : Scope) (text : Text) : Harmless (conversion scope text) := by
  refine (Arguments.identifier_harmless _ _).bind fun name ↦ .ite (.throw_bind rfl _) ?_
  exact (Expression.evaluate_harmless _ _).bind fun _ ↦
    (Harmless.mapError (fun _ ↦ rfl) _).bind fun _ ↦ .ok _

theorem to_length_harmless (part : Text) (value : Value) : Harmless (toLength part value) := by
  refine (Harmless.mapError (fun _ ↦ rfl) _).bind fun number ↦ ?_
  split
  · split
    · exact .ok _
    · exact .throw rfl
  · exact .throw rfl

theorem allocation_harmless (scope : Scope) (text : Text) : Harmless (allocation scope text) := by
  refine (Arguments.identifier_harmless _ _).bind fun name ↦ ?_
  dsimp only
  split
  · exact .throw rfl
  · refine (Harmless.mapM (fun part ↦ ?_) _).bind fun lengths ↦ ?_
    · exact (Expression.evaluate_harmless _ _).bind fun _ ↦ to_length_harmless _ _
    · split
      · exact .throw rfl
      · split
        · exact .ok _
        · exact .throw rfl

theorem variable_of_harmless (scope : Scope) (name : Text) : Harmless (variableOf scope name) := by
  unfold variableOf
  split
  · exact .ok _
  · exact .error rfl

theorem store_harmless (scope : Scope) (text : Text) : Harmless (store scope text) := by
  refine (Arguments.identifier_harmless _ _).bind fun name ↦
    (variable_of_harmless _ _).bind fun array ↦ ?_
  dsimp only
  split
  · exact .throw rfl
  · exact (Value.check_rank_harmless _ _ _).bind fun _ ↦
      (Harmless.mapM (Expression.evaluate_harmless _) _).bind fun _ ↦
        (Expression.evaluate_harmless _ _).bind fun _ ↦
          (Value.set_element_harmless _ _ _ _).bind fun _ ↦ .ok _

theorem load_harmless (scope : Scope) (text : Text) : Harmless (load scope text) := by
  refine (Arguments.identifier_harmless _ _).bind fun target ↦ .ite (.throw_bind rfl _) ?_
  exact (Arguments.identifier_harmless _ _).bind fun _ ↦
    (variable_of_harmless _ _).bind fun _ ↦
      (Value.check_rank_harmless _ _ _).bind fun _ ↦
        (Harmless.mapM (Expression.evaluate_harmless _) _).bind fun _ ↦
          (Value.element_harmless _ _ _).bind fun _ ↦ .ok _

theorem call_arguments_harmless (shape text : Text) : Harmless (callArguments shape text) := by
  unfold callArguments
  split
  · split
    · exact .error rfl
    · split
      · exact .ok _
      · exact .ok _
  · exact .ok _

theorem invocation_harmless (text : Text) : Harmless (invocation text) := by
  refine (Arguments.identifier_harmless _ _).bind fun name ↦
    (call_arguments_harmless _ _).bind fun arguments ↦ ?_
  split
  · exact .throw rfl
  · exact .ok _

/-- No command fails with a fatal error. -/
theorem effect_harmless (command : Command) (scope : Scope) (text : Text) :
    Harmless (command.effect scope text) := by
  cases command with
  | moveTo | drawTo => exact (point_harmless _ _ _).map _
  | rectangle | triangle => exact (sizes_harmless _ _ _).map _
  | circle => exact (radius_harmless _ _).map _
  | penColour => exact (colour_harmless _ _).map _
  | fill => exact (fill_state_harmless _).map _
  | write => exact (written_harmless _ _).map _
  | clear | reset => exact without_arguments_harmless _ _ _
  | declare kind => exact declaration_harmless _ _ _
  | array => exact allocation_harmless _ _
  | poke => exact store_harmless _ _
  | peek => exact load_harmless _ _
  | cast => exact conversion_harmless _ _
  | call => exact invocation_harmless _

end Command

/-- No statement fails with a fatal error. -/
theorem Registry.statement_harmless (registry : Registry) (scope : Scope) (line : Text) :
    Harmless (registry.statement scope line) := by
  unfold Registry.statement
  dsimp only
  split
  · exact .error rfl
  · split
    · unfold Registry.assign
      dsimp only
      split
      · exact .error rfl
      · exact Command.assignment_harmless _ _
    · unfold Registry.dispatch
      split
      · exact Command.effect_harmless _ _ _
      · exact .error rfl

namespace Loop

theorem number_harmless (scope : Scope) (text : Text) : Harmless (number scope text) :=
  (Expression.evaluate_harmless _ _).bind fun _ ↦ .mapError (fun _ ↦ rfl) _

theorem real_of_harmless (value : Value) : Harmless (realOf value) :=
  .mapError (fun _ ↦ rfl) _

theorem in_range_harmless (counter limit step : Value) : Harmless (inRange counter limit step) := by
  have hdirection : ∀ order : Ordering, Harmless (do
      let direction ← realOf step
      pure (if 0 < direction then order.isLE else order.isGE)) :=
    fun _ ↦ (real_of_harmless step).bind fun _ ↦ .ok _
  unfold inRange
  dsimp only
  split
  · exact hdirection _
  · refine (real_of_harmless _).bind fun a ↦ (real_of_harmless _).bind fun b ↦ ?_
    split
    · exact hdirection _
    · split
      · exact hdirection _
      · split
        · exact hdirection _
        · exact .throw_bind rfl _

theorem advance_harmless (counter step : Value) : Harmless (advance counter step) := by
  unfold advance
  split
  · split
    · exact .ok _
    · exact .error rfl
  · exact (real_of_harmless _).bind fun _ ↦ (real_of_harmless _).bind fun _ ↦ .ok _

theorem bounds_harmless (scope : Scope) (header : Header) : Harmless (bounds scope header) := by
  refine (number_harmless _ _).bind fun start ↦ (number_harmless _ _).bind fun limit ↦ ?_
  have hstep : ∀ step : Value, Harmless (do
      let direction ← realOf step
      if direction == 0 then throw (.argument .zeroStep)
      pure (⟨start, limit, step⟩ : Bounds)) := by
    refine fun step ↦ (real_of_harmless step).bind fun direction ↦ ?_
    dsimp only
    split
    · exact .throw_bind rfl _
    · exact .ok _
  dsimp only
  split
  · exact Harmless.bind (.pure _) hstep
  · exact (number_harmless _ _).bind hstep

end Loop

namespace Interpreter

theorem bind_arguments_harmless (caller locals : Scope) (pairs : List (Text × Text)) :
    Harmless (bindArguments caller locals pairs) := by
  induction pairs generalizing locals with
  | nil => exact .ok locals
  | cons pair rest ih => exact (Expression.evaluate_harmless _ _).bind fun _ ↦ ih _

/-- No call of a method is refused with a fatal error. -/
theorem prepare_harmless (interpreter : Interpreter) (name : Text) (arguments : List Text)
    (caller : Scope) : Harmless (interpreter.prepare name arguments caller) := by
  unfold prepare
  split
  · exact .error rfl
  · refine .ite (.throw_bind rfl _) ?_
    refine (bind_arguments_harmless _ _ _).bind fun locals ↦ ?_
    exact .ite (.throw_bind rfl _) (.ok _)

end Interpreter

/-- No line outside the block structure fails with a fatal error. -/
theorem State.decide_statement_harmless (state : State) (line : Text) :
    Harmless (state.decideStatement line) := by
  refine (Registry.statement_harmless _ _ _).bind fun effect ↦ ?_
  split
  · exact .ok _
  · exact .ok _
  · exact (Interpreter.prepare_harmless _ _ _ _).bind fun _ ↦ .ok _

end PenScript
