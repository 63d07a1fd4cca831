import PenScript.NameMap
import PenScript.Value

/-!
# Scopes

A scope holds the variables of one run or of one method call. Names are case-sensitive, except when
the result of a method is looked up.
-/

namespace PenScript

/-- Variables by name. -/
abbrev Scope := NameMap Value

/-- The variable with exactly this name, or else the one with the smallest name that differs from it
in letter case only. Entries are sorted, so the smallest name comes first. -/
def Scope.findIgnoringCase (scope : Scope) (name : Text) : Option Value :=
  match scope.get? name with
  | some value => some value
  | none =>
      (scope.entries.find? fun entry ↦ Text.sameIgnoringCase entry.1 name).map (·.2)

end PenScript
