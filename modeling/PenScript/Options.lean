/-!
# Options

What the user of an interpreter chooses for every program.
-/

namespace PenScript

/-- How programs are run. A strict run ends at the first error. -/
structure Options where
  strict : Bool := false
  maxCallDepth : Nat := 256
deriving DecidableEq

end PenScript
