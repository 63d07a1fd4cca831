import PenScript.Value

/-!
# Frames

A frame stands for a block that is being run: what is needed when its `else` or its closer is
reached. Lines are named by their index in the block of lines that is run.
-/

namespace PenScript

/-- A block that is being run. -/
inductive Frame where
  /-- A counting loop with the index of the first line of its body. -/
  | forLoop (counter : Text) (limit step : Value) (bodyStart closer : Nat)
  | whileLoop (opener closer : Nat)
  /-- A conditional whose condition was true or false. -/
  | conditional (taken : Bool) (opener closer : Nat)

namespace Frame

/-- The line that opens the block. -/
def opener : Frame → Nat
  | .forLoop _ _ _ bodyStart _ => bodyStart - 1
  | .whileLoop opener _ => opener
  | .conditional _ opener _ => opener

/-- The line that closes the block. -/
def closer : Frame → Nat
  | .forLoop _ _ _ _ closer => closer
  | .whileLoop _ closer => closer
  | .conditional _ _ closer => closer

end Frame

end PenScript
