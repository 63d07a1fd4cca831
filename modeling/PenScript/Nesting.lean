import PenScript.Text

/-!
# Nesting

Quotes and parentheses keep the parts of an expression together: text is cut, and operators are
found, outside both. A `Nesting` is what a scan from left to right knows at each character: the
number of open parentheses, and whether a quote is open. Parentheses inside quotes do not count, and
a closing parenthesis too many makes the depth negative. The three marks themselves belong to no
cut and no operator.
-/

namespace PenScript

/-- The parentheses and the quote that are open at one place of a text. -/
structure Nesting where
  depth : Int
  quoted : Bool
deriving DecidableEq

namespace Nesting

/-- At the start of a text nothing is open. -/
def start : Nesting := ⟨0, false⟩

/-- A quote or a parenthesis. -/
def isMark (c : Char) : Bool :=
  c == '"' || c == '(' || c == ')'

/-- What is open after one more character. -/
def next (nesting : Nesting) (c : Char) : Nesting :=
  if c = '"' then { nesting with quoted := !nesting.quoted }
  else if nesting.quoted then nesting
  else if c = '(' then { nesting with depth := nesting.depth + 1 }
  else if c = ')' then { nesting with depth := nesting.depth - 1 }
  else nesting

/-- What is open after a text. -/
def after (nesting : Nesting) (text : Text) : Nesting :=
  text.foldl next nesting

/-- Nothing is open. -/
def isOutside (nesting : Nesting) : Bool :=
  nesting.depth == 0 && !nesting.quoted

/-- Nothing is open and the next character is no mark. -/
def isFree (nesting : Nesting) (c : Char) : Bool :=
  nesting.isOutside && !isMark c

/-- A text cut at its free characters of a class: the part before the first cut, and for each cut
its character and the part after it. -/
def cut (isCut : Char → Bool) : Nesting → Text → Text × List (Char × Text)
  | _, [] => ([], [])
  | nesting, c :: rest =>
      if nesting.isFree c && isCut c then
        let (first, others) := cut isCut nesting rest
        ([], (c, first) :: others)
      else
        let (first, others) := cut isCut (nesting.next c) rest
        (c :: first, others)

/-- The first operator of a text at a free character: what is left of it, the operator, and what is
right of it. `operator?` reads an operator at the start of a text. -/
def findOperator {α : Type} (operator? : Text → Option (α × Text)) :
    Nesting → Text → Option (Text × α × Text)
  | _, [] => none
  | nesting, c :: rest =>
      match if nesting.isFree c then operator? (c :: rest) else none with
      | some (operator, right) => some ([], operator, right)
      | none =>
          (findOperator operator? (nesting.next c) rest).map fun (left, operator, right) ↦
            (c :: left, operator, right)

/-- The text up to the parenthesis that closes the last open one, provided that this parenthesis is
the last character. -/
def closedBy : Nesting → Text → Option Text
  | _, [] => none
  | nesting, c :: rest =>
      let following := nesting.next c
      if following.depth = 0 then
        if rest = [] then some [] else none
      else (closedBy following rest).map (c :: ·)

/-- Both sides of an operator together are shorter than the text it was found in, when reading an
operator uses up at least one character. -/
theorem length_of_find_operator {α : Type} {operator? : Text → Option (α × Text)}
    (shorter : ∀ {text operator right}, operator? text = some (operator, right) →
      right.length < text.length)
    {nesting : Nesting} {text left right : Text} {operator : α}
    (found : findOperator operator? nesting text = some (left, operator, right)) :
    left.length + right.length < text.length := by
  induction text generalizing nesting left with
  | nil => simp [findOperator] at found
  | cons c rest ih =>
      rw [findOperator] at found
      split at found
      · rename_i hread
        simp only [Option.some.injEq, Prod.mk.injEq] at found
        obtain ⟨rfl, rfl, rfl⟩ := found
        split at hread
        · simpa using shorter hread
        · simp at hread
      · simp only [Option.map_eq_some_iff, Prod.exists, Prod.mk.injEq] at found
        obtain ⟨left', operator', right', hrec, rfl, rfl, rfl⟩ := found
        have := ih hrec
        simp only [List.length_cons]
        omega

/-- What a closing parenthesis encloses is shorter than the text with that parenthesis. -/
theorem length_of_closed_by {nesting : Nesting} {text inner : Text}
    (closed : closedBy nesting text = some inner) : inner.length < text.length := by
  induction text generalizing nesting inner with
  | nil => simp [closedBy] at closed
  | cons c rest ih =>
      rw [closedBy] at closed
      split at closed
      · split at closed
        · simp only [Option.some.injEq] at closed
          subst closed
          simp
        · simp at closed
      · obtain ⟨inner', hrec, rfl⟩ := Option.map_eq_some_iff.mp closed
        have := ih hrec
        simp only [List.length_cons]
        omega

end Nesting

/-- The parts of a text between the free separators. There is one part more than separators. -/
def Text.splitOutside (separator : Char) (text : Text) : List Text :=
  let (first, others) := Nesting.cut (· == separator) Nesting.start text
  first :: others.map (·.2)

end PenScript
