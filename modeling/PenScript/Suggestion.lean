import PenScript.Text

/-!
# Suggestions for misspelt names

The known name nearest to a misspelt one, by the number of single-character edits between them.
`Suggestion.distance` fills the table of distances between prefixes of the two texts row by row.
-/

namespace PenScript.Suggestion

/-- The rest of a row of the table, given its last entry so far, the entry left of the row above,
the remaining characters of the other text, and the remaining entries of the row above. -/
def fillRow (c : Char) : Nat → Nat → Text → List Nat → List Nat
  | left, diagonal, d :: others, above :: row =>
      let cost := if c = d then 0 else 1
      let entry := min (above + 1) (min (left + 1) (diagonal + cost))
      entry :: fillRow c entry above others row
  | _, _, _, _ => []

/-- The row for one more character, from the row before it. -/
def nextRow (other : Text) (row : List Nat) (c : Char) : List Nat :=
  match row with
  | [] => []
  | first :: rest => (first + 1) :: fillRow c (first + 1) first other rest

/-- The least number of insertions, deletions and substitutions of one character that turn one text
into the other. -/
def distance (text other : Text) : Nat :=
  (text.foldl (nextRow other) (List.range (other.length + 1))).getLastD 0

/-- The better of two candidates with their distances: the first one unless the second is strictly
nearer. -/
def nearer (best : Option (Nat × Text)) (candidate : Nat × Text) : Option (Nat × Text) :=
  match best with
  | none => some candidate
  | some (least, name) => if candidate.1 < least then some candidate else some (least, name)

/-- The first of the nearest candidates within the threshold. -/
def closest? (name : Text) (candidates : List Text) (threshold : Nat) : Option Text :=
  let near := (candidates.map fun candidate ↦ (distance name candidate, candidate)).filter
    fun candidate ↦ candidate.1 ≤ threshold
  (near.foldl nearer none).map (·.2)

/-- The question that ends an error message, empty without a suggestion. -/
def hint : Option Text → Text
  | none => []
  | some name => " (did you mean `".toList ++ name ++ "`?)".toList

end PenScript.Suggestion
