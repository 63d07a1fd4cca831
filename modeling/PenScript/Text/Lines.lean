import PenScript.Text

/-!
# Lines

A source text is a list of lines. A line ends with a line feed, which may have one carriage return
before it; the last line may lack the line feed. `Text.segments` cuts the source after each line
feed and loses nothing, and `Text.lines` removes the line ends from those segments.
-/

namespace PenScript.Text

/-- The source cut after each line feed. -/
def segments : Text → List Text
  | [] => []
  | c :: rest =>
      if c = '\n' then [c] :: segments rest
      else match segments rest with
        | [] => [[c]]
        | first :: others => (c :: first) :: others

/-- The segment without its line feed and the one carriage return before that line feed. A segment
without a line feed is kept as it is. -/
def withoutLineEnd (segment : Text) : Text :=
  match dropLast? '\n' segment with
  | none => segment
  | some line => (dropLast? '\r' line).getD line

/-- The lines of a source text. -/
def lines (source : Text) : List Text :=
  (segments source).map withoutLineEnd

/-- Joining the segments gives the source back. -/
theorem flatten_segments (source : Text) : (segments source).flatten = source := by
  induction source with
  | nil => rfl
  | cons c rest ih =>
      rw [segments]
      split
      · simp [ih]
      · split
        · rename_i h
          rw [h] at ih
          simpa using ih
        · rename_i first others h
          rw [h] at ih
          simpa using ih

end PenScript.Text
