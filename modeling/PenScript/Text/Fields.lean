import PenScript.Text

/-!
# Fields

The parts of a text between separators.
-/

namespace PenScript.Text

/-- The parts of a text between the characters of a class, empty ones too. -/
def fields (isSeparator : Char → Bool) : Text → List Text
  | [] => [[]]
  | c :: rest =>
      if isSeparator c then [] :: fields isSeparator rest
      else match fields isSeparator rest with
        | [] => [[c]]
        | first :: others => (c :: first) :: others

end PenScript.Text
