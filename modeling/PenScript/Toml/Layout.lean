import PenScript.Text

/-!
# Layout of a settings file

Blanks, comments and line ends in TOML. A line ends with a line feed, which a carriage return may
precede; no other control character besides the tab may stand in a file. Skipping never makes a text
longer.
-/

namespace PenScript.Toml

/-- A character that a comment or a text may hold: no control character besides the tab. -/
def isPlain (c : Char) : Bool :=
  c == '\t' || (0x20 ≤ c.toNat && c.toNat != 0x7F)

/-- A blank within a line. -/
def isSpace (c : Char) : Bool :=
  c == ' ' || c == '\t'

/-- The text without the blanks at its start. -/
def skipSpaces (text : Text) : Text :=
  text.dropWhile isSpace

/-- What follows the line end at the start of a text. -/
def newLine? : Text → Option Text
  | '\n' :: rest => some rest
  | '\r' :: '\n' :: rest => some rest
  | _ => none

/-- The text without the comment at its start. -/
def skipComment : Text → Text
  | '#' :: rest => rest.dropWhile isPlain
  | text => text

/-- What follows the end of a statement: blanks, a comment, and a line end or the end of the file.
-/
def endOfLine? (text : Text) : Option Text :=
  match skipComment (skipSpaces text) with
  | [] => some []
  | rest => newLine? rest

/-- The text without the blanks and line ends at its start. -/
def skipBlankLines : Text → Text
  | [] => []
  | '\r' :: '\n' :: rest => skipBlankLines rest
  | c :: rest => if isSpace c || c == '\n' then skipBlankLines rest else c :: rest

/-- The text without the blanks, line ends and comments at its start; `inComment` says that the text
starts within a comment. -/
def skipLayout (inComment : Bool) : Text → Text
  | [] => []
  | '\n' :: rest => skipLayout false rest
  | '\r' :: '\n' :: rest => skipLayout false rest
  | c :: rest =>
      if inComment then
        if isPlain c then skipLayout true rest else c :: rest
      else if isSpace c then skipLayout false rest
      else if c = '#' then skipLayout true rest
      else c :: rest

/-- What follows blanks and a line end is shorter than the text. -/
theorem length_of_new_line {text rest : Text} (found : newLine? text = some rest) :
    rest.length < text.length := by
  unfold newLine? at found
  split at found
  · cases found
    exact Nat.lt_succ_self _
  · cases found
    simp only [List.length_cons]
    omega
  · cases found

/-- Skipping blanks does not make a text longer. -/
theorem length_of_skip_spaces (text : Text) : (skipSpaces text).length ≤ text.length :=
  (List.dropWhile_suffix isSpace).length_le

/-- Skipping blank lines does not make a text longer. -/
theorem length_of_skip_blank_lines (text : Text) :
    (skipBlankLines text).length ≤ text.length := by
  fun_induction skipBlankLines text with
  | case1 => exact Nat.le_refl _
  | case2 rest ih => simp only [List.length_cons]; omega
  | case3 c rest _ _ ih => simp only [List.length_cons]; omega
  | case4 c rest => exact Nat.le_refl _

end PenScript.Toml
