import PenScript.Toml.Layout

/-!
# Quotations in a settings file

TOML writes a text in double quotes, where a backslash starts an escape, or in single quotes, where
every character stands for itself. Three quotes enclose a text of several lines; a line end right
after the opening quotes does not count, and up to two quotes may stand before the closing ones.
Each reader starts after the opening quotes and yields the text with what follows the closing ones.
-/

namespace PenScript.Toml

/-- The value of a hexadecimal digit. -/
def hexDigit? (c : Char) : Option Nat :=
  if c.isDigit then some (c.toNat - '0'.toNat)
  else if 'a' ≤ c.toLower && c.toLower ≤ 'f' then some (c.toLower.toNat - 'a'.toNat + 10)
  else none

/-- The character whose code has the given hexadecimal digits. -/
def ofCode? (digits : Text) : Option Char := do
  let values ← digits.mapM hexDigit?
  let code := values.foldl (fun code digit ↦ 16 * code + digit) 0
  if code.isValidChar then some (Char.ofNat code) else none

/-- The character with a code of a fixed number of digits at the start of a text. -/
def codeFront? (length : Nat) (text : Text) : Option (Char × Text) :=
  if text.length < length then none
  else (ofCode? (text.take length)).map fun c ↦ (c, text.drop length)

/-- The character that a letter after a backslash stands for. -/
def escape? : Char → Option Char
  | 'b' => some '\x08'
  | 't' => some '\t'
  | 'n' => some '\n'
  | 'f' => some '\x0c'
  | 'r' => some '\r'
  | '"' => some '"'
  | '\\' => some '\\'
  | _ => none

/-- The character that the text after a backslash stands for. -/
def escapeFront? : Text → Option (Char × Text)
  | [] => none
  | 'u' :: rest => codeFront? 4 rest
  | 'U' :: rest => codeFront? 8 rest
  | c :: rest => (escape? c).map fun escaped ↦ (escaped, rest)

/-- What a backslash at the end of a line leaves: the text from the next character that is not
blank. -/
def continuation? (text : Text) : Option Text :=
  (newLine? (skipSpaces text)).map skipBlankLines

/-- Reading a code does not make a text longer. -/
theorem length_of_code_front {length : Nat} {text rest : Text} {c : Char}
    (read : codeFront? length text = some (c, rest)) : rest.length ≤ text.length := by
  unfold codeFront? at read
  split at read
  · simp at read
  · simp only [Option.map_eq_some_iff, Prod.mk.injEq] at read
    obtain ⟨_, -, -, rfl⟩ := read
    simp

/-- Reading an escape does not make a text longer. -/
theorem length_of_escape_front {text rest : Text} {c : Char}
    (read : escapeFront? text = some (c, rest)) : rest.length ≤ text.length := by
  unfold escapeFront? at read
  split at read
  · simp at read
  · have := length_of_code_front read
    simp only [List.length_cons]
    omega
  · have := length_of_code_front read
    simp only [List.length_cons]
    omega
  · simp only [Option.map_eq_some_iff, Prod.mk.injEq] at read
    obtain ⟨_, -, -, rfl⟩ := read
    simp

/-- What follows a continuation is shorter than the text. -/
theorem length_of_continuation {text rest : Text} (found : continuation? text = some rest) :
    rest.length < text.length := by
  simp only [continuation?, Option.map_eq_some_iff] at found
  obtain ⟨others, hline, rfl⟩ := found
  have hskip := length_of_skip_spaces text
  have hshort := length_of_new_line hline
  have hblank := length_of_skip_blank_lines others
  omega

/-- The text with one more character in front, and the same rest. -/
def consFirst (c : Char) (read : Text × Text) : Text × Text :=
  (c :: read.1, read.2)

/-- The end of a text of several lines: quotes right after the closing ones, two at most, belong to
the text. -/
def afterLong (quote : Char) (rest : Text) : Text × Text :=
  let quotes := (rest.takeWhile (· == quote)).take 2
  (quotes, rest.drop quotes.length)

/-- The rest of a text in double quotes. -/
def basic (text : Text) : Option (Text × Text) :=
  match text with
  | [] => none
  | '"' :: rest => some ([], rest)
  | '\\' :: rest =>
      match read : escapeFront? rest with
      | none => none
      | some (c, others) =>
          have : others.length ≤ rest.length := length_of_escape_front read
          (basic others).map (consFirst c)
  | c :: rest => if isPlain c then (basic rest).map (consFirst c) else none
termination_by text.length

/-- The rest of a text in three double quotes. -/
def longBasic (text : Text) : Option (Text × Text) :=
  match text with
  | [] => none
  | '"' :: '"' :: '"' :: rest => some (afterLong '"' rest)
  | '\r' :: '\n' :: rest => (longBasic rest).map (consFirst '\n')
  | '\n' :: rest => (longBasic rest).map (consFirst '\n')
  | '\\' :: rest =>
      match next : continuation? rest with
      | some others =>
          have : others.length < rest.length := length_of_continuation next
          longBasic others
      | none =>
          match read : escapeFront? rest with
          | none => none
          | some (c, others) =>
              have : others.length ≤ rest.length := length_of_escape_front read
              (longBasic others).map (consFirst c)
  | c :: rest => if isPlain c then (longBasic rest).map (consFirst c) else none
termination_by text.length

/-- The rest of a text in single quotes. -/
def literal : Text → Option (Text × Text)
  | [] => none
  | '\'' :: rest => some ([], rest)
  | c :: rest => if isPlain c then (literal rest).map (consFirst c) else none

/-- The rest of a text in three single quotes. -/
def longLiteral : Text → Option (Text × Text)
  | [] => none
  | '\'' :: '\'' :: '\'' :: rest => some (afterLong '\'' rest)
  | '\r' :: '\n' :: rest => (longLiteral rest).map (consFirst '\n')
  | '\n' :: rest => (longLiteral rest).map (consFirst '\n')
  | c :: rest => if isPlain c then (longLiteral rest).map (consFirst c) else none

/-- The text without the line end at its start. -/
def skipNewLine (text : Text) : Text :=
  (newLine? text).getD text

/-- The quotation of one line at the start of a text. -/
def shortQuotation? : Text → Option (Text × Text)
  | '"' :: rest => basic rest
  | '\'' :: rest => literal rest
  | _ => none

/-- The quotation at the start of a text. -/
def quotation? : Text → Option (Text × Text)
  | '"' :: '"' :: '"' :: rest => longBasic (skipNewLine rest)
  | '\'' :: '\'' :: '\'' :: rest => longLiteral (skipNewLine rest)
  | text => shortQuotation? text

end PenScript.Toml
