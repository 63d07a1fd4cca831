import PenScript.Interpreter

/-!
# Reports

A report shows an error under the line that it concerns, underlined, with the message at the end of
an arrow from the middle of the line. Without a line it is a single line of text. Byte offsets count
the source in UTF-8.
-/

namespace PenScript.Report

/-- A range of byte offsets in a source text. -/
structure Range where
  start : Nat
  stop : Nat
deriving DecidableEq

/-- A segment without the line feeds and carriage returns at its end. -/
def withoutBreaks (segment : Text) : Text :=
  (segment.reverse.dropWhile fun c ↦ c == '\n' || c == '\r').reverse

/-- The range of the line with a number from one, given the segments of the source and the offset of
the first of them; the empty range at the end when there is no such line. -/
def rangeFrom (offset : Nat) : List Text → Nat → Range
  | segment :: _, 1 => ⟨offset, offset + Text.byteLength (withoutBreaks segment)⟩
  | segment :: rest, line =>
      rangeFrom (offset + Text.byteLength segment) rest (line - 1)
  | [], _ => ⟨offset, offset⟩

/-- The byte range of a line, counted from one, without its line end. -/
def lineRange (source : Text) (line : Nat) : Range :=
  if line = 0 then ⟨Text.byteLength source, Text.byteLength source⟩
  else rangeFrom 0 (Text.segments source) line

/-- What a report shows of a source: a line with its number, and the column and the length of the
part that the error concerns. -/
structure Excerpt where
  number : Nat
  text : Text
  column : Nat
  length : Nat

/-- The excerpt of a line, counted from one: the whole line, or the end of the source when there is
no such line. -/
def excerpt (source : Text) (line : Nat) : Excerpt :=
  let segments := Text.segments source
  let last := segments.getLastD []
  match if line = 0 then none else segments[line - 1]? with
  | some segment => ⟨line, withoutBreaks segment, 0, (withoutBreaks segment).length⟩
  | none => ⟨max 1 segments.length, withoutBreaks last, last.length, 0⟩

/-- A number of copies of one character. -/
def repeated (count : Nat) (c : Char) : Text :=
  List.replicate count c

/-- The lines without blanks at their ends, each ended by a line feed. -/
def assemble (lines : List Text) : Text :=
  lines.flatMap fun line ↦
    (line.reverse.dropWhile (· == ' ')).reverse ++ ['\n']

/-- The headline of a report. -/
def headline (error : Error) : Text :=
  "Error: ".toList ++ error.kind ++ " error".toList

/-- The underline of an excerpt, from the margin: an arrow starts at its middle, where an empty
underline has a bar. -/
def underline (shown : Excerpt) : Text :=
  let middle := shown.length / 2
  repeated shown.column ' ' ++ repeated middle '─' ++
    (if shown.length = 0 then '│' else '┬') :: repeated (shown.length - middle - 1) '─'

/-- The arrow from the middle of an underline to the message, which starts behind the end of the
underline. -/
def arrow (shown : Excerpt) (message : Text) : Text :=
  let middle := shown.length / 2
  repeated (shown.column + middle) ' ' ++ '╰' ::
    repeated (shown.length + 1 - middle) '─' ++ ' ' :: message

/-- The lines of a report about a line of a file. -/
def lines (file source : Text) (error : Error) (line : Nat) : List Text :=
  let shown := excerpt source line
  let number := Text.ofNat shown.number
  let margin := repeated (number.length + 2) ' '
  [headline error,
    margin ++ "╭─[ ".toList ++ file ++ ':' :: number ++ ':' :: Text.ofNat (shown.column + 1) ++
      " ]".toList,
    margin ++ ['│'],
    ' ' :: number ++ " │ ".toList ++ shown.text,
    margin ++ "│ ".toList ++ underline shown,
    margin ++ "│ ".toList ++ arrow shown error.message,
    repeated (number.length + 2) '─' ++ ['╯']]

/-- The report of an error, about the given line or else the one that the error names. -/
def render (file source : Text) (error : Error) (line : Option Nat) : Text :=
  match line.or error.line? with
  | some line => assemble (lines file source error line)
  | none => assemble [headline error ++ ": ".toList ++ error.message]

/-- The report of a recorded error. -/
def ofLineError (file source : Text) (failure : LineError) : Text :=
  render file source failure.error (some failure.line)

end PenScript.Report
