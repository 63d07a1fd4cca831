import PenScript.Text

/-!
# Kinds of lines

A line is judged by its leading word alone: it opens or closes a block, it is the `else` of an `if`,
it is skipped because it is blank or a comment, or it is a statement. Keywords are read in any
letter case, and `end if` is another spelling of `endif`.
-/

namespace PenScript

/-- The kinds of blocks. -/
inductive BlockKind where
  | conditional
  | whileLoop
  | forLoop
  | method
deriving DecidableEq

namespace BlockKind

/-- All kinds of blocks. -/
def all : List BlockKind := [.conditional, .whileLoop, .forLoop, .method]

/-- The keyword that opens a block. -/
def opener : BlockKind → Text
  | .conditional => "if".toList
  | .whileLoop => "while".toList
  | .forLoop => "for".toList
  | .method => "method".toList

/-- The keyword that closes a block. -/
def closer (kind : BlockKind) : Text :=
  "end".toList ++ kind.opener

/-- The kind of block that a keyword in small letters opens. -/
def ofOpener? (word : Text) : Option BlockKind :=
  all.find? fun kind ↦ kind.opener == word

end BlockKind

/-- What a line is. -/
inductive LineKind where
  | skipped
  | opener (kind : BlockKind)
  | otherwise
  | closer (kind : BlockKind)
  | statement
deriving DecidableEq

namespace Line

/-- A blank line or a comment, which starts with `*`, `//` or `#`. -/
def isSkipped (line : Text) : Bool :=
  match Text.trim line with
  | [] => true
  | '*' :: _ | '#' :: _ | '/' :: '/' :: _ => true
  | _ => false

/-- The name characters that a line starts with, and the rest without blanks in front. Blanks around
the line do not matter. -/
def splitWord (line : Text) : Text × Text :=
  let trimmed := Text.trim line
  (trimmed.takeWhile Text.isNameChar, Text.trimStart (trimmed.dropWhile Text.isNameChar))

/-- What follows an equals sign at the start of a text, where a second equals sign would make it a
comparison. -/
def afterEquals? : Text → Option Text
  | '=' :: rest => if rest.head? = some '=' then none else some rest
  | _ => none

/-- The opening keyword that belongs to a closing one: what follows `end` in the same word, or the
only word after `end`. -/
def closedKeyword? (word rest : Text) : Option Text :=
  if word = "end".toList then
    let next := splitWord rest
    if next.2.isEmpty then some (Text.toLower next.1) else none
  else "end".toList.isPrefixOf? word

/-- What a line is. An opening keyword with an equals sign after it is the target of an
assignment. -/
def kind (line : Text) : LineKind :=
  if isSkipped line then .skipped
  else
    let word := Text.toLower (splitWord line).1
    let rest := (splitWord line).2
    match (closedKeyword? word rest).bind BlockKind.ofOpener? with
    | some closed => .closer closed
    | none =>
        if word = "else".toList ∧ rest = [] then .otherwise
        else match BlockKind.ofOpener? word with
          | none => .statement
          | some opened => if (afterEquals? rest).isSome then .statement else .opener opened

/-- The change of the number of open blocks that a line makes. -/
def balance (line : Text) : Int :=
  match kind line with
  | .opener _ => 1
  | .closer _ => -1
  | _ => 0

end Line

/-- No block that is opened in the lines waits for its closer. More closers than openers count as
balanced too. -/
def isBalanced (lines : List Text) : Bool :=
  lines.foldr (fun line total ↦ Line.balance line + total) 0 ≤ 0

end PenScript
