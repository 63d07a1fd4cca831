import PenScript.Integer
import PenScript.Toml.Quotation

/-!
# Statements of a settings file

A settings file in TOML is a list of statements: a header, which starts a table, or a key with a
value. Keys are paths of names. The values are those that a setting may have: truth values,
integers, texts, and lists and tables of these. Reading proceeds from the front of the text and
yields what follows; the number that a reader of values counts down bounds the nesting.
-/

namespace PenScript.Toml

/-- A value in a settings file. -/
inductive Value where
  | boolean (truth : Bool)
  | integer (number : Int64)
  | string (text : Text)
  | array (items : List Value)
  | table (entries : List (List Text × Value))

/-- A statement of a settings file. -/
inductive Statement where
  | header (path : List Text)
  /-- A header in double brackets, for one of several tables. -/
  | arrayHeader (path : List Text)
  | assign (path : List Text) (value : Value)

/-- A character of a name that is not quoted. -/
def isBareKeyChar (c : Char) : Bool :=
  c.isAlphanum || c == '_' || c == '-'

/-- The name at the start of a text. -/
def keyPart? (text : Text) : Option (Text × Text) :=
  match shortQuotation? text with
  | some read => some read
  | none =>
      if (text.takeWhile isBareKeyChar).isEmpty then none
      else some (text.takeWhile isBareKeyChar, text.dropWhile isBareKeyChar)

/-- The path of names at the start of a text, separated by points. -/
def key? : Nat → Text → Option (List Text × Text)
  | 0, _ => none
  | bound + 1, text => do
      let (part, others) ← keyPart? (skipSpaces text)
      match skipSpaces others with
      | '.' :: rest =>
          let (path, after) ← key? bound rest
          pure (part :: path, after)
      | rest => pure ([part], rest)

/-- The digits of a numeral, in which single underscores may stand between digits. -/
def digits? (isDigit : Char → Bool) (numeral : Text) : Option Text :=
  let groups := numeral.splitOn '_'
  if groups.all fun group ↦ !group.isEmpty && group.all isDigit then some groups.flatten else none

/-- The integer of a numeral in a base, given its digits. -/
def ofDigits? (base : Nat) (digits : Text) : Option Int64 := do
  let values ← digits.mapM hexDigit?
  Integer.ofInt? (values.foldl (fun number digit ↦ base * number + digit) 0 : Nat)

/-- A character of a numeral. -/
def isNumeralChar (c : Char) : Bool :=
  c.isAlphanum || c == '_'

/-- The integer that a numeral without a base denotes; zero stands at the start of no longer one. -/
def decimal? (negative : Bool) (numeral : Text) : Option Int64 := do
  let digits ← digits? Char.isDigit numeral
  if digits.head? = some '0' ∧ numeral ≠ ['0'] then none
  let number := (Text.toNat digits : Int)
  Integer.ofInt? (if negative then -number else number)

/-- The integer that a numeral denotes: a base goes with no sign. -/
def integer? (text : Text) : Option Int64 :=
  match text with
  | '+' :: numeral => decimal? false numeral
  | '-' :: numeral => decimal? true numeral
  | '0' :: 'x' :: numeral =>
      (digits? (fun c ↦ (hexDigit? c).isSome) numeral).bind (ofDigits? 16)
  | '0' :: 'o' :: numeral =>
      (digits? (fun c ↦ '0' ≤ c && c ≤ '7') numeral).bind (ofDigits? 8)
  | '0' :: 'b' :: numeral => (digits? (fun c ↦ c == '0' || c == '1') numeral).bind (ofDigits? 2)
  | numeral => decimal? false numeral

/-- The sign at the start of a text, and the rest. -/
def splitSign : Text → Text × Text
  | '+' :: rest => (['+'], rest)
  | '-' :: rest => (['-'], rest)
  | text => ([], text)

/-- The truth value or the integer at the start of a text. -/
def scalar? (text : Text) : Option (Value × Text) :=
  let (sign, rest) := splitSign text
  let word := sign ++ rest.takeWhile isNumeralChar
  let after := rest.dropWhile isNumeralChar
  if word = "true".toList then some (.boolean true, after)
  else if word = "false".toList then some (.boolean false, after)
  else (integer? word).map fun number ↦ (.integer number, after)

mutual

/-- The value at the start of a text. -/
def value? : Nat → Text → Option (Value × Text)
  | 0, _ => none
  | bound + 1, text =>
      match text with
      | '[' :: rest =>
          (elements? bound (skipLayout false rest)).map fun read ↦ (.array read.1, read.2)
      | '\x7b' :: rest =>
          match skipSpaces rest with
          | '\x7d' :: after => some (.table [], after)
          | others => (entries? bound others).map fun read ↦ (.table read.1, read.2)
      | '"' :: _ | '\'' :: _ => (quotation? text).map fun read ↦ (.string read.1, read.2)
      | _ => scalar? text

/-- The rest of a list, from an element or the closing bracket. A comma may follow the last
element. -/
def elements? : Nat → Text → Option (List Value × Text)
  | 0, _ => none
  | bound + 1, text =>
      match text with
      | ']' :: after => some ([], after)
      | _ => do
          let (item, others) ← value? bound text
          match skipLayout false others with
          | ']' :: after => pure ([item], after)
          | ',' :: rest =>
              let (items, after) ← elements? bound (skipLayout false rest)
              pure (item :: items, after)
          | _ => none

/-- The rest of a table on one line, from an entry. No comma may follow the last entry. -/
def entries? : Nat → Text → Option (List (List Text × Value) × Text)
  | 0, _ => none
  | bound + 1, text => do
      let (entry, others) ← assignment? bound text
      match skipSpaces others with
      | '\x7d' :: after => pure ([entry], after)
      | ',' :: rest =>
          let (entries, after) ← entries? bound rest
          pure (entry :: entries, after)
      | _ => none

/-- The key and the value at the start of a text, with an equals sign between them. -/
def assignment? : Nat → Text → Option ((List Text × Value) × Text)
  | 0, _ => none
  | bound + 1, text => do
      let (path, others) ← key? bound text
      match others with
      | '=' :: rest =>
          let (value, after) ← value? bound (skipSpaces rest)
          pure ((path, value), after)
      | _ => none

end

/-- The statement at the start of a text. -/
def statement? (bound : Nat) (text : Text) : Option (Statement × Text) :=
  match text with
  | '[' :: '[' :: rest => do
      let (path, others) ← key? bound rest
      match others with
      | ']' :: ']' :: after => pure (.arrayHeader path, after)
      | _ => none
  | '[' :: rest => do
      let (path, others) ← key? bound rest
      match others with
      | ']' :: after => pure (.header path, after)
      | _ => none
  | _ => (assignment? bound text).map fun read ↦ (.assign read.1.1 read.1.2, read.2)

/-- The statements of a text, each on lines of its own. -/
def statements? : Nat → Text → Option (List Statement)
  | 0, _ => none
  | bound + 1, text =>
      match skipLayout false text with
      | [] => some []
      | first :: rest => do
          let (statement, others) ← statement? bound (first :: rest)
          let after ← endOfLine? others
          let statements ← statements? bound after
          pure (statement :: statements)

/-- The text without the mark that may start a file. -/
def withoutByteOrderMark : Text → Text
  | '\uFEFF' :: rest => rest
  | text => text

/-- The statements of a settings file. Nesting is bounded by the length of the text. -/
def ofText? (text : Text) : Option (List Statement) :=
  statements? (2 * text.length + 4) (withoutByteOrderMark text)

end PenScript.Toml
