/-!
# Text

Program text is a list of characters. This module holds what the language asks of it: the blanks
that are trimmed away, words, letter case, decimal numerals, and the joining of pieces.
Blanks follow the Unicode property White_Space; letters, digits and letter case are ASCII.
-/

namespace PenScript

/-- A piece of text, one entry for each character. -/
abbrev Text := List Char

namespace Text

/-- A character with the Unicode property White_Space. -/
def isBlank (c : Char) : Bool :=
  let code := c.toNat
  (9 ≤ code && code ≤ 13) || code == 0x20 || code == 0x85 || code == 0xA0 || code == 0x1680 ||
    (0x2000 ≤ code && code ≤ 0x200A) || code == 0x2028 || code == 0x2029 || code == 0x202F ||
    code == 0x205F || code == 0x3000

/-- The text without the blanks at its start. -/
def trimStart (text : Text) : Text :=
  text.dropWhile isBlank

/-- The text without the blanks at its end. -/
def trimEnd (text : Text) : Text :=
  (text.reverse.dropWhile isBlank).reverse

/-- The text without the blanks at its two ends. -/
def trim (text : Text) : Text :=
  trimEnd (trimStart text)

/-- The characters before the first blank. -/
def firstWord (text : Text) : Text :=
  text.takeWhile fun c ↦ !isBlank c

/-- The text with its ASCII capitals made small. -/
def toLower (text : Text) : Text :=
  text.map Char.toLower

/-- The two texts differ in the case of ASCII letters at most. -/
def sameIgnoringCase (left right : Text) : Bool :=
  toLower left == toLower right

/-- A character that a name may hold: an ASCII letter, a digit or an underscore. -/
def isNameChar (c : Char) : Bool :=
  c.isAlphanum || c == '_'

/-- A character that a name may start with: an ASCII letter or an underscore. -/
def isNameStart (c : Char) : Bool :=
  c.isAlpha || c == '_'

/-- A name starts with a letter or an underscore and holds name characters only. -/
def isIdentifier : Text → Bool
  | [] => false
  | first :: rest => isNameStart first && rest.all isNameChar

/-- The text without its last character, when that character is the given one. -/
def dropLast? (last : Char) (text : Text) : Option Text :=
  if text.getLast? = some last then some text.dropLast else none

/-- The decimal numeral of a natural number. -/
def ofNat (number : Nat) : Text :=
  Nat.toDigits 10 number

/-- The decimal numeral of an integer, with a minus sign when it is negative. -/
def ofInt (number : Int) : Text :=
  if number < 0 then '-' :: ofNat number.natAbs else ofNat number.natAbs

/-- The number that a text of decimal digits denotes. -/
def toNat (digits : Text) : Nat :=
  Nat.ofDigitChars 10 digits 0

/-- The pieces one after the other, with the separator between neighbours. -/
def join (separator : Text) (pieces : List Text) : Text :=
  List.intercalate separator pieces

/-- The number of bytes of the text in UTF-8. -/
def byteLength (text : Text) : Nat :=
  text.foldr (fun c total ↦ c.utf8Size + total) 0

end Text

end PenScript
