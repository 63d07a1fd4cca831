import PenScript.Text
import PenScript.Text.Combining
import PenScript.Text.Unprintable

/-!
# Quoted text

A text is quoted between double quotes. A double quote, a backslash, the null character, a tab, a
carriage return and a line feed are written as a backslash and one more character; every other
character that would not be seen is written as `\u{…}` around its hexadecimal code point.
-/

namespace PenScript.Text

/-- The code point of the character in hexadecimal, as `\u{…}`. -/
def codePointEscape (c : Char) : Text :=
  "\\u\x7b".toList ++ Nat.toDigits 16 c.toNat ++ "\x7d".toList

/-- The form of one character inside double quotes. -/
def quotedChar (c : Char) : Text :=
  match c with
  | '\x00' => "\\0".toList
  | '\t' => "\\t".toList
  | '\r' => "\\r".toList
  | '\n' => "\\n".toList
  | '"' => "\\\"".toList
  | '\\' => "\\\\".toList
  | _ => if isCombining c || isUnprintable c then codePointEscape c else [c]

/-- The text in double quotes. -/
def quoted (text : Text) : Text :=
  '"' :: text.flatMap quotedChar ++ ['"']

end PenScript.Text
