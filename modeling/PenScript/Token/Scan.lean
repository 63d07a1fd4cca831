import PenScript.Fault
import PenScript.Integer
import PenScript.Real.Literal
import PenScript.Token

/-!
# Scanning tokens

An arithmetic expression is cut into tokens from left to right, always the longest token that the
text starts with. A numeral with a decimal point or a complete exponent is a real number, any other
run of digits is an integer, and an exponent that is not complete belongs to the next token. A word
is a name unless it is `true` or `false` in any letter case. Spaces, tabs, carriage returns and line
feeds separate tokens.
-/

namespace PenScript.Token

/-- A character that separates tokens. -/
def isSeparator (c : Char) : Bool :=
  c == ' ' || c == '\t' || c == '\r' || c == '\n'

/-- The digits that a text starts with, and what follows them. -/
def splitDigits (text : Text) : Text × Text :=
  (text.takeWhile Char.isDigit, text.dropWhile Char.isDigit)

/-- The sign that a text starts with, if any, and what follows it. -/
def splitSign : Text → Text × Text
  | '+' :: rest => (['+'], rest)
  | '-' :: rest => (['-'], rest)
  | text => ([], text)

/-- The complete exponent that a text starts with, and what follows it. Without one the first part
is empty. -/
def splitExponent (text : Text) : Text × Text :=
  match text with
  | [] => ([], [])
  | mark :: rest =>
      let sign := splitSign rest
      let digits := splitDigits sign.2
      if (mark == 'e' || mark == 'E') && !digits.1.isEmpty then
        (mark :: sign.1 ++ digits.1, digits.2)
      else ([], text)

/-- The integer of a run of digits, when it is representable. -/
def integer? (digits : Text) : Option Token :=
  (Integer.ofInt? (Text.toNat digits)).map .integer

/-- The real numeral that goes on after its decimal point. -/
def pointNumeral (whole afterPoint : Text) : Except Text (Token × Text) :=
  let fraction := splitDigits afterPoint
  let exponent := splitExponent fraction.2
  if whole.isEmpty && fraction.1.isEmpty then .error ['.']
  else .ok (.real (Real.ofLiteral (whole ++ '.' :: fraction.1 ++ exponent.1)), exponent.2)

/-- The numeral without a decimal point that starts with these digits: a real number with a complete
exponent, an integer without one. -/
def plainNumeral (whole rest : Text) : Except Text (Token × Text) :=
  let exponent := splitExponent rest
  if !exponent.1.isEmpty then .ok (.real (Real.ofLiteral (whole ++ exponent.1)), exponent.2)
  else match integer? whole with
    | some token => .ok (token, rest)
    | none => .error whole

/-- The numeral that a text starts with, where the text starts with a digit or a point. The failure
is the part that is no token. -/
def numeral (text : Text) : Except Text (Token × Text) :=
  let whole := splitDigits text
  match whole.2 with
  | '.' :: afterPoint => pointNumeral whole.1 afterPoint
  | rest => plainNumeral whole.1 rest

/-- The token of a whole word. -/
def ofWord (word : Text) : Token :=
  if Text.sameIgnoringCase word "true".toList then .boolean true
  else if Text.sameIgnoringCase word "false".toList then .boolean false
  else .name word

/-- The token that a single character is. -/
def ofMark? : Char → Option Token
  | '+' => some .plus
  | '-' => some .minus
  | '*' => some .star
  | '/' => some .slash
  | '%' => some .percent
  | '(' => some .leftParen
  | ')' => some .rightParen
  | _ => none

/-- The token that a text starts with, and what follows it. The failure is the part of the text that
is no token. -/
def front : Text → Except Text (Token × Text)
  | [] => .error []
  | c :: rest =>
      if c.isDigit || c == '.' then numeral (c :: rest)
      else if Text.isNameStart c then
        .ok (ofWord (c :: rest.takeWhile Text.isNameChar), rest.dropWhile Text.isNameChar)
      else match ofMark? c with
        | some token => .ok (token, rest)
        | none => .error [c]

private theorem length_of_drop_while (p : Char → Bool) (text : Text) :
    (text.dropWhile p).length ≤ text.length :=
  (List.dropWhile_suffix p).length_le

private theorem length_of_split_sign (text : Text) : (splitSign text).2.length ≤ text.length := by
  unfold splitSign
  split <;> simp

private theorem length_of_split_exponent (text : Text) :
    (splitExponent text).2.length ≤ text.length := by
  cases text with
  | nil => simp [splitExponent]
  | cons mark rest =>
      have hdigits : (splitDigits (splitSign rest).2).2.length ≤ (splitSign rest).2.length :=
        length_of_drop_while Char.isDigit (splitSign rest).2
      have hsign := length_of_split_sign rest
      rw [splitExponent]
      split
      · simp only [List.length_cons]
        omega
      · exact Nat.le_refl _

private theorem length_of_point_numeral {whole afterPoint rest : Text} {token : Token}
    (read : pointNumeral whole afterPoint = .ok (token, rest)) :
    rest.length ≤ afterPoint.length := by
  unfold pointNumeral at read
  dsimp only at read
  by_cases hempty : (whole.isEmpty && (splitDigits afterPoint).1.isEmpty) = true
  · simp [hempty] at read
  · rw [if_neg hempty] at read
    simp only [Except.ok.injEq, Prod.mk.injEq] at read
    obtain ⟨-, rfl⟩ := read
    exact Nat.le_trans (length_of_split_exponent _) (length_of_drop_while _ _)

private theorem length_of_plain_numeral {whole after rest : Text} {token : Token}
    (read : plainNumeral whole after = .ok (token, rest)) : rest.length ≤ after.length := by
  unfold plainNumeral at read
  dsimp only at read
  by_cases hempty : (!(splitExponent after).1.isEmpty) = true
  · rw [if_pos hempty] at read
    simp only [Except.ok.injEq, Prod.mk.injEq] at read
    obtain ⟨-, rfl⟩ := read
    exact length_of_split_exponent _
  · rw [if_neg hempty] at read
    cases hinteger : integer? whole with
    | none => simp [hinteger] at read
    | some token =>
        simp only [hinteger, Except.ok.injEq, Prod.mk.injEq] at read
        obtain ⟨-, rfl⟩ := read
        exact Nat.le_refl _

private theorem length_of_numeral {c : Char} {others rest : Text} {token : Token}
    (start : (c.isDigit || c == '.') = true)
    (read : numeral (c :: others) = .ok (token, rest)) : rest.length ≤ others.length := by
  unfold numeral at read
  by_cases hdigit : c.isDigit = true
  · have hdrop : (splitDigits (c :: others)).2.length ≤ others.length := by
      simp only [splitDigits, List.dropWhile_cons_of_pos hdigit]
      exact length_of_drop_while _ _
    dsimp only at read
    split at read
    · rename_i afterPoint hafter
      rw [hafter, List.length_cons] at hdrop
      have := length_of_point_numeral read
      omega
    · have := length_of_plain_numeral read
      omega
  · have hpoint : c = '.' := by simpa [hdigit] using start
    subst hpoint
    have hdrop : (splitDigits ('.' :: others)).2 = '.' :: others := by
      simp [splitDigits, List.dropWhile_cons_of_neg hdigit]
    simp only [hdrop] at read
    exact length_of_point_numeral read

/-- What follows a token is shorter than the text that starts with it. -/
theorem length_of_front {text rest : Text} {token : Token}
    (read : front text = .ok (token, rest)) : rest.length < text.length := by
  cases text with
  | nil => simp [front] at read
  | cons c others =>
      suffices rest.length ≤ others.length by simp only [List.length_cons]; omega
      rw [front] at read
      by_cases hnumeral : (c.isDigit || c == '.') = true
      · rw [if_pos hnumeral] at read
        exact length_of_numeral hnumeral read
      · rw [if_neg hnumeral] at read
        by_cases hname : Text.isNameStart c = true
        · rw [if_pos hname] at read
          simp only [Except.ok.injEq, Prod.mk.injEq] at read
          obtain ⟨-, rfl⟩ := read
          exact length_of_drop_while _ _
        · rw [if_neg hname] at read
          cases hmark : ofMark? c with
          | none => simp [hmark] at read
          | some mark =>
              simp only [hmark, Except.ok.injEq, Prod.mk.injEq] at read
              obtain ⟨-, rfl⟩ := read
              exact Nat.le_refl _

/-- A place where no token starts: the part of the text that is no token, and the text from there.
-/
structure Obstacle where
  slice : Text
  rest : Text

/-- The tokens of a text, or the first place where no token starts. -/
def scanFrom (text : Text) : Except Obstacle (List Token) :=
  match text with
  | [] => .ok []
  | c :: rest =>
      if isSeparator c then scanFrom rest
      else match read : front (c :: rest) with
        | .error slice => .error ⟨slice, c :: rest⟩
        | .ok (token, others) =>
            have : others.length < (c :: rest).length := length_of_front read
            (scanFrom others).map (token :: ·)
termination_by text.length
decreasing_by
  · exact Nat.lt_succ_self _
  · exact this

/-- The tokens of a text. The offset of what is no token counts bytes. -/
def scan (text : Text) : Except Fault (List Token) :=
  (scanFrom text).mapError fun obstacle ↦
    .unexpectedInput obstacle.slice (Text.byteLength text - Text.byteLength obstacle.rest)

end PenScript.Token
