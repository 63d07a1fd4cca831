import PenScript.Proofs.Token.Spelling

/-!
# Printing tokens

The texts of tokens can be read again. A list of tokens is printed with separators in front of any
token, and there have to be some between two words (`Spaced.Apart`). What is printed so spells the
tokens (`Spaced.spelled`), and scanning it gives them back (`scan_printed`). Real numbers are left
out, because a whole one can be printed as an integer is.
-/

namespace PenScript.Token

/-- The token is an operator or a parenthesis. -/
def isMark : Token → Bool
  | .plus | .minus | .star | .slash | .percent | .leftParen | .rightParen => true
  | .boolean _ | .real _ | .integer _ | .name _ => false

/-- The token is the only one that its text is written for: an integer has no sign, and a name is no
truth value in any letter case. -/
def Printable : Token → Prop
  | .real _ => False
  | .integer value => 0 ≤ value.toInt
  | .name text => Text.isIdentifier text = true ∧
      Text.sameIgnoringCase text "true".toList = false ∧
      Text.sameIgnoringCase text "false".toList = false
  | .boolean _ | .plus | .minus | .star | .slash | .percent | .leftParen | .rightParen => True

instance (token : Token) : Decidable token.Printable :=
  match token with
  | .real _ => instDecidableFalse
  | .integer value => inferInstanceAs (Decidable (0 ≤ value.toInt))
  | .name text => inferInstanceAs (Decidable (Text.isIdentifier text = true ∧
      Text.sameIgnoringCase text "true".toList = false ∧
      Text.sameIgnoringCase text "false".toList = false))
  | .boolean _ | .plus | .minus | .star | .slash | .percent | .leftParen | .rightParen =>
      instDecidableTrue

/-- A token to print, with the separators in front of it. -/
structure Spaced where
  gap : Text
  token : Token
  separators : Separators gap
  printable : token.Printable

namespace Spaced

/-- The text of the tokens, with their separators. -/
def text (pieces : List Spaced) : Text :=
  pieces.flatMap fun piece ↦ piece.gap ++ piece.token.text

/-- Two words have separators between them. -/
def Apart (before after : Spaced) : Prop :=
  after.gap ≠ [] ∨ before.token.isMark = true ∨ after.token.isMark = true

end Spaced

/-! ### One token -/

/-- An operator or a parenthesis is printed as its mark. -/
theorem text_of_mark {token : Token} (h : token.isMark = true) :
    ∃ c, token.text = [c] ∧ ofMark? c = some token := by
  cases token with
  | boolean | real | integer | name => cases h
  | plus => exact ⟨'+', rfl, rfl⟩
  | minus => exact ⟨'-', rfl, rfl⟩
  | star => exact ⟨'*', rfl, rfl⟩
  | slash => exact ⟨'/', rfl, rfl⟩
  | percent => exact ⟨'%', rfl, rfl⟩
  | leftParen => exact ⟨'(', rfl, rfl⟩
  | rightParen => exact ⟨')', rfl, rfl⟩

/-- The digits of a number are read as that number. -/
theorem to_nat_of_nat (number : Nat) : Text.toNat (Text.ofNat number) = number :=
  Nat.ofDigitChars_ten_toDigits

/-- A truth value, an integer without a sign or a name is printed as one way to write it. -/
theorem Printable.spells {token : Token} (h : token.Printable) (hword : token.isMark = false) :
    Spells token.text token := by
  cases token with
  | boolean value => cases value <;> exact .word (by decide)
  | real => cases h
  | integer value =>
      have hsign : 0 ≤ value.toInt := h
      have htext : (Token.integer value).text = Text.ofNat value.toInt.natAbs := by
        rw [Token.text, Text.ofInt, if_neg (by omega)]
      rw [htext]
      refine .integer Nat.toDigits_ne_nil (fun c hc ↦ Text.digit_of_mem_of_nat hc) ?_
      rw [to_nat_of_nat]
      omega
  | name text =>
      obtain ⟨hname, htrue, hfalse⟩ := h
      have hread := Spells.word hname
      rw [ofWord, htrue, hfalse] at hread
      exact hread
  | plus | minus | star | slash | percent | leftParen | rightParen => cases hword

/-! ### A list of tokens -/

namespace Spaced

/-- A word ends in front of the next token, where that one stands apart. -/
theorem Apart.ends {before after : Spaced} (h : before.Apart after)
    (hword : before.token.isMark = false) (rest : Text) :
    Ends (after.gap ++ (after.token.text ++ rest)) := by
  intro c hc
  cases hgap : after.gap with
  | cons first others =>
      obtain rfl : first = c := by simpa [hgap] using hc
      exact .inl (after.separators first (by rw [hgap]; exact List.mem_cons_self))
  | nil =>
      rcases h with h | h | h
      · exact absurd hgap h
      · rw [hword] at h
        cases h
      · obtain ⟨mark, htext, hmark⟩ := text_of_mark h
        obtain rfl : mark = c := by simpa [hgap, htext] using hc
        exact .inr (by rw [hmark]; rfl)

/-- What is printed of tokens spells them, also with separators at the end. -/
theorem spelled {pieces : List Spaced} (h : pieces.IsChain Apart) {blanks : Text}
    (hblanks : Separators blanks) : Spelled (pieces.map token) (text pieces ++ blanks) := by
  induction pieces with
  | nil => exact .nil hblanks
  | cons piece rest ih =>
      have hrest := ih h.of_cons
      have htext : text (piece :: rest) ++ blanks =
          piece.gap ++ (piece.token.text ++ (text rest ++ blanks)) := by
        simp [text]
      rw [htext, List.map_cons]
      cases hmark : piece.token.isMark with
      | true =>
          obtain ⟨c, hc, htoken⟩ := text_of_mark hmark
          rw [hc]
          exact .mark piece.separators htoken hrest
      | false =>
          -- Behind a word there is the end of the text or a token that stands apart from it.
          have hends : Ends (text rest ++ blanks) := by
            cases rest with
            | nil =>
                intro c hc
                exact .inl (hblanks c (List.mem_of_mem_head? hc))
            | cons next others =>
                have hnext := (List.isChain_cons_cons.mp h).1.ends hmark (text others ++ blanks)
                simpa [text] using hnext
          rw [← List.append_assoc]
          exact .word piece.separators (piece.printable.spells hmark) hends hrest

end Spaced

/-- Tokens other than real numbers are read as they are printed, whatever separators are between
them, as long as there are some between two words. -/
theorem scan_printed {pieces : List Spaced} (h : pieces.IsChain Spaced.Apart) {blanks : Text}
    (hblanks : Separators blanks) :
    scan (Spaced.text pieces ++ blanks) = .ok (pieces.map Spaced.token) :=
  (Spaced.spelled h hblanks).scan

/-- Two names that begin like exponents, one behind a numeral, and the largest integer between
marks. -/
theorem scan_printed_of_words :
    scan "1 e5\t9223372036854775807-(E)".toList = .ok [.integer 1, .name "e5".toList,
      .integer Int64.maxValue, .minus, .leftParen, .name "E".toList, .rightParen] := by
  let pieces : List Spaced :=
    [⟨[], .integer 1, by decide, by decide⟩,
      ⟨" ".toList, .name "e5".toList, by decide, by decide⟩,
      ⟨"\t".toList, .integer Int64.maxValue, by decide, by decide⟩,
      ⟨[], .minus, by decide, by decide⟩, ⟨[], .leftParen, by decide, by decide⟩,
      ⟨[], .name "E".toList, by decide, by decide⟩, ⟨[], .rightParen, by decide, by decide⟩]
  have hpieces : pieces.IsChain Spaced.Apart := by simp [pieces, Spaced.Apart, isMark]
  exact @scan_printed pieces hpieces [] (by decide)

end PenScript.Token
