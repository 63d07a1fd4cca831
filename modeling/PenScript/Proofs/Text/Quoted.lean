import PenScript.Proofs.Text.Delimited
import PenScript.Text.Quoted

/-!
# Reading quoted text

A quoted text ends at its own closing quote, whatever follows (`delimited_quoted`), and it stands on
one line (`quoted_no_line_feed`). Both come from the three forms of a quoted character
(`CharForm`): none of them starts with a double quote or holds a line feed, and a backslash starts
the two forms that stand for something else.
-/

namespace PenScript.Text

/-- The characters that are quoted as a backslash and one more character. -/
def shortEscapes : List (Char × Char) :=
  [('\x00', '0'), ('\t', 't'), ('\r', 'r'), ('\n', 'n'), ('"', '"'), ('\\', '\\')]

/-- The forms of a character inside double quotes. -/
inductive CharForm : Char → Text → Prop where
  | short {c mark : Char} (h : (c, mark) ∈ shortEscapes) : CharForm c ['\\', mark]
  | code (c : Char) : CharForm c (codePointEscape c)
  | plain {c : Char} (hquote : c ≠ '"') (hslash : c ≠ '\\') (hfeed : c ≠ '\n') : CharForm c [c]

/-- Every character is quoted in one of the forms. -/
theorem quoted_char_form (c : Char) : CharForm c (quotedChar c) := by
  unfold quotedChar
  split
  case h_7 hfeed hquote hslash =>
    by_cases hescaped : (isCombining c || isUnprintable c) = true
    · rw [if_pos hescaped]
      exact .code c
    · rw [if_neg hescaped]
      exact .plain hquote hslash hfeed
  all_goals exact .short (by decide)

/-- The characters of an escape with a code point. -/
theorem code_point_escape_eq (c : Char) :
    codePointEscape c = '\\' :: 'u' :: '\x7b' :: (Nat.toDigits 16 c.toNat ++ ['\x7d']) := rfl

/-- A hexadecimal numeral does not hold the brace that ends an escape. -/
theorem hexadecimal_no_brace (number : Nat) :
    ∀ c ∈ Nat.toDigits 16 number, (c != '\x7d') = true ∧ c ≠ '\n' := by
  intro c hc
  obtain ⟨digit, hdigit, rfl⟩ := digit_of_mem_to_digits (by decide) hc
  have hall : ∀ digit : Fin 16, (digit.val.digitChar != '\x7d') = true ∧
      digit.val.digitChar ≠ '\n' := by decide
  exact hall ⟨digit, hdigit⟩

/-- The code point in an escape ends at its brace. -/
theorem code_point_escape_delimited {first second : Char} {after other : Text}
    (h : codePointEscape first ++ after = codePointEscape second ++ other) :
    first = second ∧ after = other := by
  have hcode : Delimited (fun rest ↦ ∀ c ∈ rest.head?, (c != '\x7d') = false)
      (Nat.toDigits 16) :=
    .of_run (to_digits_injective (by decide) (by decide))
      fun number c hc ↦ (hexadecimal_no_brace number c hc).1
  have hbrace : ∀ rest : Text, ∀ c ∈ ('\x7d' :: rest).head?, (c != '\x7d') = false := by
    intro rest c hc
    obtain rfl := Option.some.inj hc
    decide
  simp only [codePointEscape, List.append_assoc] at h
  obtain ⟨hsame, hrest⟩ := hcode (hbrace _) (hbrace _) (List.append_cancel_left h)
  exact ⟨Char.toNat_inj.mp hsame, (List.cons.inj hrest).2⟩

/-- No escape of the short form starts as one of a code point does, and no two of them are equal. -/
theorem short_escapes_differ : ∀ escape ∈ shortEscapes, escape.2 ≠ 'u' ∧ escape.2 ≠ '\n' ∧
    ∀ other ∈ shortEscapes, escape.2 = other.2 → escape.1 = other.1 := by
  decide

/-- A quoted character ends where its form ends. -/
theorem CharForm.delimited {first second : Char} {form otherForm after other : Text}
    (hfirst : CharForm first form) (hsecond : CharForm second otherForm)
    (h : form ++ after = otherForm ++ other) : first = second ∧ after = other := by
  cases hfirst with
  | short hmem =>
      obtain ⟨hcode, -, hunique⟩ := short_escapes_differ _ hmem
      cases hsecond with
      | short hother =>
          simp only [List.cons_append, List.nil_append, List.cons.injEq, true_and] at h
          exact ⟨hunique _ hother h.1, h.2⟩
      | code =>
          rw [code_point_escape_eq] at h
          exact absurd (List.cons.inj (List.cons.inj h).2).1 hcode
      | plain hquote hslash hfeed => exact absurd (List.cons.inj h).1.symm hslash
  | code =>
      cases hsecond with
      | short hother =>
          obtain ⟨hcode, -⟩ := short_escapes_differ _ hother
          rw [code_point_escape_eq] at h
          exact absurd (List.cons.inj (List.cons.inj h).2).1.symm hcode
      | code => exact code_point_escape_delimited h
      | plain hquote hslash hfeed => exact absurd (List.cons.inj h).1.symm hslash
  | plain hquote hslash hfeed =>
      cases hsecond with
      | short hother => exact absurd (List.cons.inj h).1 hslash
      | code => exact absurd (List.cons.inj h).1 hslash
      | plain => exact List.cons.inj h

/-- No quoted character starts like the end of the quoted text. -/
theorem CharForm.not_quote {c : Char} {form after rest : Text} (h : CharForm c form) :
    form ++ after ≠ '"' :: rest := by
  intro hquote
  cases h with
  | short | code => cases (List.cons.inj hquote).1
  | plain hne _ _ => exact hne (List.cons.inj hquote).1

/-- No quoted character holds a line feed. -/
theorem CharForm.no_line_feed {c : Char} {form : Text} (h : CharForm c form) : '\n' ∉ form := by
  cases h with
  | short hmem =>
      obtain ⟨-, hfeed, -⟩ := short_escapes_differ _ hmem
      simp [hfeed.symm]
  | code =>
      have hdigits : '\n' ∉ Nat.toDigits 16 c.toNat :=
        fun hc ↦ (hexadecimal_no_brace c.toNat '\n' hc).2 rfl
      simp [code_point_escape_eq, hdigits]
  | plain _ _ hfeed => simp [hfeed.symm]

/-- What is between the quotes ends at the closing quote. -/
theorem quoted_body_delimited {first second after other : Text}
    (h : first.flatMap quotedChar ++ '"' :: after = second.flatMap quotedChar ++ '"' :: other) :
    first = second ∧ after = other := by
  induction first generalizing second with
  | nil =>
      cases second with
      | nil => exact ⟨rfl, (List.cons.inj h).2⟩
      | cons d second =>
          rw [List.flatMap_cons, List.append_assoc] at h
          exact absurd h.symm (quoted_char_form d).not_quote
  | cons c first ih =>
      cases second with
      | nil =>
          rw [List.flatMap_cons, List.append_assoc] at h
          exact absurd h (quoted_char_form c).not_quote
      | cons d second =>
          rw [List.flatMap_cons, List.flatMap_cons, List.append_assoc, List.append_assoc] at h
          obtain ⟨rfl, hrest⟩ := (quoted_char_form c).delimited (quoted_char_form d) h
          obtain ⟨rfl, hafter⟩ := ih hrest
          exact ⟨rfl, hafter⟩

/-- A quoted text is delimited by its quotes, and any text may follow. -/
theorem delimited_quoted : Delimited (fun _ ↦ True) quoted := by
  intro first second after other _ _ h
  simp only [quoted, List.cons_append, List.append_assoc, List.nil_append] at h
  exact quoted_body_delimited (List.cons.inj h).2

/-- A quoted text stands on one line, whatever it holds. -/
theorem quoted_no_line_feed (text : Text) : '\n' ∉ quoted text := by
  intro h
  simp only [quoted, List.cons_append, List.mem_cons, List.mem_append, List.mem_flatMap,
    List.not_mem_nil, or_false] at h
  rcases h with h | ⟨c, -, hc⟩ | h
  · cases h
  · exact (quoted_char_form c).no_line_feed hc
  · cases h

end PenScript.Text
