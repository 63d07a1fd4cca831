import PenScript.Proofs.Arguments.Words

/-!
# Two ways to separate arguments

Arguments may be separated by commas or by blanks. A text is plain (`Arguments.Plain`) when it can
stand between other arguments in both ways: it has no comma outside quotes and parentheses, no word
of it could start a new argument, and it is no continuation of an argument before it nor does it go
on with one after it. Plain texts are read back as they are (`separators_agree`).
-/

namespace PenScript.Arguments

open Text

/-- A text that is one argument however arguments are separated. Its quotes and parentheses are
balanced, though a parenthesis may be closed before it is opened, and they enclose all of its
commas. The first word is no lone operator, the last one does not end in an operator, and of two
words that follow one another the first ends in an operator or the second is one. -/
structure Plain (text : Text) : Prop where
  tight : Tight text
  balanced : Text.Balanced text
  encloses : Text.Encloses ',' text
  first : ∀ word ∈ ((words text).map Prod.snd).head?, isLoneOperator word = false
  last : ∀ word ∈ ((words text).map Prod.snd).getLast?, endsInOperator word = false
  between : ((words text).map Prod.snd).IsChain Continues

instance (text : Text) : Decidable (Plain text) :=
  decidable_of_iff
    (Tight text ∧ Text.Balanced text ∧ Text.Encloses ',' text ∧
      (∀ word ∈ ((words text).map Prod.snd).head?, isLoneOperator word = false) ∧
      (∀ word ∈ ((words text).map Prod.snd).getLast?, endsInOperator word = false) ∧
      ((words text).map Prod.snd).IsChain Continues)
    ⟨fun ⟨h, h₁, h₂, h₃, h₄, h₅⟩ ↦ ⟨h, h₁, h₂, h₃, h₄, h₅⟩,
      fun ⟨h, h₁, h₂, h₃, h₄, h₅⟩ ↦ ⟨h, h₁, h₂, h₃, h₄, h₅⟩⟩

section Pieces

variable {text : Text} {pieces : List Text}

/-- The words of a plain text are joined to the text, and the argument ends there. -/
theorem Plain.words_eq (h : Plain text) : ∃ word tail, isLoneOperator word = false ∧
    (∀ blanks, wordsAfter blanks text = (blanks, word) :: tail) ∧
    ∀ rest, joinWords word (endsInOperator word) (tail ++ rest) = joinWords text false rest := by
  obtain ⟨word, tail, htext, hwords⟩ := words_of_tight h.tight
  have hlist : words text = ([], word) :: tail := hwords []
  obtain ⟨-, -, -, hfirst, hlast, hbetween⟩ := h
  rw [hlist, List.map_cons] at hfirst hlast hbetween
  refine ⟨word, tail, hfirst word rfl, hwords, fun rest ↦ ?_⟩
  have hend : endsInOperator ((tail.map Prod.snd).getLastD word) = false :=
    hlast _ (by rw [List.getLast?_cons, List.getLastD_eq_getLast?]; rfl)
  rw [join_words_append hbetween, htext, hend]

/-- Plain texts with blanks between them are read back. -/
theorem join_words_join (hsome : pieces ≠ []) (h : ∀ piece ∈ pieces, Plain piece) :
    ∃ word tail, isLoneOperator word = false ∧
      (∀ blanks, wordsAfter blanks (join [' '] pieces) = (blanks, word) :: tail) ∧
      joinWords word (endsInOperator word) tail = pieces := by
  induction pieces with
  | nil => exact absurd rfl hsome
  | cons piece rest ih =>
      obtain ⟨hpiece, hrest⟩ := List.forall_mem_cons.mp h
      obtain ⟨word, tail, hword, hwords, hjoin⟩ := hpiece.words_eq
      cases rest with
      | nil =>
          have hend := hjoin []
          rw [List.append_nil] at hend
          exact ⟨word, tail, hword, by rwa [join_singleton], hend⟩
      | cons next rest =>
          obtain ⟨first, others, hfirst, hothers, hpieces⟩ := ih (List.cons_ne_nil _ _) hrest
          -- The argument has ended, and the word behind the blank is no operator that goes on
          -- with it, so the next argument starts there.
          refine ⟨word, tail ++ ([' '], first) :: others, hword, fun blanks ↦ ?_, ?_⟩
          · rw [join_cons_cons, List.append_assoc, List.singleton_append,
              words_append hpiece.tight hpiece.balanced, hwords, hothers, List.cons_append]
          · rw [hjoin, joinWords, hfirst, if_neg (by exact Bool.false_ne_true), hpieces]

/-- Plain texts with blanks between them are read back by blanks. -/
theorem spaced_join (hsome : pieces ≠ []) (h : ∀ piece ∈ pieces, Plain piece) :
    spaced (join [' '] pieces) = pieces := by
  obtain ⟨word, tail, -, hwords, hjoin⟩ := join_words_join hsome h
  have hlist : words (join [' '] pieces) = ([], word) :: tail := hwords []
  rw [spaced, hlist]
  exact hjoin

end Pieces

/-- Two or more plain texts are read back as they are, in order and character for character, both
when a comma and a blank stand between them and when only a blank does. -/
theorem separators_agree (arguments : List Text) (hmany : 2 ≤ arguments.length)
    (hplain : ∀ argument ∈ arguments, Plain argument) :
    list (join ", ".toList arguments) = arguments ∧
      list (join " ".toList arguments) = arguments := by
  have hsome : arguments ≠ [] := List.ne_nil_of_length_pos (Nat.zero_lt_of_lt hmany)
  have htight : ∀ argument ∈ arguments, Tight argument := fun _ hmem ↦ (hplain _ hmem).tight
  have hpieces : ∀ argument ∈ arguments, Text.Balanced argument ∧ Text.Encloses ',' argument :=
    fun _ hmem ↦ ⟨(hplain _ hmem).balanced, (hplain _ hmem).encloses⟩
  constructor
  · have hlisted : listed (join ", ".toList arguments) = arguments :=
      listed_join hsome htight hpieces
    rw [list_of_commas (.join hsome htight _) (by rwa [hlisted]), hlisted]
  · have hencloses : Text.Encloses ',' (join " ".toList arguments) :=
      .join (by decide) (by decide) hpieces
    rw [list_of_encloses (.join hsome htight _) hencloses]
    exact spaced_join hsome hplain

/-- Arguments with operators on both sides of a blank, before a word and in front, with a comma in
parentheses and another one in quotes. -/
theorem separators_agree_operators : ∃ arguments : List Text,
    arguments = ["-x + (y, 2)".toList, "a* 3".toList, "-1".toList, "\", \" + n".toList] ∧
    2 ≤ arguments.length ∧ (∀ argument ∈ arguments, Plain argument) ∧
    list (join ", ".toList arguments) = arguments ∧
    list (join " ".toList arguments) = arguments := by
  refine ⟨_, rfl, by decide, by decide, ?_⟩
  exact separators_agree _ (by decide) (by decide)

end PenScript.Arguments
