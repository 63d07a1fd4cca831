import PenScript.Command
import PenScript.Proofs.Text.Trim

/-!
# Spellings of a line

The blanks around a line and the letter case of its keyword are a matter of spelling.
`Line.Respelled` says that a line is another spelling of a line, in the words of somebody who edits
it. Of two spellings either both are the same without the blanks around them, or both start with one
word in two letter cases and go on alike (`Respelled.cases`), and this is how spellings can be told
from other lines (`respelled_iff`). From this follows that all that is ever asked of a line has the
same answer: its kind, what follows its keyword, its statement, and its text but for letter case.
-/

namespace PenScript

open Text

namespace Line

variable {registry : Registry} {line other : Text}

/-- The line starts with a keyword, which is read in any letter case: it opens or closes a block, it
is an `else`, or it is a command. A command keyword with an equals sign after it is the target of an
assignment. -/
def startsWithKeyword (registry : Registry) (line : Text) : Bool :=
  match kind line with
  | .opener _ | .otherwise | .closer _ => true
  | .statement =>
      registry.has (splitWord line).1 && (afterEquals? (splitWord line).2).isNone
  | .skipped => false

/-- The second line is the first one with other blanks around it and, if it starts with a keyword,
with that keyword in another letter case. -/
inductive Respelled (registry : Registry) : Text → Text → Prop where
  | blanks {before after start stop : Text} (text : Text)
      (hbefore : Blank before) (hafter : Blank after) (hstart : Blank start) (hstop : Blank stop) :
      Respelled registry (before ++ text ++ after) (start ++ text ++ stop)
  | keyword {before after start stop word spelled : Text} (rest : Text)
      (hbefore : Blank before) (hafter : Blank after) (hstart : Blank start) (hstop : Blank stop)
      (hword : word = (splitWord (before ++ (word ++ rest) ++ after)).1)
      (hkeyword : startsWithKeyword registry (before ++ (word ++ rest) ++ after) = true)
      (hcase : toLower spelled = toLower word) :
      Respelled registry (before ++ (word ++ rest) ++ after) (start ++ (spelled ++ rest) ++ stop)

/-- Every line is a spelling of itself. -/
theorem Respelled.refl (line : Text) : Respelled registry line line := by
  have hnone : Blank [] := fun c hc ↦ nomatch hc
  have hsame := @Respelled.blanks registry [] [] [] [] line hnone hnone hnone hnone
  rwa [List.nil_append, List.append_nil] at hsame

/-- What is asked of a line is asked of the line without the blanks around it. -/
theorem split_word_congr (h : trim other = trim line) : splitWord other = splitWord line := by
  unfold splitWord
  rw [h]

theorem kind_congr (h : trim other = trim line) : kind other = kind line := by
  unfold kind isSkipped
  rw [split_word_congr h, h]

theorem statement_congr (h : trim other = trim line) (scope : Scope) :
    registry.statement scope other = registry.statement scope line := by
  unfold Registry.statement
  rw [h]

section Words

variable {word spelled rest : Text}

/-- The leading word of a text that starts with one. -/
theorem split_word_append (hword : IsWord word) (hsome : word ≠ [])
    (hend : (trimEnd rest).takeWhile isNameChar = []) :
    splitWord (word ++ rest) = (word, trimStart (trimEnd rest)) := by
  have hrest : (trimEnd rest).dropWhile isNameChar = trimEnd rest := by
    have hparts := @List.takeWhile_append_dropWhile _ isNameChar (trimEnd rest)
    rwa [hend, List.nil_append] at hparts
  unfold splitWord
  rw [trim_word hword hsome]
  dsimp only
  rw [List.takeWhile_append_of_pos hword, List.dropWhile_append_of_pos hword, hend, hrest,
    List.append_nil]

/-- A line that starts with a word is neither blank nor a comment. -/
theorem is_skipped_append (hword : IsWord word) (hsome : word ≠ []) (rest : Text) :
    isSkipped (word ++ rest) = false := by
  obtain ⟨first, others, rfl⟩ := List.exists_cons_of_ne_nil hsome
  have hfirst := hword first List.mem_cons_self
  unfold isSkipped
  rw [trim_word hword hsome]
  split
  · rename_i hempty
    cases hempty
  · rename_i hstar
    obtain ⟨rfl, -⟩ := List.cons.inj hstar
    exact absurd hfirst (by decide)
  · rename_i hhash
    obtain ⟨rfl, -⟩ := List.cons.inj hhash
    exact absurd hfirst (by decide)
  · rename_i hslash
    obtain ⟨rfl, -⟩ := List.cons.inj hslash
    exact absurd hfirst (by decide)
  · rfl

/-- The kind of a line does not depend on the letter case of the word it starts with. -/
theorem kind_append (hword : IsWord word) (hsome : word ≠ [])
    (hcase : toLower spelled = toLower word) (hend : (trimEnd rest).takeWhile isNameChar = []) :
    kind (spelled ++ rest) = kind (word ++ rest) := by
  have hspelled := hword.of_same_case hcase
  have hother := ne_nil_of_same_case hsome hcase
  unfold kind
  rw [is_skipped_append hword hsome, is_skipped_append hspelled hother,
    split_word_append hword hsome hend, split_word_append hspelled hother hend, hcase]

/-- A statement that starts with a keyword is dispatched by it. -/
theorem statement_append (hword : IsWord word) (hsome : word ≠ [])
    (hend : (trimEnd rest).takeWhile isNameChar = [])
    (hplain : afterEquals? (trimStart (trimEnd rest)) = none) (scope : Scope) :
    registry.statement scope (word ++ rest) =
      registry.dispatch scope word (trimStart (trimEnd rest)) := by
  have hsplit : splitWord (word ++ trimEnd rest) = (word, trimStart (trimEnd rest)) := by
    rw [split_word_append hword hsome (by rwa [trim_end_idempotent]), trim_end_idempotent]
  unfold Registry.statement
  dsimp only
  rw [trim_word hword hsome, hsplit, hplain, if_neg (by rwa [List.isEmpty_iff]),
    if_neg (by exact Bool.false_ne_true)]

/-- No name character stands first in what is trimmed at its end, when none did before. -/
theorem take_while_trim_end {c : Char} (hc : isNameChar c = false) (rest : Text) :
    (trimEnd (c :: rest)).takeWhile isNameChar = [] := by
  cases htrim : trimEnd (c :: rest) with
  | nil => rfl
  | cons d others =>
      obtain ⟨after, hafter⟩ := trim_end_prefix (c :: rest)
      rw [htrim, List.cons_append] at hafter
      obtain ⟨rfl, -⟩ := List.cons.inj hafter
      rw [List.takeWhile_cons, if_neg (by rw [hc]; exact Bool.false_ne_true)]

/-- The leading word of a text that has a character behind it which belongs to no word. -/
theorem split_word_cons (hword : IsWord word) (hsome : word ≠ []) {c : Char}
    (hc : isNameChar c = false) (rest : Text) :
    splitWord (word ++ c :: rest) = (word, trim (c :: rest)) := by
  rw [split_word_append hword hsome (take_while_trim_end hc rest), trim_start_trim_end]

/-- The leading word of a text that has a blank behind it. -/
theorem split_word_blank (hword : IsWord word) (hsome : word ≠ []) (rest : Text) :
    splitWord (word ++ ' ' :: rest) = (word, trim rest) := by
  rw [split_word_cons hword hsome rfl, trim_cons_blank]

/-- A name after a keyword is no equals sign. -/
theorem after_equals_name (hname : isIdentifier word = true) (rest : Text) :
    afterEquals? (trim (word ++ rest)) = none := by
  obtain ⟨hword, hsome⟩ := word_of_identifier hname
  rw [trim_word hword hsome]
  obtain ⟨first, others, rfl⟩ := List.exists_cons_of_ne_nil hsome
  rw [List.cons_append]
  unfold afterEquals?
  split
  · rename_i hequals
    obtain ⟨rfl, -⟩ := List.cons.inj hequals
    exact absurd (hword '=' List.mem_cons_self) (by decide)
  · rfl

/-- A keyword is a word. -/
theorem keyword_word (command : Command) : IsWord command.keyword ∧ command.keyword ≠ [] :=
  word_of_identifier (by cases command <;> first | rfl | (rename_i kind; cases kind <;> rfl))

/-- A line of a command keyword, a name and anything behind it is dispatched by the keyword. -/
theorem statement_keyword {command : Command} (hname : isIdentifier word = true) (scope : Scope) :
    registry.statement scope (command.keyword ++ ' ' :: (word ++ rest)) =
      registry.dispatch scope command.keyword (trim (word ++ rest)) := by
  obtain ⟨hword, hsome⟩ := keyword_word command
  have hrest : trimStart (trimEnd (' ' :: (word ++ rest))) = trim (word ++ rest) := by
    rw [trim_start_trim_end, trim_cons_blank]
  rw [statement_append hword hsome (take_while_trim_end rfl _), hrest]
  rw [hrest]
  exact after_equals_name hname rest

end Words

/-- Of two spellings of a line, either both are the same without the blanks around them, or both
start with one keyword in two letter cases and go on alike. -/
theorem Respelled.cases (h : Respelled registry line other) :
    trim other = trim line ∨
      ∃ word spelled rest, IsWord word ∧ word ≠ [] ∧ toLower spelled = toLower word ∧
        (trimEnd rest).takeWhile isNameChar = [] ∧ startsWithKeyword registry line = true ∧
        trim line = trim (word ++ rest) ∧ trim other = trim (spelled ++ rest) := by
  cases h with
  | blanks text hbefore hafter hstart hstop =>
      exact .inl (by rw [trim_append hbefore hafter, trim_append hstart hstop])
  | @keyword before after start stop word spelled rest hbefore hafter hstart hstop hword hkeyword
      hcase =>
      rw [trim_append hbefore hafter, trim_append hstart hstop]
      by_cases hsome : word = []
      · subst hsome
        rw [List.map_eq_nil_iff.mp hcase]
        exact .inl rfl
      · rw [split_word_congr (trim_append hbefore hafter _)] at hword
        have hcharacters : IsWord word := by
          intro c hc
          rw [hword] at hc
          exact List.mem_takeWhile_imp hc
        refine .inr ⟨word, spelled, rest, hcharacters, hsome, hcase, ?_, hkeyword, rfl, rfl⟩
        -- The word is all of the name characters at the start, so no other ones follow it.
        unfold splitWord at hword
        rw [trim_word hcharacters hsome] at hword
        dsimp only at hword
        rw [List.takeWhile_append_of_pos hcharacters] at hword
        exact List.self_eq_append_right.mp hword

/-- Whether a line is a spelling of another one can be told from the two lines without the blanks
around them. -/
theorem respelled_iff :
    Respelled registry line other ↔ trim other = trim line ∨
      startsWithKeyword registry line = true ∧
        toLower (splitWord other).1 = toLower (splitWord line).1 ∧
        (trim other).dropWhile isNameChar = (trim line).dropWhile isNameChar := by
  obtain ⟨before, after, hbefore, hafter, hline⟩ := exists_blanks line
  obtain ⟨start, stop, hstart, hstop, hother⟩ := exists_blanks other
  constructor
  · intro h
    rcases h.cases with
      htrim | ⟨word, spelled, rest, hword, hsome, hcase, hend, hkeyword, htrim, htwin⟩
    · exact .inl htrim
    · have hspelled := hword.of_same_case hcase
      have htext := ne_nil_of_same_case hsome hcase
      refine .inr ⟨hkeyword, ?_, ?_⟩
      · rw [split_word_congr htrim, split_word_congr htwin, split_word_append hword hsome hend,
          split_word_append hspelled htext hend, hcase]
      · rw [htrim, htwin, trim_word hword hsome, trim_word hspelled htext,
          List.dropWhile_append_of_pos hword, List.dropWhile_append_of_pos hspelled]
  · rintro (htrim | ⟨hkeyword, hcase, hrest⟩)
    · rw [hline, hother, htrim]
      exact .blanks (trim line) hbefore hafter hstart hstop
    · have hmine : trim line = (splitWord line).1 ++ (trim line).dropWhile isNameChar :=
        List.takeWhile_append_dropWhile.symm
      have htwin : trim other = (splitWord other).1 ++ (trim line).dropWhile isNameChar :=
        hrest ▸ List.takeWhile_append_dropWhile.symm
      have hwhole : line =
          before ++ ((splitWord line).1 ++ (trim line).dropWhile isNameChar) ++ after :=
        hmine ▸ hline
      have hspelling := Respelled.keyword ((trim line).dropWhile isNameChar) hbefore hafter hstart
        hstop (congrArg (fun text ↦ (splitWord text).1) hwhole)
        ((congrArg (startsWithKeyword registry) hwhole).symm.trans hkeyword) hcase
      rwa [← hwhole, ← htwin, ← hother] at hspelling

instance : Decidable (Respelled registry line other) :=
  decidable_of_iff _ respelled_iff.symm

/-- Two spellings of a line are of one kind. -/
theorem Respelled.kind (h : Respelled registry line other) : Line.kind other = Line.kind line := by
  rcases h.cases with htrim | ⟨word, spelled, rest, hword, hsome, hcase, hend, -, hline, hother⟩
  · exact kind_congr htrim
  · rw [kind_congr hline, kind_congr hother, kind_append hword hsome hcase hend]

/-- Two spellings of a line have the same text after the leading word. -/
theorem Respelled.rest (h : Respelled registry line other) :
    (splitWord other).2 = (splitWord line).2 := by
  rcases h.cases with htrim | ⟨word, spelled, rest, hword, hsome, hcase, hend, -, hline, hother⟩
  · rw [split_word_congr htrim]
  · rw [split_word_congr hline, split_word_congr hother, split_word_append hword hsome hend,
      split_word_append (hword.of_same_case hcase) (ne_nil_of_same_case hsome hcase) hend]

/-- Two spellings of a line differ in letter case only, without the blanks around them. -/
theorem Respelled.same_case (h : Respelled registry line other) :
    toLower (trim other) = toLower (trim line) := by
  rcases h.cases with htrim | ⟨word, spelled, rest, hword, hsome, hcase, -, -, hline, hother⟩
  · rw [htrim]
  · rw [hline, hother, trim_word hword hsome,
      trim_word (hword.of_same_case hcase) (ne_nil_of_same_case hsome hcase)]
    unfold toLower at hcase ⊢
    rw [List.map_append, List.map_append, hcase]

/-- Two spellings of a statement have one effect. -/
theorem Respelled.statement (h : Respelled registry line other)
    (hstatement : Line.kind line = .statement) (scope : Scope) :
    registry.statement scope other = registry.statement scope line := by
  rcases h.cases with
    htrim | ⟨word, spelled, rest, hword, hsome, hcase, hend, hkeyword, hline, hother⟩
  · exact statement_congr htrim scope
  · unfold startsWithKeyword at hkeyword
    rw [hstatement, split_word_congr hline, split_word_append hword hsome hend] at hkeyword
    obtain ⟨hhas, hnone⟩ := Bool.and_eq_true_iff.mp hkeyword
    have hplain := Option.isNone_iff_eq_none.mp hnone
    obtain ⟨command, hcommand⟩ := Option.isSome_iff_exists.mp hhas
    have hspelled : registry.find? spelled = some command := by
      unfold Registry.find? at hcommand ⊢
      rwa [hcase]
    rw [statement_congr hline, statement_congr hother,
      statement_append hword hsome hend hplain,
      statement_append (hword.of_same_case hcase) (ne_nil_of_same_case hsome hcase) hend hplain,
      Registry.dispatch, Registry.dispatch, hcommand, hspelled]

end Line

end PenScript
