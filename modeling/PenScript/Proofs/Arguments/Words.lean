import PenScript.Arguments
import PenScript.Proofs.Text.Cutting

/-!
# Words of arguments

Blanks cut a text into words, and words are joined to arguments again where an operator calls for
it. Two equations say what this makes of a text that is written down piece by piece: the words of
two texts with a blank between them are those of the one and those of the other (`words_append`),
and an argument takes in all words that follow one another without an end of an argument between
them (`join_words_append`). In the other direction, what arguments a balanced text has, they are
texts without blanks around them (`spaced_tight`).
-/

namespace PenScript.Arguments

open Text

/-- The text that words stand for. -/
def spelled (words : List (Text × Text)) : Text :=
  words.flatMap fun (blanks, word) ↦ blanks ++ word

/-- The words of a text that has blanks before it. -/
def wordsAfter (blanks text : Text) : List (Text × Text) :=
  collectWords blanks (Nesting.cut isBlank .start text).1 (Nesting.cut isBlank .start text).2

section Collecting

variable {blanks part next word left right text : Text} {blank : Char}
  {rest others : List (Char × Text)} {tail : List (Text × Text)}

/-- A part that is not empty is a word. -/
theorem collect_of_part (hpart : part ≠ []) (rest : List (Char × Text)) :
    ∃ tail, ∀ blanks, collectWords blanks part rest = (blanks, part) :: tail := by
  have hsome : part.isEmpty = false := List.isEmpty_eq_false_iff.mpr hpart
  cases rest with
  | nil => exact ⟨[], fun blanks ↦ by rw [collectWords, hsome, if_neg Bool.false_ne_true]⟩
  | cons first others =>
      exact ⟨collectWords [first.1] first.2 others,
        fun blanks ↦ by rw [collectWords, hsome, if_neg Bool.false_ne_true]⟩

/-- A new word is started after a part that is not empty. -/
theorem collect_append (hlast : (rest.map Prod.snd).getLastD part ≠ []) :
    collectWords blanks part (rest ++ (blank, next) :: others) =
      collectWords blanks part rest ++ collectWords [blank] next others := by
  induction rest generalizing blanks part with
  | nil =>
      have hsome : part.isEmpty = false := List.isEmpty_eq_false_iff.mpr hlast
      rw [List.nil_append, collectWords, collectWords, hsome, if_neg Bool.false_ne_true,
        if_neg Bool.false_ne_true, List.singleton_append]
  | cons first rest ih =>
      rw [List.map_cons, List.getLastD_cons] at hlast
      rw [List.cons_append, collectWords, collectWords, ih hlast, ih hlast]
      split
      · rfl
      · rw [List.cons_append]

/-- The words of parts make up the parts, when the last one is not empty. -/
theorem spelled_collect (hlast : (rest.map Prod.snd).getLastD part ≠ []) :
    spelled (collectWords blanks part rest) = blanks ++ Nesting.glue part rest := by
  induction rest generalizing blanks part with
  | nil =>
      have hsome : part.isEmpty = false := List.isEmpty_eq_false_iff.mpr hlast
      rw [collectWords, hsome, if_neg Bool.false_ne_true]
      simp [spelled, Nesting.glue]
  | cons first rest ih =>
      rw [List.map_cons, List.getLastD_cons] at hlast
      rw [collectWords]
      split
      · rename_i hempty
        rw [ih hlast, List.isEmpty_iff.mp hempty]
        simp [Nesting.glue]
      · have hrest := @ih [first.1] first.2 hlast
        simp only [spelled, Nesting.glue] at hrest ⊢
        simp [hrest]

/-- The words of a text without blanks around it make it up, and only the first one has to do with
the blanks before it. -/
theorem words_of_tight (h : Tight text) : ∃ word tail, word ++ spelled tail = text ∧
    ∀ blanks, wordsAfter blanks text = (blanks, word) :: tail := by
  have hfirst : (Nesting.cut isBlank .start text).1 ≠ [] := by
    have hhead := h.head
    obtain ⟨c, rest, rfl⟩ := List.exists_cons_of_ne_nil h.nonempty
    exact Nesting.first_of_cut hhead
  have hlast := @Nesting.last_of_cut isBlank .start text h.nonempty h.last
  obtain ⟨tail, htail⟩ := collect_of_part hfirst (Nesting.cut isBlank .start text).2
  have hspelled := @spelled_collect [] _ _ hlast
  rw [htail, Nesting.glue_cut] at hspelled
  exact ⟨_, tail, hspelled, htail⟩

/-- The words of two texts with a blank between them are those of the one and those of the other. -/
theorem words_append (hleft : Tight left) (hbalanced : Text.Balanced left) (right : Text) :
    wordsAfter blanks (left ++ ' ' :: right) =
      wordsAfter blanks left ++ wordsAfter [' '] right := by
  have hfree : (Nesting.start.after left).isFree ' ' = true := by
    rw [hbalanced]
    rfl
  have hcut := @Nesting.cut_append isBlank .start left right ' ' hfree rfl
  rw [hbalanced] at hcut
  rw [wordsAfter, hcut]
  exact collect_append (Nesting.last_of_cut hleft.nonempty hleft.last)

/-- Every word is one of the parts, and not empty. -/
theorem mem_collect {entry : Text × Text} (h : entry ∈ collectWords blanks part rest) :
    entry.2 ≠ [] ∧ entry.2 ∈ part :: rest.map Prod.snd := by
  induction rest generalizing blanks part with
  | nil =>
      rw [collectWords] at h
      split at h
      · cases h
      · rename_i hsome
        obtain rfl := List.mem_singleton.mp h
        exact ⟨mt List.isEmpty_iff.mpr hsome, List.mem_cons_self⟩
  | cons first rest ih =>
      rw [collectWords] at h
      split at h
      · exact (ih h).imp_right (List.mem_cons_of_mem part)
      · rename_i hsome
        rcases List.mem_cons.mp h with rfl | h
        · exact ⟨mt List.isEmpty_iff.mpr hsome, List.mem_cons_self⟩
        · exact (ih h).imp_right (List.mem_cons_of_mem part)

/-- There are no blanks around a word. -/
theorem tight_of_word (hsome : text ≠ []) (hbalanced : Text.Balanced text)
    (hencloses : Nesting.Encloses isBlank .start text) : Tight text := by
  have hfree {c : Char} (h : isBlank c = true) : Nesting.start.isFree c = true := by
    rw [Nesting.isFree, Nesting.not_mark_of_blank h]
    rfl
  refine tight_of_ends hsome ?_ ?_ <;> rw [← Bool.not_eq_true] <;> intro hblank
  · have hnone := hencloses [] _ _ (List.cons_head_tail hsome).symm hblank
    exact Bool.noConfusion ((hfree hblank).symm.trans hnone)
  · -- A blank at the end opens nothing, so the text before it is balanced as well.
    have hlast := List.dropLast_append_getLast hsome
    have hbefore : Nesting.start.after text.dropLast = Nesting.start := by
      have hend : Blank [text.getLast hsome] := List.forall_mem_singleton.mpr hblank
      rw [Text.Balanced, ← hlast, Nesting.after_append, Nesting.after_blank hend] at hbalanced
      exact hbalanced
    have hnone := hencloses _ _ [] hlast.symm hblank
    rw [hbefore] at hnone
    exact Bool.noConfusion ((hfree hblank).symm.trans hnone)

/-- There are no blanks around the words of a balanced text. -/
theorem words_tight (h : Text.Balanced text) : ∀ entry ∈ words text, Tight entry.2 := by
  intro entry hentry
  obtain ⟨hsome, hmem⟩ := mem_collect hentry
  obtain ⟨hbalanced, hbalancedOthers⟩ := @Nesting.balanced_parts isBlank .start text h
  obtain ⟨hencloses, henclosesOthers⟩ := Nesting.encloses_parts isBlank .start text
  rcases List.mem_cons.mp hmem with hfirst | hrest
  · exact tight_of_word hsome (hfirst ▸ hbalanced) (hfirst ▸ hencloses)
  · obtain ⟨part, hpart, heq⟩ := List.mem_map.mp hrest
    exact tight_of_word hsome (heq ▸ hbalancedOthers part hpart) (heq ▸ henclosesOthers part hpart)

end Collecting

section Joining

variable {word argument text : Text} {tail rest : List (Text × Text)}

/-- No argument ends between the two words. -/
def Continues (word next : Text) : Prop :=
  endsInOperator word = true ∨ isLoneOperator next = true

instance (word next : Text) : Decidable (Continues word next) :=
  inferInstanceAs (Decidable (_ ∨ _))

/-- An argument takes in the words that follow one another without an end of an argument between
them. -/
theorem join_words_append (h : (word :: tail.map Prod.snd).IsChain Continues) :
    joinWords argument (endsInOperator word) (tail ++ rest) =
      joinWords (argument ++ spelled tail) (endsInOperator ((tail.map Prod.snd).getLastD word))
        rest := by
  induction tail generalizing word argument with
  | nil =>
      rw [spelled, List.flatMap_nil, List.append_nil]
      rfl
  | cons next tail ih =>
      obtain ⟨hnext, hrest⟩ := List.isChain_cons_cons.mp h
      have hjoins : (endsInOperator word || isLoneOperator next.2) = true :=
        Bool.or_eq_true_iff.mpr hnext
      rw [List.cons_append, joinWords, if_pos hjoins, ih hrest, List.map_cons, List.getLastD_cons]
      simp [spelled]

/-- There are no blanks around an argument that is joined from words without blanks around them. -/
theorem join_words_tight {joining : Bool} (hargument : Tight argument)
    (hwords : ∀ entry ∈ rest, Tight entry.2) :
    ∀ found ∈ joinWords argument joining rest, Tight found := by
  induction rest generalizing argument joining with
  | nil => exact List.forall_mem_singleton.mpr hargument
  | cons next rest ih =>
      obtain ⟨hnext, hrest⟩ := List.forall_mem_cons.mp hwords
      rw [joinWords]
      split
      · exact ih (hargument.append hnext next.1) hrest
      · exact List.forall_mem_cons.mpr ⟨hargument, ih hnext hrest⟩

/-- There are no blanks around the arguments of a balanced text, and none of them is empty. -/
theorem spaced_tight (h : Text.Balanced text) : ∀ argument ∈ spaced text, Tight argument := by
  have hwords := words_tight h
  unfold spaced
  split
  · exact List.forall_mem_nil _
  · rename_i heq
    rw [heq] at hwords
    obtain ⟨hfirst, hrest⟩ := List.forall_mem_cons.mp hwords
    exact join_words_tight hfirst hrest

end Joining

section Separators

variable {text : Text} {pieces : List Text}

/-- Texts with commas between them are read back, when their quotes and parentheses are balanced and
enclose all of their commas. -/
theorem listed_join (hsome : pieces ≠ []) (htight : ∀ piece ∈ pieces, Tight piece)
    (h : ∀ piece ∈ pieces, Text.Balanced piece ∧ Text.Encloses ',' piece) :
    listed (join [',', ' '] pieces) = pieces := by
  obtain ⟨first, rest, rfl⟩ := List.exists_cons_of_ne_nil hsome
  obtain ⟨hfirst, hrest⟩ := List.forall_mem_cons.mp h
  have hblank (piece : Text) (hpiece : Text.Balanced piece ∧ Text.Encloses ',' piece) :
      Text.Balanced ([' '] ++ piece) ∧ Text.Encloses ',' ([' '] ++ piece) :=
    ⟨hpiece.1, Nesting.encloses_cons.mpr ⟨(nomatch ·), hpiece.2⟩⟩
  have hsplit : splitOutside ',' (join [','] (first :: rest.map ([' '] ++ ·))) =
      first :: rest.map ([' '] ++ ·) := by
    refine split_outside_join rfl (List.cons_ne_nil _ _) (List.forall_mem_cons.mpr ⟨hfirst, ?_⟩)
    exact List.forall_mem_map.mpr fun piece hmem ↦ hblank piece (hrest piece hmem)
  have htrim : ∀ piece ∈ rest, trim ([' '] ++ piece) = piece := fun piece hmem ↦
    (htight piece (List.mem_cons_of_mem _ hmem)).trimmed
  have hothers : (rest.map ([' '] ++ ·)).map trim = rest := by
    rw [List.map_map]
    exact (List.map_congr_left htrim).trans (List.map_id rest)
  rw [listed, join_cons_blanks, hsplit, List.map_cons, (htight first (.head _)).trimmed, hothers]

/-- The arguments that are read by commas are, with the commas, no longer than the text. -/
theorem length_listed_le (text : Text) :
    (Arguments.listed text).flatten.length + (Arguments.listed text).length ≤
      text.length + 1 := by
  have hlength := Nesting.length_glue (Nesting.cut (· == ',') .start text).1
    (Nesting.cut (· == ',') .start text).2
  have htrim := length_map_trim_le (splitOutside ',' text)
  rw [Nesting.glue_cut] at hlength
  rw [splitOutside] at htrim
  rw [Arguments.listed, splitOutside]
  simp only [List.length_map, List.length_cons] at hlength htrim ⊢
  omega

/-- The arguments of a text do not depend on the blanks around it. -/
theorem list_trim (text : Text) : list (trim text) = list text := by
  unfold list
  rw [trim_trim]

/-- A text without blanks around it and with commas outside its quotes and parentheses is read by
commas. -/
theorem list_of_commas (h : Tight text) (hmany : 1 < (listed text).length) :
    list text = listed text := by
  have hsome : text.isEmpty = false := List.isEmpty_eq_false_iff.mpr h.nonempty
  rw [list, h.trimmed, hsome, if_pos hmany]
  rfl

/-- A text without blanks around it that encloses all of its commas is read by blanks. -/
theorem list_of_encloses (h : Tight text) (hencloses : Text.Encloses ',' text) :
    list text = spaced text := by
  have hsome : text.isEmpty = false := List.isEmpty_eq_false_iff.mpr h.nonempty
  have hone : ¬ 1 < (listed text).length := by
    rw [listed, split_outside_of_encloses hencloses]
    exact Nat.lt_irrefl 1
  rw [list, h.trimmed, hsome, if_neg hone]
  rfl

/-- There are no blanks around the arguments of a balanced text that encloses all of its commas, and
none of them is empty. -/
theorem list_tight (h : Text.Balanced text) (hencloses : Text.Encloses ',' text) :
    ∀ argument ∈ list text, Tight argument := by
  by_cases hsome : trim text = []
  · unfold list
    rw [hsome]
    exact List.forall_mem_nil _
  · rw [← list_trim, list_of_encloses ⟨hsome, trim_trim text⟩ hencloses.trim]
    exact spaced_tight h.trim

end Separators

end PenScript.Arguments
