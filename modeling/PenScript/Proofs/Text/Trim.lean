import Mathlib.Data.List.DropRight
import PenScript.Text

/-!
# Blanks around a text

What trimming takes away of a text and what it leaves, for texts in pieces: blanks at the ends go,
and a word stays whole. The classes of characters are described by their codes.
-/

namespace PenScript

namespace Text

variable {before word text rest after : Text}

/-- The codes of the characters that a name may hold. -/
theorem name_char_iff (c : Char) : isNameChar c = true ↔
    (65 ≤ c.toNat ∧ c.toNat ≤ 90 ∨ 97 ≤ c.toNat ∧ c.toNat ≤ 122) ∨
      48 ≤ c.toNat ∧ c.toNat ≤ 57 ∨ c.toNat = 95 := by
  unfold isNameChar Char.isAlphanum Char.isAlpha Char.isUpper Char.isLower Char.isDigit
  simp [UInt32.le_iff_toNat_le, Char.ext_iff, ← UInt32.toNat_inj, or_assoc]

/-- Small letters have codes that are higher by 32 than those of the capitals. -/
theorem to_nat_lower (c : Char) :
    c.toLower.toNat = if 65 ≤ c.toNat ∧ c.toNat ≤ 90 then c.toNat + 32 else c.toNat := by
  have hcapital : (65 ≤ c.toNat ∧ c.toNat ≤ 90) ↔ c.val ≥ 'A'.val ∧ c.val ≤ 'Z'.val := by
    rw [ge_iff_le, UInt32.le_iff_toNat_le, UInt32.le_iff_toNat_le]
    rfl
  unfold Char.toLower
  by_cases h : c.val ≥ 'A'.val ∧ c.val ≤ 'Z'.val
  · obtain ⟨-, hle⟩ := hcapital.mpr h
    rw [dif_pos h, if_pos (hcapital.mpr h)]
    show (c.val + 32).toNat = c.val.toNat + 32
    have hcode : c.val.toNat ≤ 90 := hle
    have hdistance : (32 : UInt32).toNat = 32 := rfl
    rw [UInt32.toNat_add, hdistance]
    omega
  · rw [dif_neg h, if_neg (mt hcapital.mp h)]

/-- The letter case of a character does not matter for whether a name may hold it. -/
theorem name_char_lower (c : Char) : isNameChar c.toLower = isNameChar c := by
  rw [Bool.eq_iff_iff, name_char_iff, name_char_iff, to_nat_lower]
  split <;> omega

/-- A name holds no blanks. -/
theorem not_blank_of_name_char {c : Char} (h : isNameChar c = true) : isBlank c = false := by
  rw [name_char_iff] at h
  simp only [isBlank, Bool.or_eq_false_iff, Bool.and_eq_false_iff, beq_eq_false_iff_ne,
    decide_eq_false_iff_not]
  omega

/-- The text holds blanks only. -/
def Blank (text : Text) : Prop :=
  ∀ c ∈ text, isBlank c = true

instance (text : Text) : Decidable (Blank text) :=
  List.decidableBAll (fun c ↦ isBlank c = true) text

/-- The text holds name characters only. -/
def IsWord (text : Text) : Prop :=
  ∀ c ∈ text, isNameChar c = true

/-- A word is one in any letter case. -/
theorem IsWord.of_same_case (hword : IsWord word) (h : toLower text = toLower word) :
    IsWord text := by
  intro c hc
  have hlower : c.toLower ∈ toLower word := h ▸ List.mem_map_of_mem hc
  obtain ⟨d, hd, hsame⟩ := List.mem_map.mp hlower
  rw [← name_char_lower, ← hsame, name_char_lower]
  exact hword d hd

/-- A name may hold the characters that it may start with. -/
theorem name_char_of_name_start {c : Char} (h : isNameStart c = true) : isNameChar c = true := by
  rw [isNameStart, Bool.or_eq_true] at h
  rw [isNameChar, Bool.or_eq_true, Char.isAlphanum, Bool.or_eq_true]
  exact h.imp .inl id

/-- A name is a word, and not empty. -/
theorem word_of_identifier (h : isIdentifier word = true) : IsWord word ∧ word ≠ [] := by
  cases word with
  | nil => cases h
  | cons first rest =>
      rw [isIdentifier, Bool.and_eq_true, List.all_eq_true] at h
      obtain ⟨hfirst, hrest⟩ := h
      refine ⟨fun c hc ↦ ?_, List.cons_ne_nil first rest⟩
      rcases List.mem_cons.mp hc with rfl | hc
      · exact name_char_of_name_start hfirst
      · exact hrest c hc

/-- A text is empty in every letter case or in none. -/
theorem ne_nil_of_same_case (hsome : word ≠ []) (h : toLower text = toLower word) : text ≠ [] := by
  rintro rfl
  exact hsome (List.map_eq_nil_iff.mp h.symm)

/-- Blanks at the start of a text are trimmed away. -/
theorem trim_start_append (h : Blank before) (text : Text) :
    trimStart (before ++ text) = trimStart text :=
  List.dropWhile_append_of_pos h

/-- Blanks at the end of a text are trimmed away. -/
theorem trim_end_append (h : Blank after) (text : Text) :
    trimEnd (text ++ after) = trimEnd text := by
  unfold trimEnd
  rw [List.reverse_append,
    List.dropWhile_append_of_pos fun c hc ↦ h c (List.mem_reverse.mp hc)]

/-- Blanks around a text are trimmed away. -/
theorem trim_append (hbefore : Blank before) (hafter : Blank after) (text : Text) :
    trim (before ++ text ++ after) = trim text := by
  unfold trim
  rw [List.append_assoc, trim_start_append hbefore]
  unfold trimStart
  rw [List.dropWhile_append]
  split
  · -- Nothing but blanks is left, before and after the trimming.
    rename_i hempty
    have hblank : List.dropWhile isBlank after = [] := List.dropWhile_eq_nil_iff.mpr hafter
    rw [List.isEmpty_iff.mp hempty, hblank]
  · exact trim_end_append hafter _

/-- What follows a character that is no blank is trimmed alone at its end. -/
theorem trim_end_append_cons {c : Char} (h : isBlank c = false) (before rest : Text) :
    trimEnd (before ++ c :: rest) = before ++ c :: trimEnd rest := by
  unfold trimEnd
  rw [List.reverse_append, List.reverse_cons, List.dropWhile_append, List.dropWhile_append]
  have hstop : List.dropWhile isBlank [c] = [c] :=
    List.dropWhile_cons_of_neg (by rw [h]; exact Bool.false_ne_true)
  -- Read from the end, the character stops the blanks of the rest if they reach it.
  by_cases hempty : (List.dropWhile isBlank rest.reverse).isEmpty = true
  · rw [if_pos hempty, hstop, List.isEmpty_iff.mp hempty]
    simp
  · rw [if_neg hempty]
    simp

/-- What follows a text that does not end with a blank is trimmed alone at its end. -/
theorem trim_end_append_last (hsome : text ≠ []) (hlast : isBlank (text.getLast hsome) = false)
    (rest : Text) : trimEnd (text ++ rest) = text ++ trimEnd rest := by
  have htrim := trim_end_append_cons hlast text.dropLast rest
  rwa [← List.singleton_append, ← List.append_assoc, List.dropLast_append_getLast,
    ← List.singleton_append, ← List.append_assoc, List.dropLast_append_getLast] at htrim

/-- What is before a character that is no blank is trimmed alone at its start. -/
theorem trim_start_append_cons {c : Char} (h : isBlank c = false) (before rest : Text) :
    trimStart (before ++ c :: rest) = trimStart before ++ c :: rest := by
  unfold trimStart
  rw [List.dropWhile_append]
  split
  · rename_i hempty
    rw [List.isEmpty_iff.mp hempty, List.nil_append]
    exact List.dropWhile_cons_of_neg (by rw [h]; exact Bool.false_ne_true)
  · rfl

/-- What is around a text without blanks is trimmed alone. -/
theorem trim_around (hsome : text ≠ []) (h : ∀ c ∈ text, isBlank c = false) (before rest : Text) :
    trim (before ++ text ++ rest) = trimStart before ++ text ++ trimEnd rest := by
  have hlast := h _ (List.getLast_mem hsome)
  obtain ⟨first, others, rfl⟩ := List.exists_cons_of_ne_nil hsome
  have hend : trimStart before ++ first :: others ≠ [] := by simp
  rw [trim, List.append_assoc, List.cons_append,
    trim_start_append_cons (h first List.mem_cons_self), ← List.cons_append, ← List.append_assoc,
    trim_end_append_last hend (by rwa [List.getLast_append_of_ne_nil])]

/-- Nothing is left of blanks. -/
theorem trim_start_blank (h : Blank text) : trimStart text = [] :=
  List.dropWhile_eq_nil_iff.mpr h

/-- A text that is trimmed at its end is the start of the text. -/
theorem trim_end_prefix (text : Text) : trimEnd text <+: text := by
  rw [trimEnd, ← List.reverse_suffix, List.reverse_reverse]
  exact List.dropWhile_suffix isBlank

/-- A word at the start of a text is not trimmed. -/
theorem trim_word (hword : IsWord word) (hsome : word ≠ []) (rest : Text) :
    trim (word ++ rest) = word ++ trimEnd rest := by
  have hlast := not_blank_of_name_char (hword _ (List.getLast_mem hsome))
  obtain ⟨first, others, rfl⟩ := List.exists_cons_of_ne_nil hsome
  have hfirst := not_blank_of_name_char (hword first List.mem_cons_self)
  have hstart : trimStart (first :: others ++ rest) = first :: others ++ rest :=
    trim_start_append_cons hfirst [] (others ++ rest)
  rw [trim, hstart, trim_end_append_last hsome hlast]

/-- A text has blanks before what is left of it when it is trimmed at its start. -/
theorem exists_blanks_before (text : Text) :
    ∃ before, Blank before ∧ text = before ++ trimStart text :=
  ⟨text.takeWhile isBlank, fun _ hc ↦ List.mem_takeWhile_imp hc,
    List.takeWhile_append_dropWhile.symm⟩

/-- A text has blanks behind what is left of it when it is trimmed at its end. -/
theorem exists_blanks_after (text : Text) :
    ∃ after, Blank after ∧ text = trimEnd text ++ after := by
  refine ⟨(text.reverse.takeWhile isBlank).reverse,
    fun c hc ↦ List.mem_takeWhile_imp (List.mem_reverse.mp hc), ?_⟩
  rw [trimEnd, ← List.reverse_append, List.takeWhile_append_dropWhile, List.reverse_reverse]

/-- A text has blanks around what is left of it when it is trimmed. -/
theorem exists_blanks (text : Text) :
    ∃ before after, Blank before ∧ Blank after ∧ text = before ++ trim text ++ after := by
  obtain ⟨after, hafter, hend⟩ := exists_blanks_after (trimStart text)
  refine ⟨text.takeWhile isBlank, after, fun c hc ↦ List.mem_takeWhile_imp hc, hafter, ?_⟩
  rw [List.append_assoc, trim, ← hend]
  exact List.takeWhile_append_dropWhile.symm

/-- Texts that are trimmed to one at their ends are so behind a character. -/
theorem trim_end_cons_congr (h : trimEnd text = trimEnd rest) (c : Char) :
    trimEnd (c :: text) = trimEnd (c :: rest) := by
  have htrim (text : Text) : trimEnd (c :: text) = trimEnd (c :: trimEnd text) := by
    obtain ⟨after, hafter, htext⟩ := exists_blanks_after text
    conv_lhs => rw [htext, ← List.cons_append, trim_end_append hafter]
  rw [htrim text, h, ← htrim rest]

/-- Trimming the end of a text first changes nothing. -/
theorem trim_trim_end (text : Text) : trim (trimEnd text) = trim text := by
  obtain ⟨after, hafter, htext⟩ := exists_blanks_after text
  have hblank := trim_append (List.forall_mem_nil _) hafter (trimEnd text)
  rw [List.nil_append, ← htext] at hblank
  exact hblank.symm

/-- Trimming the start of a text first changes nothing. -/
theorem trim_trim_start (text : Text) : trim (trimStart text) = trim text := by
  rw [trim, trimStart, trimStart, List.dropWhile_idempotent]
  rfl

/-- A text that is trimmed stays as it is. -/
theorem trim_trim (text : Text) : trim (trim text) = trim text :=
  (trim_trim_end (trimStart text)).trans (trim_trim_start text)

/-- A text is blank when trimming leaves nothing of it. -/
theorem blank_of_trim (h : trim text = []) : Blank text := by
  obtain ⟨before, after, hbefore, hafter, htext⟩ := exists_blanks text
  rw [h, List.append_nil] at htext
  rw [htext]
  exact List.forall_mem_append.mpr ⟨hbefore, hafter⟩

/-- A blank in front of a text is trimmed away. -/
theorem trim_cons_blank (text : Text) : trim (' ' :: text) = trim text :=
  rfl

/-- A text of blanks is one, and any other text has a character in it that is none. -/
theorem blank_or_split (text : Text) :
    Blank text ∨ ∃ before c rest, text = before ++ c :: rest ∧ isBlank c = false := by
  by_cases h : Blank text
  · exact .inl h
  · simp only [Blank, not_forall, Bool.not_eq_true] at h
    obtain ⟨c, hmem, hc⟩ := h
    obtain ⟨before, rest, htext⟩ := List.append_of_mem hmem
    exact .inr ⟨before, c, rest, htext, hc⟩

/-- The two ends of a text are trimmed in either order. -/
theorem trim_start_trim_end (text : Text) : trimStart (trimEnd text) = trim text := by
  rcases blank_or_split text with hblank | ⟨before, c, rest, rfl, hc⟩
  · have hend : trimEnd text = [] := by
      have hnone := trim_end_append hblank []
      rwa [List.nil_append] at hnone
    rw [hend, trim, trim_start_blank hblank]
    rfl
  · rw [trim_end_append_cons hc, trim_start_append_cons hc, trim, trim_start_append_cons hc,
      trim_end_append_cons hc]

/-- A text that is trimmed at its end stays as it is. -/
theorem trim_end_idempotent (text : Text) : trimEnd (trimEnd text) = trimEnd text := by
  unfold trimEnd
  rw [List.reverse_reverse, List.dropWhile_idempotent]

/-- Trimming makes no text longer. -/
theorem length_trim_le (text : Text) : (trim text).length ≤ text.length := by
  obtain ⟨before, after, -, -, htext⟩ := exists_blanks text
  have hlength := congrArg List.length htext
  rw [List.length_append, List.length_append] at hlength
  omega

/-- Trimming makes no list of texts longer. -/
theorem length_map_trim_le (pieces : List Text) :
    (pieces.map trim).flatten.length ≤ pieces.flatten.length := by
  induction pieces with
  | nil => exact Nat.le_refl 0
  | cons piece rest ih =>
      have hpiece := length_trim_le piece
      simp only [List.map_cons, List.flatten_cons, List.length_append]
      omega

/-- A character that is no blank is in a text if it is in the trimmed one. -/
theorem mem_trim {c : Char} (h : isBlank c = false) : c ∈ trim text ↔ c ∈ text := by
  obtain ⟨before, after, hbefore, hafter, htext⟩ := exists_blanks text
  have hnone {blanks : Text} (hblank : Blank blanks) : c ∉ blanks :=
    fun hmem ↦ Bool.noConfusion ((hblank c hmem).symm.trans h)
  constructor <;> intro hmem
  · rw [htext]
    exact List.mem_append_left _ (List.mem_append_right _ hmem)
  · rw [htext] at hmem
    rcases List.mem_append.mp hmem with hmem | hmem
    · exact (List.mem_append.mp hmem).resolve_left (hnone hbefore)
    · exact absurd hmem (hnone hafter)

/-- A last character that is there can be taken away. -/
theorem drop_last_concat (text : Text) (c : Char) : dropLast? c (text ++ [c]) = some text := by
  rw [dropLast?, List.getLast?_concat, if_pos rfl, List.dropLast_concat]

/-- The text is not empty and has no blanks around it. -/
structure Tight (text : Text) : Prop where
  nonempty : text ≠ []
  trimmed : trim text = text

instance (text : Text) : Decidable (Tight text) :=
  decidable_of_iff (text ≠ [] ∧ trim text = text) ⟨fun h ↦ ⟨h.1, h.2⟩, fun h ↦ ⟨h.1, h.2⟩⟩

section Tight

variable {left right : Text} {pieces : List Text}

/-- A text is tight when no blank is first or last in it. -/
theorem tight_of_ends (hsome : text ≠ []) (hfirst : isBlank (text.head hsome) = false)
    (hlast : isBlank (text.getLast hsome) = false) : Tight text := by
  refine ⟨hsome, ?_⟩
  obtain ⟨first, rest, rfl⟩ := List.exists_cons_of_ne_nil hsome
  have hstart : trimStart (first :: rest) = first :: rest :=
    List.dropWhile_cons_of_neg (Bool.not_eq_true _ ▸ hfirst)
  rw [trim, hstart]
  exact List.rdropWhile_eq_self_iff.mpr fun _ ↦ Bool.not_eq_true _ ▸ hlast

/-- There are no blanks at the end of a tight text. -/
theorem Tight.trim_end (h : Tight text) : trimEnd text = text := by
  rw [← h.trimmed]
  exact trim_end_idempotent (trimStart text)

/-- There are no blanks at the start of a tight text. -/
theorem Tight.trim_start (h : Tight text) : trimStart text = text := by
  have hboth := trim_start_trim_end text
  rwa [h.trim_end, h.trimmed] at hboth

/-- No blank is first in a tight text. -/
theorem Tight.head (h : Tight text) : isBlank (text.head h.nonempty) = false := by
  obtain ⟨first, rest, rfl⟩ := List.exists_cons_of_ne_nil h.nonempty
  have hstart := List.dropWhile_eq_self_iff.mp h.trim_start (Nat.succ_pos _)
  exact (Bool.not_eq_true _).mp hstart

/-- No blank is last in a tight text. -/
theorem Tight.last (h : Tight text) : isBlank (text.getLast h.nonempty) = false :=
  (Bool.not_eq_true _).mp (List.rdropWhile_eq_self_iff.mp h.trim_end h.nonempty)

/-- Blanks in front of a tight text are all that is trimmed away. -/
theorem Tight.trim_blanks (h : Tight text) (hbefore : Blank before) :
    trim (before ++ text) = text := by
  have htrim := trim_append hbefore (List.forall_mem_nil _) text
  rwa [List.append_nil, h.trimmed] at htrim

/-- A text is tight when it starts and ends with tight ones. -/
theorem Tight.append (hleft : Tight left) (hright : Tight right) (between : Text) :
    Tight (left ++ between ++ right) := by
  have hstart : left ++ between ≠ [] := List.append_ne_nil_of_left_ne_nil hleft.nonempty _
  refine tight_of_ends (List.append_ne_nil_of_left_ne_nil hstart _) ?_ ?_
  · rw [List.head_append_of_ne_nil hstart, List.head_append_of_ne_nil hleft.nonempty]
    exact hleft.head
  · rw [List.getLast_append_of_ne_nil _ hright.nonempty]
    exact hright.last

/-- Tight pieces are joined to a tight text. -/
theorem Tight.join (hsome : pieces ≠ []) (h : ∀ piece ∈ pieces, Tight piece) (separator : Text) :
    Tight (join separator pieces) := by
  induction pieces with
  | nil => exact absurd rfl hsome
  | cons piece rest ih =>
      obtain ⟨hpiece, hrest⟩ := List.forall_mem_cons.mp h
      cases rest with
      | nil => rwa [Text.join, List.intercalate_singleton]
      | cons next rest =>
          rw [Text.join, List.intercalate_cons_cons]
          exact hpiece.append (ih (List.cons_ne_nil _ _) hrest) separator

end Tight

end Text

end PenScript
