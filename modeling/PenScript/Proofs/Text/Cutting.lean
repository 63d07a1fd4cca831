import PenScript.Nesting
import PenScript.Proofs.Text.Trim

/-!
# Cutting a text

`Nesting.cut` takes a text apart at those characters of a class that stand outside quotes and
parentheses. Everything about it follows from two equations: a text with no such character is left
whole (`Nesting.cut_of_encloses`), and cutting at one of them leaves the parts of what is before it
and of what is after it (`Nesting.cut_append`). So a text that is joined from pieces is cut into
these pieces again (`Text.split_outside_join`).
-/

namespace PenScript

namespace Nesting

variable {isCut : Char → Bool} {nesting : Nesting} {left right text rest before after : Text}
  {c : Char}

/-- A character that is no mark changes nothing. -/
theorem next_of_not_mark (h : isMark c = false) (nesting : Nesting) : nesting.next c = nesting := by
  simp only [isMark, Bool.or_eq_false_iff, beq_eq_false_iff_ne, ne_eq] at h
  simp [next, h]

/-- A free character changes nothing. -/
theorem next_of_free (h : nesting.isFree c = true) : nesting.next c = nesting := by
  refine next_of_not_mark ?_ nesting
  rw [isFree, Bool.and_eq_true, Bool.not_eq_true'] at h
  exact h.2

/-- Blanks are no marks. -/
theorem not_mark_of_blank (h : Text.isBlank c = true) : isMark c = false := by
  rw [isMark, Bool.or_eq_false_iff, Bool.or_eq_false_iff, beq_eq_false_iff_ne, beq_eq_false_iff_ne,
    beq_eq_false_iff_ne]
  refine ⟨⟨?_, ?_⟩, ?_⟩ <;> rintro rfl <;> cases h

/-- What is open after two texts. -/
theorem after_append (nesting : Nesting) (left right : Text) :
    nesting.after (left ++ right) = (nesting.after left).after right :=
  List.foldl_append

/-- What is open after a text that starts with a character. -/
theorem after_cons (nesting : Nesting) (c : Char) (rest : Text) :
    nesting.after (c :: rest) = (nesting.next c).after rest :=
  rfl

/-- Nothing is open at one place only, which is that at the start. -/
theorem is_outside_iff : nesting.isOutside = true ↔ nesting = start := by
  obtain ⟨depth, quoted⟩ := nesting
  simp [isOutside, start]

/-- Characters of the class stand inside quotes or parentheses only. -/
def Encloses (isCut : Char → Bool) (nesting : Nesting) (text : Text) : Prop :=
  ∀ before c rest, text = before ++ c :: rest → isCut c = true →
    (nesting.after before).isFree c = false

/-- All of a text that starts with a character is enclosed, when that character and the rest are. -/
theorem encloses_cons : Encloses isCut nesting (c :: rest) ↔
    (isCut c = true → nesting.isFree c = false) ∧ Encloses isCut (nesting.next c) rest := by
  constructor
  · refine fun h ↦ ⟨h [] c rest rfl, fun before d others htext hcut ↦ ?_⟩
    exact h (c :: before) d others (congrArg (c :: ·) htext) hcut
  · rintro ⟨hfirst, hrest⟩ before d others htext hcut
    cases before with
    | nil =>
        obtain ⟨rfl, -⟩ := List.cons.inj htext
        exact hfirst hcut
    | cons e before =>
        obtain ⟨rfl, hothers⟩ := List.cons.inj htext
        exact hrest before d others hothers hcut

/-- What is enclosed in two texts one after the other. -/
theorem encloses_append : Encloses isCut nesting (left ++ right) ↔
    Encloses isCut nesting left ∧ Encloses isCut (nesting.after left) right := by
  induction left generalizing nesting with
  | nil => exact ⟨fun h ↦ ⟨fun before _ _ htext ↦ by simp at htext, h⟩, And.right⟩
  | cons c left ih => rw [List.cons_append, encloses_cons, encloses_cons, ih, after_cons, and_assoc]

/-- Blanks open and close nothing. -/
theorem after_blank (h : text.Blank) (nesting : Nesting) : nesting.after text = nesting := by
  induction text with
  | nil => rfl
  | cons c rest ih =>
      obtain ⟨hfirst, hrest⟩ := List.forall_mem_cons.mp h
      rw [after_cons, next_of_not_mark (not_mark_of_blank hfirst), ih hrest]

/-- What is open after a text does not depend on the blanks at its start. -/
theorem after_trim_start (nesting : Nesting) (text : Text) :
    nesting.after text.trimStart = nesting.after text := by
  obtain ⟨before, hbefore, htext⟩ := Text.exists_blanks_before text
  conv_rhs => rw [htext, after_append, after_blank hbefore]

/-- Nothing is cut that was enclosed before the blanks at the start were trimmed away. -/
theorem encloses_trim_start (h : Encloses isCut nesting text) :
    Encloses isCut nesting text.trimStart := by
  obtain ⟨before, hbefore, htext⟩ := Text.exists_blanks_before text
  rw [htext] at h
  have hrest := (encloses_append.mp h).2
  rwa [after_blank hbefore] at hrest

/-- A cut at the first character. -/
theorem cut_cons_of_free (hfree : nesting.isFree c = true) (hcut : isCut c = true) :
    cut isCut nesting (c :: rest) =
      ([], (c, (cut isCut nesting rest).1) :: (cut isCut nesting rest).2) := by
  rw [cut, hfree, hcut]
  rfl

/-- No cut at the first character. -/
theorem cut_cons_of_not_free (h : (nesting.isFree c && isCut c) = false) :
    cut isCut nesting (c :: rest) =
      (c :: (cut isCut (nesting.next c) rest).1, (cut isCut (nesting.next c) rest).2) := by
  rw [cut, h]
  rfl

/-- A text is left whole when all that it could be cut at is enclosed. -/
theorem cut_of_encloses (h : Encloses isCut nesting text) :
    cut isCut nesting text = (text, []) := by
  induction text generalizing nesting with
  | nil => rfl
  | cons c rest ih =>
      obtain ⟨hfirst, hrest⟩ := encloses_cons.mp h
      have hnone : (nesting.isFree c && isCut c) = false := by
        cases hcut : isCut c with
        | false => exact Bool.and_false _
        | true => rw [hfirst hcut, Bool.false_and]
      rw [cut_cons_of_not_free hnone, ih hrest]

/-- A text is cut at a free character into the parts of what is before it and those of what is after
it. -/
theorem cut_append (hfree : (nesting.after left).isFree c = true) (hcut : isCut c = true) :
    cut isCut nesting (left ++ c :: right) =
      ((cut isCut nesting left).1, (cut isCut nesting left).2 ++
        (c, (cut isCut (nesting.after left) right).1) ::
          (cut isCut (nesting.after left) right).2) := by
  induction left generalizing nesting with
  | nil => exact cut_cons_of_free hfree hcut
  | cons d left ih =>
      rw [List.cons_append]
      cases hfirst : nesting.isFree d && isCut d with
      | false =>
          rw [cut_cons_of_not_free hfirst, cut_cons_of_not_free hfirst, ih hfree]
          rfl
      | true =>
          obtain ⟨hdfree, hdcut⟩ := Bool.and_eq_true_iff.mp hfirst
          have hsame : nesting.after (d :: left) = nesting.after left := by
            rw [after_cons, next_of_free hdfree]
          rw [hsame] at hfree ⊢
          rw [cut_cons_of_free hdfree hdcut, cut_cons_of_free hdfree hdcut, ih hfree]
          rfl

/-- Whether a text encloses all that it could be cut at is told by cutting it. -/
theorem encloses_iff : Encloses isCut nesting text ↔ (cut isCut nesting text).2 = [] := by
  refine ⟨fun h ↦ by rw [cut_of_encloses h], fun h before c rest htext hcut ↦ ?_⟩
  rw [← Bool.not_eq_true]
  intro hfree
  rw [htext, cut_append hfree hcut] at h
  simp at h

/-- Blanks in front of a text belong to its first part. -/
theorem cut_blanks_append (hblank : ∀ c, Text.isBlank c = true → isCut c = false)
    (hbefore : before.Blank) : cut isCut nesting (before ++ text) =
      (before ++ (cut isCut nesting text).1, (cut isCut nesting text).2) := by
  induction before with
  | nil => rfl
  | cons c before ih =>
      obtain ⟨hfirst, hrest⟩ := List.forall_mem_cons.mp hbefore
      rw [List.cons_append, cut_cons_of_not_free (by rw [hblank c hfirst, Bool.and_false]),
        next_of_not_mark (not_mark_of_blank hfirst), ih hrest]
      rfl

/-- Blanks behind a text belong to its last part. -/
theorem cut_append_blanks (hblank : ∀ c, Text.isBlank c = true → isCut c = false)
    (hafter : after.Blank) :
    Text.trimEnd (cut isCut nesting (text ++ after)).1 = Text.trimEnd (cut isCut nesting text).1 ∧
      (cut isCut nesting (text ++ after)).2.map (fun part ↦ Text.trimEnd part.2) =
        (cut isCut nesting text).2.map fun part ↦ Text.trimEnd part.2 := by
  induction text generalizing nesting with
  | nil =>
      have hwhole : cut isCut nesting (after ++ []) = (after ++ [], []) :=
        cut_blanks_append hblank hafter
      rw [List.append_nil] at hwhole
      rw [List.nil_append, hwhole]
      exact ⟨Text.trim_end_append hafter [], rfl⟩
  | cons c rest ih =>
      rw [List.cons_append]
      cases hfirst : nesting.isFree c && isCut c with
      | true =>
          obtain ⟨hfree, hcut⟩ := Bool.and_eq_true_iff.mp hfirst
          obtain ⟨hpart, hothers⟩ := @ih nesting
          rw [cut_cons_of_free hfree hcut, cut_cons_of_free hfree hcut]
          exact ⟨rfl, congrArg₂ List.cons hpart hothers⟩
      | false =>
          obtain ⟨hpart, hothers⟩ := @ih (nesting.next c)
          rw [cut_cons_of_not_free hfirst, cut_cons_of_not_free hfirst]
          exact ⟨Text.trim_end_cons_congr hpart c, hothers⟩

/-- The text whose parts these are. -/
def glue (first : Text) (others : List (Char × Text)) : Text :=
  first ++ others.flatMap fun (c, part) ↦ c :: part

/-- The parts of a text make it up. -/
theorem glue_cut (isCut : Char → Bool) (nesting : Nesting) (text : Text) :
    glue (cut isCut nesting text).1 (cut isCut nesting text).2 = text := by
  induction text generalizing nesting with
  | nil => rfl
  | cons c rest ih =>
      cases hfirst : nesting.isFree c && isCut c with
      | true =>
          obtain ⟨hfree, hcut⟩ := Bool.and_eq_true_iff.mp hfirst
          rw [cut_cons_of_free hfree hcut]
          exact congrArg (c :: ·) (ih nesting)
      | false =>
          rw [cut_cons_of_not_free hfirst]
          exact congrArg (c :: ·) (ih (nesting.next c))

/-- A text is cut at characters of the class. -/
theorem cut_char (isCut : Char → Bool) (nesting : Nesting) (text : Text) :
    ∀ part ∈ (cut isCut nesting text).2, isCut part.1 = true := by
  induction text generalizing nesting with
  | nil => exact List.forall_mem_nil _
  | cons c rest ih =>
      cases hfirst : nesting.isFree c && isCut c with
      | true =>
          obtain ⟨hfree, hcut⟩ := Bool.and_eq_true_iff.mp hfirst
          rw [cut_cons_of_free hfree hcut]
          exact List.forall_mem_cons.mpr ⟨hcut, ih nesting⟩
      | false =>
          rw [cut_cons_of_not_free hfirst]
          exact ih (nesting.next c)

/-- Parts and the characters between them are as long as the text that they make up. -/
theorem length_glue (first : Text) (others : List (Char × Text)) :
    (glue first others).length =
      (first :: others.map (·.2)).flatten.length + others.length := by
  induction others generalizing first with
  | nil => simp [glue]
  | cons part others ih =>
      have hrest := ih part.2
      simp only [glue, List.flatMap_cons, List.map_cons, List.flatten_cons,
        List.length_append, List.length_cons] at hrest ⊢
      omega

/-- The first part has a character when the first one of the text is not cut at. -/
theorem first_of_cut (h : isCut c = false) : (cut isCut nesting (c :: rest)).1 ≠ [] := by
  rw [cut_cons_of_not_free (by rw [h, Bool.and_false])]
  exact List.cons_ne_nil _ _

/-- The last part has a character when the last one of the text is not cut at. -/
theorem last_of_cut (hsome : text ≠ []) (hlast : isCut (text.getLast hsome) = false) :
    ((cut isCut nesting text).2.map Prod.snd).getLastD (cut isCut nesting text).1 ≠ [] := by
  induction text generalizing nesting with
  | nil => exact absurd rfl hsome
  | cons c rest ih =>
      cases rest with
      | nil =>
          rw [List.getLast_singleton] at hlast
          rw [cut_cons_of_not_free (by rw [hlast, Bool.and_false])]
          exact List.cons_ne_nil _ _
      | cons d rest =>
          rw [List.getLast_cons_cons] at hlast
          have hrest (nesting : Nesting) := @ih nesting (List.cons_ne_nil _ _) hlast
          cases hfirst : nesting.isFree c && isCut c with
          | true =>
              obtain ⟨hfree, hcut⟩ := Bool.and_eq_true_iff.mp hfirst
              rw [cut_cons_of_free hfree hcut, List.map_cons, List.getLastD_cons]
              exact hrest nesting
          | false =>
              rw [cut_cons_of_not_free hfirst]
              have hparts := hrest (nesting.next c)
              cases hothers : (cut isCut (nesting.next c) (d :: rest)).2 with
              | nil => exact List.cons_ne_nil _ _
              | cons part others =>
                  rw [hothers, List.map_cons, List.getLastD_cons] at hparts
                  rwa [List.map_cons, List.getLastD_cons]

/-- The parts of a text enclose all that they could be cut at. -/
theorem encloses_parts (isCut : Char → Bool) (nesting : Nesting) (text : Text) :
    Encloses isCut nesting (cut isCut nesting text).1 ∧
      ∀ part ∈ (cut isCut nesting text).2, Encloses isCut start part.2 := by
  induction text generalizing nesting with
  | nil => exact ⟨encloses_iff.mpr rfl, List.forall_mem_nil _⟩
  | cons c rest ih =>
      cases hfirst : nesting.isFree c && isCut c with
      | true =>
          obtain ⟨hfree, hcut⟩ := Bool.and_eq_true_iff.mp hfirst
          -- Where a text is cut nothing is open, so what follows is read as from the start.
          have hstart : nesting = start := is_outside_iff.mp (Bool.and_eq_true_iff.mp hfree).1
          rw [cut_cons_of_free hfree hcut, hstart]
          exact ⟨encloses_iff.mpr rfl, List.forall_mem_cons.mpr (ih start)⟩
      | false =>
          obtain ⟨hencloses, hothers⟩ := ih (nesting.next c)
          rw [cut_cons_of_not_free hfirst]
          refine ⟨encloses_cons.mpr ⟨fun hcut ↦ ?_, hencloses⟩, hothers⟩
          rwa [hcut, Bool.and_true] at hfirst

/-- The parts of a balanced text are balanced. -/
theorem balanced_parts (h : nesting.after text = start) :
    nesting.after (cut isCut nesting text).1 = start ∧
      ∀ part ∈ (cut isCut nesting text).2, start.after part.2 = start := by
  induction text generalizing nesting with
  | nil => exact ⟨h, List.forall_mem_nil _⟩
  | cons c rest ih =>
      have hrest := ih h
      cases hfirst : nesting.isFree c && isCut c with
      | true =>
          obtain ⟨hfree, hcut⟩ := Bool.and_eq_true_iff.mp hfirst
          have hstart : nesting = start := is_outside_iff.mp (Bool.and_eq_true_iff.mp hfree).1
          rw [next_of_free hfree, hstart] at hrest
          rw [cut_cons_of_free hfree hcut, hstart]
          exact ⟨rfl, List.forall_mem_cons.mpr hrest⟩
      | false =>
          rw [cut_cons_of_not_free hfirst]
          exact hrest

end Nesting

namespace Text

variable {separator : Char} {pieces : List Text}

/-- All quotes and parentheses that are opened in the text are closed in it. A parenthesis may be
closed before it is opened. -/
def Balanced (text : Text) : Prop :=
  Nesting.start.after text = Nesting.start

/-- The separator stands inside quotes and parentheses of the text only. -/
def Encloses (separator : Char) (text : Text) : Prop :=
  Nesting.Encloses (· == separator) Nesting.start text

instance (text : Text) : Decidable (Balanced text) :=
  inferInstanceAs (Decidable (_ = _))

instance (separator : Char) (text : Text) : Decidable (Encloses separator text) :=
  decidable_of_iff _ Nesting.encloses_iff.symm

/-- The blanks around a balanced text do not matter, nor do those around what it encloses. -/
theorem Balanced.trim {text : Text} (h : Balanced text) : Balanced (trim text) := by
  obtain ⟨before, after, hbefore, hafter, htext⟩ := exists_blanks text
  rw [Balanced, htext, Nesting.after_append, Nesting.after_append, Nesting.after_blank hbefore,
    Nesting.after_blank hafter] at h
  exact h

theorem Encloses.trim {text : Text} (h : Encloses separator text) :
    Encloses separator (trim text) := by
  obtain ⟨before, after, hbefore, -, htext⟩ := exists_blanks text
  rw [Encloses, htext, Nesting.encloses_append, Nesting.encloses_append,
    Nesting.after_blank hbefore] at h
  exact h.1.2

/-- A text without the separator outside quotes and parentheses is one part. -/
theorem split_outside_of_encloses {text : Text} (h : Encloses separator text) :
    splitOutside separator text = [text] := by
  rw [splitOutside, Nesting.cut_of_encloses h]
  rfl

/-- The parts of a text that starts with a balanced piece and the separator are this piece and the
parts of the rest. -/
theorem split_outside_cons (hmark : Nesting.isMark separator = false) {piece : Text}
    (hbalanced : Balanced piece) (hencloses : Encloses separator piece) (rest : Text) :
    splitOutside separator (piece ++ separator :: rest) = piece :: splitOutside separator rest := by
  have hfree : (Nesting.start.after piece).isFree separator = true := by
    rw [hbalanced, Nesting.isFree, hmark]
    rfl
  have hcut := @Nesting.cut_append (· == separator) Nesting.start piece rest separator hfree
    (beq_self_eq_true separator)
  rw [splitOutside, hcut, Nesting.cut_of_encloses hencloses, hbalanced]
  rfl

/-- The blanks around a text do not matter for what its parts are without blanks around them. -/
theorem map_trim_split_outside (hseparator : isBlank separator = false) {before text after : Text}
    (hbefore : Blank before) (hafter : Blank after) :
    (splitOutside separator (before ++ text ++ after)).map trim =
      (splitOutside separator text).map trim := by
  have hblank : ∀ c, isBlank c = true → (c == separator) = false := by
    intro c hc
    rw [beq_eq_false_iff_ne]
    rintro rfl
    cases hc.symm.trans hseparator
  have htrim {part other : Text} (h : trimEnd part = trimEnd other) : trim part = trim other := by
    rw [← trim_trim_end, h, trim_trim_end]
  obtain ⟨hfirst, hothers⟩ := @Nesting.cut_append_blanks (· == separator) Nesting.start text after
    hblank hafter
  rw [List.append_assoc, splitOutside, splitOutside, Nesting.cut_blanks_append hblank hbefore]
  simp only [List.map_cons, List.map_map]
  refine congrArg₂ List.cons ?_ ?_
  · rw [trim, trim_start_append hbefore]
    exact htrim hfirst
  · have hparts := congrArg (List.map trim) hothers
    simpa only [List.map_map, Function.comp_def, trim_trim_end] using hparts

/-- One piece is joined to nothing. -/
theorem join_singleton (separator piece : Text) : join separator [piece] = piece :=
  List.intercalate_singleton

/-- The first of several pieces is joined to the others by the separator. -/
theorem join_cons_cons (separator piece next : Text) (rest : List Text) :
    join separator (piece :: next :: rest) = piece ++ separator ++ join separator (next :: rest) :=
  List.intercalate_cons_cons

/-- Parts with the separator between them are joined by it to the text that they make up. -/
theorem join_eq_glue {others : List (Char × Text)} (h : ∀ other ∈ others, other.1 = separator)
    (first : Text) :
    join [separator] (first :: others.map (·.2)) = Nesting.glue first others := by
  induction others generalizing first with
  | nil => simp [join_singleton, Nesting.glue]
  | cons other others ih =>
      obtain ⟨hother, hothers⟩ := List.forall_mem_cons.mp h
      rw [List.map_cons, join_cons_cons, ih hothers, ← hother]
      simp [Nesting.glue]

/-- A text is joined from its parts. -/
theorem join_split_outside (separator : Char) (text : Text) :
    join [separator] (splitOutside separator text) = text := by
  have hchars : ∀ other ∈ (Nesting.cut (· == separator) .start text).2, other.1 = separator :=
    fun other hother ↦ beq_iff_eq.mp (Nesting.cut_char _ _ text other hother)
  rw [splitOutside, join_eq_glue hchars, Nesting.glue_cut]

/-- No part of a text can be split further. -/
theorem split_outside_part {text part : Text} (h : part ∈ splitOutside separator text) :
    splitOutside separator part = [part] := by
  obtain ⟨hfirst, hothers⟩ := Nesting.encloses_parts (· == separator) .start text
  rcases List.mem_cons.mp h with rfl | hrest
  · exact split_outside_of_encloses hfirst
  · obtain ⟨other, hother, rfl⟩ := List.mem_map.mp hrest
    exact split_outside_of_encloses (hothers other hother)

/-- What is in a piece is in the text that it is joined to. -/
theorem mem_join_of_mem {separator piece : Text} {c : Char} (hpiece : piece ∈ pieces)
    (hc : c ∈ piece) : c ∈ join separator pieces := by
  induction pieces with
  | nil => cases hpiece
  | cons first rest ih =>
      cases rest with
      | nil =>
          obtain rfl := List.mem_singleton.mp hpiece
          rwa [join_singleton]
      | cons next rest =>
          rw [join_cons_cons]
          rcases List.mem_cons.mp hpiece with rfl | hrest
          · exact List.mem_append_left _ (List.mem_append_left _ hc)
          · exact List.mem_append_right _ (ih hrest)

/-- What is in a text that is joined, and not in the separator, is in a piece. -/
theorem exists_mem_of_mem_join {separator : Text} {c : Char} (hc : c ∉ separator)
    (h : c ∈ join separator pieces) : ∃ piece ∈ pieces, c ∈ piece := by
  induction pieces with
  | nil => cases h
  | cons first rest ih =>
      cases rest with
      | nil => exact ⟨first, List.mem_cons_self, join_singleton separator first ▸ h⟩
      | cons next rest =>
          rw [join_cons_cons] at h
          rcases List.mem_append.mp h with hfront | hrest
          · exact ⟨first, List.mem_cons_self, (List.mem_append.mp hfront).resolve_right hc⟩
          · obtain ⟨piece, hpiece, hmem⟩ := ih hrest
            exact ⟨piece, List.mem_cons_of_mem first hpiece, hmem⟩

/-- Pieces and the characters between them are as long as the text that they are joined to. -/
theorem length_join (hsome : pieces ≠ []) (c : Char) :
    (join [c] pieces).length + 1 = pieces.flatten.length + pieces.length := by
  induction pieces with
  | nil => exact absurd rfl hsome
  | cons piece rest ih =>
      cases rest with
      | nil => simp [join_singleton]
      | cons next rest =>
          have hrest := ih (List.cons_ne_nil _ _)
          simp only [join_cons_cons, List.flatten_cons, List.length_append, List.length_cons,
            List.length_nil] at hrest ⊢
          omega

/-- A text starts as the first of the texts that it is joined from. -/
theorem head_join (hsome : pieces ≠ []) (hfirst : pieces.head hsome ≠ [])
    (separator : Text) : (join separator pieces).head? = (pieces.head hsome).head? := by
  obtain ⟨first, rest, rfl⟩ := List.exists_cons_of_ne_nil hsome
  cases rest with
  | nil => rw [join_singleton, List.head_cons]
  | cons next rest =>
      obtain ⟨c, others, hcons⟩ := List.exists_cons_of_ne_nil hfirst
      rw [List.head_cons] at hcons ⊢
      rw [join_cons_cons, hcons]
      rfl

/-- A text that is joined from balanced pieces is balanced. -/
theorem Balanced.join {separator : Text} (hseparator : Balanced separator)
    (hpieces : ∀ piece ∈ pieces, Balanced piece) : Balanced (join separator pieces) := by
  induction pieces with
  | nil => rfl
  | cons piece rest ih =>
      obtain ⟨hpiece, hrest⟩ := List.forall_mem_cons.mp hpieces
      cases rest with
      | nil => rwa [join_singleton]
      | cons next rest =>
          rw [join_cons_cons, Balanced, Nesting.after_append, Nesting.after_append, hpiece,
            hseparator]
          exact ih hrest

/-- What balanced pieces and the text between them enclose is enclosed in the text that they are
joined to. -/
theorem Encloses.join {between : Text} (hbalanced : Balanced between)
    (hbetween : Encloses separator between)
    (hpieces : ∀ piece ∈ pieces, Balanced piece ∧ Encloses separator piece) :
    Encloses separator (join between pieces) := by
  induction pieces with
  | nil => exact Nesting.encloses_iff.mpr rfl
  | cons piece rest ih =>
      obtain ⟨⟨hpiece, hencloses⟩, hrest⟩ := List.forall_mem_cons.mp hpieces
      cases rest with
      | nil => rwa [join_singleton]
      | cons next rest =>
          rw [join_cons_cons, Encloses, Nesting.encloses_append, Nesting.encloses_append,
            Nesting.after_append, hpiece, hbalanced]
          exact ⟨⟨hencloses, hbetween⟩, ih hrest⟩

/-- A text that is joined from balanced pieces is split into them again, when the separator stands
inside their quotes and parentheses only. -/
theorem split_outside_join (hmark : Nesting.isMark separator = false) (hsome : pieces ≠ [])
    (hpieces : ∀ piece ∈ pieces, Balanced piece ∧ Encloses separator piece) :
    splitOutside separator (join [separator] pieces) = pieces := by
  induction pieces with
  | nil => exact absurd rfl hsome
  | cons piece rest ih =>
      obtain ⟨⟨hbalanced, hencloses⟩, hrest⟩ := List.forall_mem_cons.mp hpieces
      cases rest with
      | nil =>
          rw [join_singleton]
          exact split_outside_of_encloses hencloses
      | cons next rest =>
          rw [join_cons_cons, List.append_assoc, List.singleton_append,
            split_outside_cons hmark hbalanced hencloses, ih (List.cons_ne_nil _ _) hrest]

/-- Blanks behind each separator belong to the piece that they stand in front of. -/
theorem join_cons_blanks (blanks piece : Text) (rest : List Text) :
    join (separator :: blanks) (piece :: rest) =
      join [separator] (piece :: rest.map (blanks ++ ·)) := by
  have hfirst (next : Text) (others : List Text) :
      join [separator] ((blanks ++ next) :: others) =
        blanks ++ join [separator] (next :: others) := by
    cases others with
    | nil => rw [join_singleton, join_singleton]
    | cons other others => rw [join_cons_cons, join_cons_cons, List.append_assoc, List.append_assoc,
        List.append_assoc]
  induction rest generalizing piece with
  | nil => rfl
  | cons next rest ih =>
      rw [join_cons_cons, List.map_cons, join_cons_cons, hfirst, ← ih, List.append_assoc,
        List.append_assoc]
      rfl

end Text

end PenScript
