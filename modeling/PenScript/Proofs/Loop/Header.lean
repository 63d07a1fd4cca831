import PenScript.Loop
import PenScript.Proofs.Program.Spelling
import PenScript.Proofs.Token.Names

/-!
# Headers of counting loops

The words of a header are found by a search from left to right, and they count only where they stand
by themselves. `HasWord` says what that means, and `split_at_word_eq_none_iff` that the search
misses no such place. A word between blanks is the one that is found when there is none in the text
in front of it (`split_at_word_append`). So a header that is written from its parts is taken apart
into them again (`headers_parse_as_written`), whatever else stands in the expressions.
-/

namespace PenScript.Loop

open Text

/-- The word stands by itself in a text that follows a character: in any letter case, and with an
ASCII blank on each side. The end of the text counts as one. -/
def HasWordAfter (previous : Char) (word text : Text) : Prop :=
  ∃ before found after, text = before ++ (found ++ after) ∧ toLower found = word ∧
    isAsciiBlank (before.getLastD previous) = true ∧ isAsciiBlank (after.headD ' ') = true

/-- The word stands by itself in the text, where both ends of the text count as blanks. -/
def HasWord (word text : Text) : Prop :=
  HasWordAfter ' ' word text

/-- A run of ASCII blanks that is not empty. -/
structure AsciiGap (gap : Text) : Prop where
  nonempty : gap ≠ []
  blank : ∀ c ∈ gap, isAsciiBlank c = true

instance (gap : Text) : Decidable (AsciiGap gap) :=
  have := List.decidableBAll (fun c ↦ isAsciiBlank c = true) gap
  decidable_of_iff (gap ≠ [] ∧ ∀ c ∈ gap, isAsciiBlank c = true)
    ⟨fun h ↦ ⟨h.1, h.2⟩, fun h ↦ ⟨h.1, h.2⟩⟩

/-- The text is the word, in any letter case, with a run of ASCII blanks on each side. -/
inductive Spaced (word : Text) : Text → Prop where
  | between {before found after : Text} :
      AsciiGap before → toLower found = word → AsciiGap after →
      Spaced word (before ++ (found ++ after))

/-- The text is an equals sign with blanks around it, in front of an expression with which it makes
no comparison. -/
inductive EqualsSign (expression : Text) : Text → Prop where
  | between {before after : Text} :
      Blank before → Blank after → (after ≠ [] ∨ expression.head? ≠ some '=') →
      EqualsSign expression (before ++ '=' :: after)

/-- The text is a header with these parts. There is no word `to` in the start and no word `step` in
the limit, which would be taken for those of the header. -/
inductive Header.Written : Header → Text → Prop where
  | plain {counter equals start toMark limit : Text} :
      isIdentifier counter = true → EqualsSign start equals →
      Tight start → ¬ HasWord "to".toList start → Spaced "to".toList toMark →
      Tight limit → ¬ HasWord "step".toList limit →
      Written ⟨counter, start, limit, none⟩ (counter ++ equals ++ start ++ toMark ++ limit)
  | stepped {counter equals start toMark limit stepMark step : Text} :
      isIdentifier counter = true → EqualsSign start equals →
      Tight start → ¬ HasWord "to".toList start → Spaced "to".toList toMark →
      Tight limit → ¬ HasWord "step".toList limit → Spaced "step".toList stepMark →
      Tight step →
      Written ⟨counter, start, limit, some step⟩
        (counter ++ equals ++ start ++ toMark ++ limit ++ stepMark ++ step)

section Search

variable {word text found before gap after rest : Text} {previous c : Char}

/-- A text has the words that it has after its first character. -/
theorem HasWordAfter.cons (h : HasWordAfter c word text) :
    HasWordAfter previous word (c :: text) := by
  obtain ⟨before, found, after, rfl, hfound, hbefore, hafter⟩ := h
  exact ⟨c :: before, found, after, rfl, hfound, by rwa [List.getLastD_cons], hafter⟩

/-- A word that stands by itself after some character does so at the start of a text too. -/
theorem HasWordAfter.has_word (h : HasWordAfter previous word text) : HasWord word text := by
  obtain ⟨before, found, after, htext, hfound, hbefore, hafter⟩ := h
  refine ⟨before, found, after, htext, hfound, ?_, hafter⟩
  cases before with
  | nil => rfl
  | cons d before => rwa [List.getLastD_cons] at hbefore ⊢

/-- A word is one in any letter case. -/
theorem word_of_lower (hword : IsWord word) (hfound : toLower found = word) : IsWord found := by
  intro c hc
  rw [← name_char_lower]
  exact hword c.toLower (hfound ▸ List.mem_map_of_mem hc)

/-- ASCII blanks are blanks. -/
theorem blank_of_ascii (h : isAsciiBlank c = true) : isBlank c = true := by
  simp only [isAsciiBlank, Bool.or_eq_true, beq_iff_eq] at h
  rcases h with (((rfl | rfl) | rfl) | rfl) | rfl <;> rfl

/-- A run of ASCII blanks is blank. -/
theorem AsciiGap.is_blank (h : AsciiGap gap) : Blank gap :=
  fun c hc ↦ blank_of_ascii (h.blank c hc)

/-- A word that is not empty does not start with a blank, in whatever letter case. -/
theorem not_blank_of_front (hword : IsWord word) (hsome : word ≠ []) (hfound : toLower found = word)
    (htext : c :: rest = found ++ after) : isBlank c = false := by
  have hname := word_of_lower hword hfound
  cases found with
  | nil => exact absurd hfound.symm hsome
  | cons d found =>
      obtain ⟨rfl, -⟩ := List.cons.inj htext
      exact not_blank_of_name_char (hname c List.mem_cons_self)

/-- Blanks in front of a text add no words to it. -/
theorem has_word_of_blanks (hword : IsWord word) (hsome : word ≠ []) {blanks : Text}
    (hblanks : Blank blanks) (h : HasWordAfter previous word (blanks ++ text)) :
    HasWord word text := by
  induction blanks generalizing previous with
  | nil => exact h.has_word
  | cons c blanks ih =>
      obtain ⟨hc, hrest⟩ := List.forall_mem_cons.mp hblanks
      obtain ⟨before, found, after, htext, hfound, hbefore, hafter⟩ := h
      cases before with
      | nil => cases hc.symm.trans (not_blank_of_front hword hsome hfound htext)
      | cons d before =>
          obtain ⟨rfl, hothers⟩ := List.cons.inj htext
          rw [List.getLastD_cons] at hbefore
          exact ih hrest ⟨before, found, after, hothers, hfound, hbefore, hafter⟩

/-- What the search reads at the start of a text. -/
theorem after_word_eq_some_iff : afterWord? word text = some rest ↔
    ∃ found, text = found ++ rest ∧ toLower found = word ∧
      isAsciiBlank (rest.headD ' ') = true := by
  have hhead : ∀ rest : Text, rest.head?.all isAsciiBlank = isAsciiBlank (rest.headD ' ') := by
    intro rest
    cases rest <;> rfl
  unfold afterWord?
  simp only [hhead, Option.ite_none_right_eq_some, Bool.and_eq_true, beq_iff_eq, Option.some.injEq]
  constructor
  · rintro ⟨⟨hfound, hrest⟩, rfl⟩
    exact ⟨text.take word.length, (List.take_append_drop _ _).symm, hfound, hrest⟩
  · rintro ⟨found, rfl, rfl, hrest⟩
    have hlength : (toLower found).length = found.length := List.length_map _
    rw [hlength, List.take_left, List.drop_left]
    exact ⟨⟨rfl, hrest⟩, rfl⟩

/-- The search stops at a word. -/
theorem split_at_word_found (hsome : text ≠ []) (hprevious : isAsciiBlank previous = true)
    (h : afterWord? word text = some rest) :
    splitAtWord word (isAsciiBlank previous) text = some ([], rest) := by
  obtain ⟨c, others, rfl⟩ := List.exists_cons_of_ne_nil hsome
  rw [splitAtWord, if_pos hprevious, h]

/-- The search goes on where no word stands. -/
theorem split_at_word_cons
    (hnone : isAsciiBlank previous = true → afterWord? word (c :: rest) = none) :
    splitAtWord word (isAsciiBlank previous) (c :: rest) =
      (splitAtWord word (isAsciiBlank c) rest).map fun (before, after) ↦ (c :: before, after) := by
  rw [splitAtWord]
  by_cases hprevious : isAsciiBlank previous = true
  · rw [if_pos hprevious, hnone hprevious]
  · rw [if_neg hprevious]

/-- The search finds nothing exactly when the word does not stand in the text by itself. -/
theorem split_at_word_eq_none_iff (hsome : word ≠ []) :
    splitAtWord word (isAsciiBlank previous) text = none ↔ ¬ HasWordAfter previous word text := by
  induction text generalizing previous with
  | nil =>
      refine iff_of_true rfl ?_
      rintro ⟨before, found, after, htext, hfound, -, -⟩
      obtain ⟨-, hboth⟩ := List.append_eq_nil_iff.mp htext.symm
      obtain ⟨rfl, -⟩ := List.append_eq_nil_iff.mp hboth
      exact hsome hfound.symm
  | cons c rest ih =>
      by_cases hread : isAsciiBlank previous = true ∧
        ∃ after, afterWord? word (c :: rest) = some after
      · obtain ⟨hprevious, after, hafter⟩ := hread
        rw [split_at_word_found (List.cons_ne_nil _ _) hprevious hafter]
        obtain ⟨found, htext, hfound, hend⟩ := after_word_eq_some_iff.mp hafter
        refine iff_of_false (Option.some_ne_none _) (not_not_intro ?_)
        exact ⟨[], found, after, htext, hfound, hprevious, hend⟩
      · have hnone : isAsciiBlank previous = true → afterWord? word (c :: rest) = none := by
          intro hprevious
          rw [Option.eq_none_iff_forall_not_mem]
          exact fun after hafter ↦ hread ⟨hprevious, after, hafter⟩
        rw [split_at_word_cons hnone, Option.map_eq_none_iff, ih, not_iff_not]
        refine ⟨HasWordAfter.cons, ?_⟩
        rintro ⟨before, found, after, htext, hfound, hbefore, hafter⟩
        cases before with
        | nil =>
            have hend := after_word_eq_some_iff.mpr ⟨found, htext, hfound, hafter⟩
            cases (hnone hbefore).symm.trans hend
        | cons d before =>
            obtain ⟨rfl, rfl⟩ := List.cons.inj htext
            rw [List.getLastD_cons] at hbefore
            exact ⟨before, found, after, rfl, hfound, hbefore, hafter⟩

/-- A word at the start of a text that ends in front of a gap, or earlier, is one without the gap.
-/
theorem after_word_of_append (hword : IsWord word) (hgap : AsciiGap gap)
    (h : afterWord? word (text ++ (gap ++ rest)) = some after) :
    ∃ others, afterWord? word text = some others := by
  obtain ⟨found, htext, hfound, hend⟩ := after_word_eq_some_iff.mp h
  rcases List.append_eq_append_iff.mp htext with ⟨more, rfl, hmore⟩ | ⟨others, rfl, rfl⟩
  · -- The word would have to go on into the gap.
    cases more with
    | nil => exact ⟨[], after_word_eq_some_iff.mpr ⟨text, by simp, by simpa using hfound, rfl⟩⟩
    | cons d more =>
        obtain ⟨c, blanks, rfl⟩ := List.exists_cons_of_ne_nil hgap.nonempty
        obtain ⟨rfl, -⟩ := List.cons.inj hmore
        have hname := word_of_lower hword hfound c (by simp)
        have hblank := hgap.is_blank c List.mem_cons_self
        cases hblank.symm.trans (not_blank_of_name_char hname)
  · refine ⟨others, after_word_eq_some_iff.mpr ⟨found, rfl, hfound, ?_⟩⟩
    cases others with
    | nil => rfl
    | cons d others => exact hend

/-- The word behind a run of blanks is the first one. -/
theorem split_at_word_blanks (hword : IsWord word) (hsome : word ≠ [])
    (hgap : ∀ c ∈ gap, isAsciiBlank c = true)
    (hprevious : isAsciiBlank (gap.getLastD previous) = true)
    (hfound : toLower found = word) (hafter : isAsciiBlank (after.headD ' ') = true) :
    splitAtWord word (isAsciiBlank previous) (gap ++ (found ++ after)) = some (gap, after) := by
  induction gap generalizing previous with
  | nil =>
      have hread := after_word_eq_some_iff.mpr ⟨found, rfl, hfound, hafter⟩
      refine split_at_word_found ?_ hprevious hread
      intro hnone
      rw [List.nil_append] at hnone
      obtain ⟨rfl, -⟩ := List.append_eq_nil_iff.mp hnone
      exact hsome hfound.symm
  | cons c gap ih =>
      obtain ⟨hc, hgap⟩ := List.forall_mem_cons.mp hgap
      have hnone : afterWord? word (c :: (gap ++ (found ++ after))) = none := by
        rw [Option.eq_none_iff_forall_not_mem]
        intro others hothers
        obtain ⟨start, htext, hstart, -⟩ := after_word_eq_some_iff.mp hothers
        cases (blank_of_ascii hc).symm.trans (not_blank_of_front hword hsome hstart htext)
      rw [List.getLastD_cons] at hprevious
      rw [List.cons_append, split_at_word_cons fun _ ↦ hnone, ih hgap hprevious]
      rfl

/-- The word behind a text without it and a gap is the first one. -/
theorem split_at_word_append (hword : IsWord word) (hsome : word ≠ [])
    (hnone : ¬ HasWordAfter previous word before) (hgap : AsciiGap gap)
    (hfound : toLower found = word) (hafter : isAsciiBlank (after.headD ' ') = true) :
    splitAtWord word (isAsciiBlank previous) (before ++ (gap ++ (found ++ after))) =
      some (before ++ gap, after) := by
  induction before generalizing previous with
  | nil =>
      obtain ⟨c, blanks, rfl⟩ := List.exists_cons_of_ne_nil hgap.nonempty
      refine split_at_word_blanks hword hsome hgap.blank (hgap.blank _ ?_) hfound hafter
      rw [List.getLastD_cons]
      exact List.getLastD_mem_cons
  | cons c before ih =>
      have hfront : isAsciiBlank previous = true →
          afterWord? word (c :: (before ++ (gap ++ (found ++ after)))) = none := by
        intro hprevious
        rw [Option.eq_none_iff_forall_not_mem]
        intro others hothers
        rw [← List.cons_append] at hothers
        obtain ⟨rest, hrest⟩ := after_word_of_append hword hgap hothers
        obtain ⟨start, htext, hstart, hend⟩ := after_word_eq_some_iff.mp hrest
        exact hnone ⟨[], start, rest, htext, hstart, hprevious, hend⟩
      rw [List.cons_append, split_at_word_cons hfront, ih (mt HasWordAfter.cons hnone)]
      rfl

/-- A part in front of a spaced word that is not in it is found again, without the blanks around it.
-/
theorem split_at_spaced (hname : isIdentifier word = true) {blanks part mark : Text}
    (hblanks : Blank blanks) (hpart : Tight part) (hnone : ¬ HasWord word part)
    (hmark : Spaced word mark) (rest : Text) :
    ∃ before gap, splitAtWord word true (blanks ++ (part ++ (mark ++ rest))) =
        some (before, gap ++ rest) ∧ trim before = part ∧ Blank gap := by
  obtain ⟨hword, hsome⟩ := word_of_identifier hname
  obtain @⟨before, found, after, hbefore, hfound, hafter⟩ := hmark
  have hfree : ¬ HasWordAfter ' ' word (blanks ++ part) :=
    mt (has_word_of_blanks hword hsome hblanks) hnone
  have hend : isAsciiBlank ((after ++ rest).headD ' ') = true := by
    obtain ⟨c, others, rfl⟩ := List.exists_cons_of_ne_nil hafter.nonempty
    exact hafter.blank c List.mem_cons_self
  have hsplit := split_at_word_append hword hsome hfree hbefore hfound hend
  refine ⟨blanks ++ part ++ before, after, ?_, ?_, hafter.is_blank⟩
  · simp only [List.append_assoc] at hsplit ⊢
    exact hsplit
  · rw [trim_append hblanks hbefore.is_blank, hpart.trimmed]

end Search

section Headers

variable {counter equals body text : Text} {header : Header}

/-- A header starts with its counter and an equals sign. -/
theorem split_word_header (hcounter : isIdentifier counter = true)
    (hequals : EqualsSign body equals) (hbody : Tight body) :
    ∃ blanks, Blank blanks ∧ (Line.splitWord (counter ++ (equals ++ body))).1 = counter ∧
      Line.afterEquals? (Line.splitWord (counter ++ (equals ++ body))).2 =
        some (blanks ++ body) := by
  obtain @⟨before, after, hbefore, hafter, hsign⟩ := hequals
  obtain ⟨hword, hsome⟩ := word_of_identifier hcounter
  obtain ⟨c, rest, hcons, hc⟩ :
      ∃ c rest, before ++ '=' :: after ++ body = c :: rest ∧ isNameChar c = false := by
    cases before with
    | nil => exact ⟨'=', after ++ body, rfl, rfl⟩
    | cons c before =>
        refine ⟨c, _, rfl, Bool.eq_false_iff.mpr fun hname ↦ ?_⟩
        cases (hbefore c List.mem_cons_self).symm.trans (not_blank_of_name_char hname)
  have htight : Tight ('=' :: (after ++ body)) := by
    have hequals : Tight ['='] := by decide
    simpa using hequals.append hbody after
  have htrim : trim (c :: rest) = '=' :: (after ++ body) := by
    rw [← hcons, List.append_assoc]
    exact htight.trim_blanks hbefore
  have hnot : (after ++ body).head? ≠ some '=' := by
    cases after with
    | nil => exact hsign.resolve_left (not_not_intro rfl)
    | cons d after =>
        intro hd
        obtain rfl := Option.some.inj hd
        cases hafter '=' List.mem_cons_self
  rw [hcons, Line.split_word_cons hword hsome hc rest, htrim, Line.afterEquals?, if_neg hnot]
  exact ⟨after, hafter, rfl, rfl⟩

/-- An expression may be replaced behind an equals sign by one that starts with it. -/
theorem EqualsSign.append {expression : Text} (h : EqualsSign expression equals)
    (hsome : expression ≠ []) (rest : Text) : EqualsSign (expression ++ rest) equals := by
  obtain @⟨before, after, hbefore, hafter, hsign⟩ := h
  refine .between hbefore hafter ?_
  rwa [List.head?_append_of_ne_nil expression hsome]

/-- The counter of a header does not start with a digit. -/
theorem not_digit_of_identifier (h : isIdentifier counter = true) :
    (counter.head?.any fun c ↦ !c.isDigit) = true := by
  cases counter with
  | nil => cases h
  | cons first rest =>
      obtain ⟨hfirst, -⟩ := Bool.and_eq_true_iff.mp h
      have hdigit : first.isDigit = false := by
        rw [← Bool.not_eq_true]
        intro hdigit
        cases hfirst.symm.trans (Token.not_name_start_of_digit hdigit)
      simp [hdigit]

/-- A header is read up to its word `to`, and the rest is left to the search for the word `step`. -/
theorem parse_of_bounds {start toMark bounds : Text} (hcounter : isIdentifier counter = true)
    (hequals : EqualsSign start equals) (hstart : Tight start) (hto : ¬ HasWord "to".toList start)
    (htoMark : Spaced "to".toList toMark) (hbounds : Tight bounds) :
    ∃ gap, Blank gap ∧
      (splitAtWord "step".toList true (gap ++ bounds) = none →
        Header.parse? (counter ++ (equals ++ (start ++ (toMark ++ bounds)))) =
          some ⟨counter, start, bounds, none⟩) ∧
      ∀ before after, splitAtWord "step".toList true (gap ++ bounds) = some (before, after) →
        trim before ≠ [] → trim after ≠ [] →
        Header.parse? (counter ++ (equals ++ (start ++ (toMark ++ bounds)))) =
          some ⟨counter, start, trim before, some (trim after)⟩ := by
  have hbody : Tight (start ++ (toMark ++ bounds)) := by
    rw [← List.append_assoc]
    exact hstart.append hbounds toMark
  obtain ⟨blanks, hblanks, hname, hafter⟩ :=
    split_word_header hcounter (hequals.append hstart.nonempty (toMark ++ bounds)) hbody
  obtain ⟨before, gap, hsplit, hbefore, hgap⟩ :=
    split_at_spaced rfl hblanks hstart hto htoMark bounds
  have hdigit := not_digit_of_identifier hcounter
  have htrim := hbounds.trim_blanks hgap
  refine ⟨gap, hgap, fun hnone ↦ ?_, fun limit step hfound hlimit hstep ↦ ?_⟩
  · unfold Header.parse? guard
    simp only [hname, hafter, hdigit, hsplit, hnone, hbefore, htrim, if_true, pure_bind,
      Option.bind_eq_bind, Option.bind_some]
    simp [hstart.nonempty, hbounds.nonempty]
  · unfold Header.parse? guard
    simp only [hname, hafter, hdigit, hsplit, hfound, hbefore, if_true, pure_bind,
      Option.bind_eq_bind, Option.bind_some]
    simp [hstart.nonempty, hlimit, hstep]

end Headers

/-- A header gives back the parts from which it is written: its counter, the start, the limit, and
the step if there is one. -/
theorem headers_parse_as_written {header : Header} {text : Text} (h : header.Written text) :
    Header.parse? text = some header := by
  cases h with
  | @plain counter equals start toMark limit hcounter hequals hstart hto htoMark hlimit hnoStep =>
      obtain ⟨hword, hsome⟩ := @word_of_identifier "step".toList rfl
      obtain ⟨gap, hgap, hparse, -⟩ := parse_of_bounds hcounter hequals hstart hto htoMark hlimit
      have hnone : splitAtWord "step".toList (isAsciiBlank ' ') (gap ++ limit) = none := by
        rw [split_at_word_eq_none_iff hsome]
        exact mt (has_word_of_blanks hword hsome hgap) hnoStep
      simpa only [List.append_assoc] using hparse hnone
  | @stepped counter equals start toMark limit stepMark step hcounter hequals hstart hto htoMark
      hlimit hnoStep hstepMark hstep =>
      obtain ⟨gap, hgap, -, hparse⟩ := parse_of_bounds hcounter hequals hstart hto htoMark
        (hlimit.append hstep stepMark)
      obtain ⟨before, between, hsplit, hbefore, hbetween⟩ :=
        split_at_spaced rfl hgap hlimit hnoStep hstepMark step
      have hafter := hstep.trim_blanks hbetween
      simp only [List.append_assoc] at hparse ⊢
      rw [hparse _ _ hsplit (by rw [hbefore]; exact hlimit.nonempty)
        (by rw [hafter]; exact hstep.nonempty), hbefore, hafter]

/-- The words `to` and `step` stand in the expressions too, and other words start with them. -/
theorem headers_parse_as_written_among_words :
    Header.Written ⟨"total".toList, "stepper + to2".toList, "é to tostep".toList,
        some "-step to 2".toList⟩
      "total = stepper + to2\tTO\x0cé to tostep  Step\r\n-step to 2".toList ∧
    Header.parse? "total = stepper + to2\tTO\x0cé to tostep  Step\r\n-step to 2".toList =
      some ⟨"total".toList, "stepper + to2".toList, "é to tostep".toList,
        some "-step to 2".toList⟩ := by
  have hequals : EqualsSign "stepper + to2".toList " = ".toList :=
    @EqualsSign.between _ [' '] [' '] (by decide) (by decide) (by decide)
  have hnone {word text : Text} (hsome : word ≠ [])
      (h : splitAtWord word (isAsciiBlank ' ') text = none) : ¬ HasWord word text :=
    (split_at_word_eq_none_iff hsome).mp h
  have hstart : ¬ HasWord "to".toList "stepper + to2".toList := hnone (by decide) (by decide)
  have hlimit : ¬ HasWord "step".toList "é to tostep".toList := hnone (by decide) (by decide)
  have hto : Spaced "to".toList "\tTO\x0c".toList :=
    @Spaced.between _ ['\t'] "TO".toList ['\x0c'] (by decide) rfl (by decide)
  have hstep : Spaced "step".toList "  Step\r\n".toList :=
    @Spaced.between _ [' ', ' '] "Step".toList ['\r', '\n'] (by decide) rfl (by decide)
  have hwritten := Header.Written.stepped (by decide : isIdentifier "total".toList = true) hequals
    (by decide) hstart hto (by decide) hlimit hstep (by decide : Tight "-step to 2".toList)
  have htext : "total".toList ++ " = ".toList ++ "stepper + to2".toList ++ "\tTO\x0c".toList ++
      "é to tostep".toList ++ "  Step\r\n".toList ++ "-step to 2".toList =
        "total = stepper + to2\tTO\x0cé to tostep  Step\r\n-step to 2".toList := by decide
  rw [htext] at hwritten
  exact ⟨hwritten, headers_parse_as_written hwritten⟩

end PenScript.Loop
