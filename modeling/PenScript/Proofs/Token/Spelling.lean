import PenScript.Proofs.Arithmetic.Integers
import PenScript.Proofs.Text.Delimited
import PenScript.Proofs.Text.Trim
import PenScript.Token.Scan

/-!
# Texts of tokens

`Spells` says how a name, a truth value or a numeral can be written, and `Spelled` how a list of
tokens can be: with separators anywhere, as long as no two words run together. Scanning such a text
gives the tokens back (`Spelled.scan`), also when the blanks around it are trimmed away
(`Spelled.trim`).
-/

namespace PenScript.Token

variable {text part whole fraction exponent rest : Text} {token : Token} {tokens : List Token}

/-- The text holds separators only. -/
def Separators (text : Text) : Prop :=
  ∀ c ∈ text, isSeparator c = true

/-- The text holds decimal digits only. -/
def Digits (text : Text) : Prop :=
  ∀ c ∈ text, c.isDigit = true

instance (text : Text) : Decidable (Separators text) :=
  List.decidableBAll (fun c ↦ isSeparator c = true) text

instance (text : Text) : Decidable (Digits text) :=
  List.decidableBAll (fun c : Char ↦ c.isDigit = true) text

/-- A complete exponent: its mark, a sign that may be missing, and digits. -/
inductive Exponent : Text → Prop where
  | intro {mark : Char} {sign digits : Text} (hmark : mark = 'e' ∨ mark = 'E')
      (hsign : sign = [] ∨ sign = ['+'] ∨ sign = ['-']) (hsome : digits ≠ [])
      (hdigits : Digits digits) : Exponent (mark :: (sign ++ digits))

/-- The text is one way to write the token, which is a name, a truth value or a number. -/
inductive Spells : Text → Token → Prop where
  | word {text : Text} (h : Text.isIdentifier text = true) : Spells text (ofWord text)
  | integer {digits : Text} {number : Int64} (hsome : digits ≠ []) (hdigits : Digits digits)
      (hnumber : number.toInt = Text.toNat digits) : Spells digits (.integer number)
  | scaled {whole exponent : Text} (hsome : whole ≠ []) (hwhole : Digits whole)
      (hexponent : Exponent exponent) :
      Spells (whole ++ exponent) (.real (Real.ofLiteral (whole ++ exponent)))
  | point {whole fraction exponent : Text} (hsome : whole ≠ [] ∨ fraction ≠ [])
      (hwhole : Digits whole) (hfraction : Digits fraction)
      (hexponent : exponent = [] ∨ Exponent exponent) :
      Spells (whole ++ '.' :: (fraction ++ exponent))
        (.real (Real.ofLiteral (whole ++ '.' :: (fraction ++ exponent))))

/-- A word ends here: there is no further text, or it starts with a separator or a mark. -/
def Ends (rest : Text) : Prop :=
  ∀ c ∈ rest.head?, isSeparator c = true ∨ (ofMark? c).isSome = true

instance (rest : Text) : Decidable (Ends rest) :=
  Option.decidableForallMem rest.head?

/-- The text is one way to write the tokens one after the other. -/
inductive Spelled : List Token → Text → Prop where
  | nil {blanks : Text} (hblanks : Separators blanks) : Spelled [] blanks
  | mark {blanks rest : Text} {c : Char} {token : Token} {tokens : List Token}
      (hblanks : Separators blanks) (hmark : ofMark? c = some token)
      (hrest : Spelled tokens rest) : Spelled (token :: tokens) (blanks ++ c :: rest)
  | word {blanks part rest : Text} {token : Token} {tokens : List Token}
      (hblanks : Separators blanks) (hpart : Spells part token) (hends : Ends rest)
      (hrest : Spelled tokens rest) : Spelled (token :: tokens) (blanks ++ part ++ rest)

/-! ### Characters -/

/-- The separators. -/
theorem separator_iff (c : Char) :
    isSeparator c = true ↔ c = ' ' ∨ c = '\t' ∨ c = '\r' ∨ c = '\n' := by
  simp [isSeparator, or_assoc]

/-- The marks. -/
theorem mark_iff (c : Char) : (ofMark? c).isSome = true ↔
    c = '+' ∨ c = '-' ∨ c = '*' ∨ c = '/' ∨ c = '%' ∨ c = '(' ∨ c = ')' := by
  constructor
  · intro h
    unfold ofMark? at h
    split at h <;> simp at h ⊢
  · rintro (rfl | rfl | rfl | rfl | rfl | rfl | rfl) <;> rfl

/-- What ends a word is no part of one. -/
theorem Ends.not_word (h : Ends rest) {c : Char} (hc : c ∈ rest.head?) :
    Text.isNameChar c = false ∧ c ≠ '.' := by
  rcases h c hc with h | h
  · rw [separator_iff] at h
    rcases h with rfl | rfl | rfl | rfl <;> decide
  · rw [mark_iff] at h
    rcases h with rfl | rfl | rfl | rfl | rfl | rfl | rfl <;> decide

/-- A digit is a character of names. -/
theorem name_char_of_digit {c : Char} (h : c.isDigit = true) : Text.isNameChar c = true := by
  simp [Text.isNameChar, Char.isAlphanum, h]

/-- A name does not start like a numeral. -/
theorem not_numeral_of_name_start {c : Char} (h : Text.isNameStart c = true) :
    (c.isDigit || c == '.') = false := by
  unfold Text.isNameStart Char.isAlpha Char.isUpper Char.isLower at h
  unfold Char.isDigit
  simp [UInt32.le_iff_toNat_le, Char.ext_iff, ← UInt32.toNat_inj] at h ⊢
  omega

/-- What ends a word is no digit. -/
theorem Ends.not_digit (h : Ends rest) {c : Char} (hc : c ∈ rest.head?) : c.isDigit = false := by
  have hword := (h.not_word hc).1
  rw [← Bool.not_eq_true] at hword ⊢
  exact mt name_char_of_digit hword

/-! ### Scanning one word -/

theorem split_digits (hwhole : Digits whole) (hrest : ∀ c ∈ rest.head?, c.isDigit = false) :
    splitDigits (whole ++ rest) = (whole, rest) := by
  obtain ⟨htake, hdrop⟩ := Text.split_run hwhole hrest
  rw [splitDigits, htake, hdrop]

/-- A complete exponent is taken as a whole. -/
theorem Exponent.split (h : Exponent exponent) (hrest : ∀ c ∈ rest.head?, c.isDigit = false) :
    splitExponent (exponent ++ rest) = (exponent, rest) := by
  obtain ⟨hmark, hsign, hsome, hdigits⟩ := h
  rename_i mark sign digits
  have hsplit : splitSign (sign ++ (digits ++ rest)) = (sign, digits ++ rest) := by
    rcases hsign with rfl | rfl | rfl
    · obtain ⟨first, others, rfl⟩ := List.exists_cons_of_ne_nil hsome
      have hfirst := hdigits first List.mem_cons_self
      rw [List.nil_append, List.cons_append, splitSign]
      · intro _ hplus
        obtain rfl := (List.cons.inj hplus).1
        cases hfirst
      · intro _ hminus
        obtain rfl := (List.cons.inj hminus).1
        cases hfirst
    · rfl
    · rfl
  have hmark : (mark == 'e' || mark == 'E') = true := by simpa using hmark
  rw [List.cons_append, List.append_assoc, splitExponent, hsplit, split_digits hdigits hrest]
  simp [hmark, hsome]

/-- There is no exponent where a word ends. -/
theorem Ends.split_exponent (h : Ends rest) : splitExponent rest = ([], rest) := by
  cases rest with
  | nil => rfl
  | cons c others =>
      have hmark : (c == 'e' || c == 'E') = false := by
        have hword := (h.not_word (c := c) rfl).1
        rw [← Bool.not_eq_true, Bool.or_eq_true, beq_iff_eq, beq_iff_eq]
        rintro (rfl | rfl) <;> cases hword
      rw [splitExponent]
      simp [hmark]

/-- An exponent is not empty. -/
theorem Exponent.ne_nil (h : Exponent exponent) : exponent ≠ [] := by
  rcases h
  exact List.cons_ne_nil _ _

/-- An exponent starts with its mark. -/
theorem Exponent.not_digit (h : Exponent exponent) :
    ∀ c ∈ (exponent ++ rest).head?, c.isDigit = false ∧ c ≠ '.' := by
  obtain ⟨hmark, -, -, -⟩ := h
  rename_i mark sign digits
  intro c hc
  obtain rfl : mark = c := Option.some.inj hc
  rcases hmark with rfl | rfl <;> decide

/-- A numeral without a decimal point. -/
theorem numeral_plain (hwhole : Digits whole)
    (hrest : ∀ c ∈ rest.head?, c.isDigit = false ∧ c ≠ '.') :
    numeral (whole ++ rest) = plainNumeral whole rest := by
  rw [numeral, split_digits hwhole fun c hc ↦ (hrest c hc).1]
  cases rest with
  | nil => rfl
  | cons c others =>
      dsimp only
      split
      · rename_i hpoint
        exact absurd (List.cons.inj hpoint).1 (hrest c rfl).2
      · rfl

/-- A numeral with a decimal point. -/
theorem numeral_point (hwhole : Digits whole) :
    numeral (whole ++ '.' :: rest) = pointNumeral whole rest := by
  have hpoint : ∀ c ∈ ('.' :: rest).head?, c.isDigit = false := by
    intro c hc
    obtain rfl := Option.some.inj hc
    rfl
  rw [numeral, split_digits hwhole hpoint]
  rfl

/-- A text that starts with a digit or a point is read as a numeral. -/
theorem front_numeral {c : Char} (h : c.isDigit = true ∨ c = '.') :
    front (c :: rest) = numeral (c :: rest) := by
  rw [front, if_pos]
  simpa using h

/-- The text of a numeral starts with a digit or a point. -/
theorem front_digits (hsome : whole ≠ []) (hwhole : Digits whole) :
    front (whole ++ rest) = numeral (whole ++ rest) := by
  obtain ⟨first, others, rfl⟩ := List.exists_cons_of_ne_nil hsome
  exact front_numeral (.inl (hwhole first List.mem_cons_self))

/-- Where a word ends, its token is read. -/
theorem Spells.front (h : Spells part token) (hends : Ends rest) :
    front (part ++ rest) = .ok (token, rest) := by
  cases h with
  | word h =>
      obtain ⟨first, others, rfl⟩ := List.exists_cons_of_ne_nil (l := part) (by rintro rfl; cases h)
      rw [Text.isIdentifier, Bool.and_eq_true, List.all_eq_true] at h
      obtain ⟨hfirst, hothers⟩ := h
      obtain ⟨htake, hdrop⟩ := Text.split_run hothers fun c hc ↦ (hends.not_word hc).1
      rw [List.cons_append, Token.front, not_numeral_of_name_start hfirst,
        if_neg Bool.false_ne_true, if_pos hfirst, htake, hdrop]
  | @integer digits number hsome hdigits hnumber =>
      rw [front_digits hsome hdigits, numeral_plain hdigits fun c hc ↦
        ⟨hends.not_digit hc, (hends.not_word hc).2⟩, plainNumeral, hends.split_exponent, integer?,
        Integer.of_int_eq_some_iff.mpr hnumber]
      rfl
  | @scaled whole exponent hsome hwhole hexponent =>
      rw [List.append_assoc, front_digits hsome hwhole, numeral_plain hwhole hexponent.not_digit,
        plainNumeral, hexponent.split fun c hc ↦ hends.not_digit hc]
      simp [hexponent.ne_nil]
  | @point whole fraction exponent hsome hwhole hfraction hexponent =>
      have hnumeral : front (whole ++ '.' :: (fraction ++ exponent ++ rest)) =
          numeral (whole ++ '.' :: (fraction ++ exponent ++ rest)) := by
        by_cases hwhole' : whole = []
        · subst hwhole'
          exact front_numeral (.inr rfl)
        · exact front_digits hwhole' hwhole
      rw [List.append_assoc, List.cons_append, hnumeral, numeral_point hwhole]
      rcases hexponent with rfl | hexponent
      · rw [List.append_nil, pointNumeral, split_digits hfraction fun c hc ↦ hends.not_digit hc]
        dsimp only
        rw [hends.split_exponent, if_neg (by simpa [or_iff_not_imp_left] using hsome)]
        simp
      · rw [pointNumeral, List.append_assoc,
          split_digits hfraction fun c hc ↦ (hexponent.not_digit c hc).1]
        dsimp only
        rw [hexponent.split fun c hc ↦ hends.not_digit hc,
          if_neg (by simpa [or_iff_not_imp_left] using hsome)]
        simp

/-! ### Scanning a text -/

/-- Separators before a text are skipped. -/
theorem scan_separators (hblanks : Separators text) (rest : Text) :
    scanFrom (text ++ rest) = scanFrom rest := by
  induction text with
  | nil => rfl
  | cons c others ih =>
      rw [List.cons_append, scanFrom, if_pos (hblanks c List.mem_cons_self)]
      exact ih fun d hd ↦ hblanks d (List.mem_cons_of_mem c hd)

/-- A token that a text starts with is the first one, unless the text starts with a separator. -/
theorem scan_front {c : Char} (hblank : isSeparator c = false)
    (hfront : front (c :: part ++ rest) = .ok (token, rest)) :
    scanFrom (c :: part ++ rest) = (scanFrom rest).map (token :: ·) := by
  rw [List.cons_append] at hfront ⊢
  rw [scanFrom, if_neg (by simpa using hblank)]
  split
  · rename_i slice hfailed
    rw [hfront] at hfailed
    cases hfailed
  · rename_i found others hfound
    rw [hfront] at hfound
    cases hfound
    rfl

/-- A mark is read as its token. -/
theorem front_mark {c : Char} (h : ofMark? c = some token) :
    front (c :: rest) = .ok (token, rest) := by
  have hmark := (mark_iff c).mp (by rw [h]; rfl)
  rw [front, h]
  rcases hmark with rfl | rfl | rfl | rfl | rfl | rfl | rfl <;> rfl

/-- A character that is a mark or part of a word is no blank. -/
theorem not_blank_of_mark {c : Char} (h : ofMark? c = some token) : Text.isBlank c = false := by
  have hmark := (mark_iff c).mp (by rw [h]; rfl)
  rcases hmark with rfl | rfl | rfl | rfl | rfl | rfl | rfl <;> rfl

/-- Every mark has its own token. -/
theorem mark_injective {c d : Char} (hc : ofMark? c = some token) (hd : ofMark? d = some token) :
    c = d := by
  unfold ofMark? at hc
  split at hc <;> cases hc <;> unfold ofMark? at hd <;> split at hd <;> cases hd <;> rfl

/-- The token of a word is a truth value or a name. -/
theorem of_word_cases (text : Text) :
    (∃ truth, ofWord text = .boolean truth) ∨ ofWord text = .name text := by
  unfold ofWord
  split
  · exact .inl ⟨true, rfl⟩
  · split
    · exact .inl ⟨false, rfl⟩
    · exact .inr rfl

/-- No word is a mark. -/
theorem Spells.not_mark {c : Char} (h : Spells part token) : ofMark? c ≠ some token := by
  intro hmark
  unfold ofMark? at hmark
  cases h with
  | word _ =>
      rcases of_word_cases part with ⟨truth, hword⟩ | hword
      all_goals
        rw [hword] at hmark
        split at hmark <;> cases hmark
  | integer _ _ _ | scaled _ _ _ | point _ _ _ _ => split at hmark <;> cases hmark

/-- A character of a word: of a name, or a decimal point, or the sign of an exponent. -/
def IsWordChar (c : Char) : Prop :=
  Text.isNameChar c = true ∨ c = '.' ∨ c = '+' ∨ c = '-'

theorem IsWordChar.not_blank {c : Char} (h : IsWordChar c) : Text.isBlank c = false := by
  rcases h with h | rfl | rfl | rfl
  · exact Text.not_blank_of_name_char h
  all_goals rfl

/-- A separator is a blank. -/
theorem blank_of_separator {c : Char} (h : isSeparator c = true) : Text.isBlank c = true := by
  rcases (separator_iff c).mp h with rfl | rfl | rfl | rfl <;> rfl

/-- An exponent is written with characters of words. -/
theorem Exponent.word_chars (h : Exponent exponent) : ∀ c ∈ exponent, IsWordChar c := by
  obtain ⟨hmark, hsign, -, hdigits⟩ := h
  intro c hc
  rcases List.mem_cons.mp hc with rfl | hc
  · rcases hmark with rfl | rfl <;> exact .inl rfl
  · rcases List.mem_append.mp hc with hc | hc
    · rcases hsign with rfl | rfl | rfl
      · cases hc
      · exact .inr (.inr (.inl (List.mem_singleton.mp hc)))
      · exact .inr (.inr (.inr (List.mem_singleton.mp hc)))
    · exact .inl (name_char_of_digit (hdigits c hc))

/-- Digits are characters of words. -/
theorem Digits.word_chars (h : Digits whole) : ∀ c ∈ whole, IsWordChar c :=
  fun c hc ↦ .inl (name_char_of_digit (h c hc))

/-- A token is written with characters of words. -/
theorem Spells.word_chars (h : Spells part token) : ∀ c ∈ part, IsWordChar c := by
  cases h with
  | word h =>
      cases part with
      | nil => cases h
      | cons first others =>
          rw [Text.isIdentifier, Bool.and_eq_true, List.all_eq_true] at h
          have hfirst : Text.isNameChar first = true := by
            rw [Text.isNameChar, Char.isAlphanum, Bool.or_right_comm]
            exact Bool.or_eq_true_iff.mpr (.inl h.1)
          exact List.forall_mem_cons.mpr ⟨.inl hfirst, fun c hc ↦ .inl (h.2 c hc)⟩
  | integer _ hdigits _ => exact hdigits.word_chars
  | scaled _ hwhole hexponent =>
      exact List.forall_mem_append.mpr ⟨hwhole.word_chars, hexponent.word_chars⟩
  | point _ hwhole hfraction hexponent =>
      refine List.forall_mem_append.mpr ⟨hwhole.word_chars, List.forall_mem_cons.mpr
        ⟨.inr (.inl rfl), List.forall_mem_append.mpr ⟨hfraction.word_chars, ?_⟩⟩⟩
      rcases hexponent with rfl | hexponent
      · exact List.forall_mem_nil _
      · exact hexponent.word_chars

/-- A token has a text. -/
theorem Spells.ne_nil (h : Spells part token) : part ≠ [] := by
  cases h with
  | word h => exact fun hempty ↦ by rw [hempty] at h; cases h
  | integer hsome _ _ => exact hsome
  | scaled hsome _ _ => simp [hsome]
  | point _ _ _ _ => simp

/-- A word ends in front of every start of a text that it ends in front of. -/
theorem Ends.of_prefix (h : Ends rest) (hstart : part <+: rest) : Ends part := by
  obtain ⟨others, rfl⟩ := hstart
  cases part with
  | nil => exact fun _ hc ↦ nomatch hc
  | cons c part => exact h

/-- Separators are blanks. -/
theorem Separators.blank (h : Separators text) : Text.Blank text :=
  fun c hc ↦ blank_of_separator (h c hc)

namespace Spelled

/-- The tokens of a text are those that it spells. -/
theorem scan_from (h : Spelled tokens text) : scanFrom text = .ok tokens := by
  induction h with
  | nil hblanks =>
      have hscan := scan_separators hblanks []
      rw [List.append_nil] at hscan
      rw [hscan, scanFrom]
  | @mark blanks rest c token tokens hblanks hmark _ ih =>
      have hblank : isSeparator c = false := by
        rw [← Bool.not_eq_true]
        exact mt blank_of_separator (by simp [not_blank_of_mark hmark])
      rw [scan_separators hblanks, ← List.singleton_append,
        scan_front hblank (front_mark hmark), ih]
      rfl
  | @word blanks part rest token tokens hblanks hpart hends _ ih =>
      obtain ⟨first, others, rfl⟩ := List.exists_cons_of_ne_nil hpart.ne_nil
      have hblank : isSeparator first = false := by
        rw [← Bool.not_eq_true]
        have hfirst := (hpart.word_chars first List.mem_cons_self).not_blank
        exact mt blank_of_separator (by simp [hfirst])
      rw [List.append_assoc, scan_separators hblanks, scan_front hblank (hpart.front hends), ih]
      rfl

/-- The blanks at the start of a text do not belong to its tokens. -/
theorem trim_start (h : Spelled tokens text) : Spelled tokens (Text.trimStart text) := by
  cases h with
  | nil hblanks =>
      rw [Text.trim_start_blank hblanks.blank]
      exact .nil (List.forall_mem_nil _)
  | mark hblanks hmark hrest =>
      rw [Text.trim_start_append_cons (not_blank_of_mark hmark),
        Text.trim_start_blank hblanks.blank]
      exact .mark (List.forall_mem_nil _) hmark hrest
  | @word blanks part rest token tokens hblanks hpart hends hrest =>
      obtain ⟨first, others, rfl⟩ := List.exists_cons_of_ne_nil hpart.ne_nil
      rw [List.append_assoc, List.cons_append,
        Text.trim_start_append_cons (hpart.word_chars first List.mem_cons_self).not_blank,
        Text.trim_start_blank hblanks.blank]
      simpa using Spelled.word (List.forall_mem_nil _) hpart hends hrest

/-- The blanks at the end of a text do not belong to its tokens. -/
theorem trim_end (h : Spelled tokens text) : Spelled tokens (Text.trimEnd text) := by
  induction h with
  | nil hblanks =>
      exact .nil fun c hc ↦ hblanks c ((Text.trim_end_prefix _).subset hc)
  | mark hblanks hmark _ ih =>
      rw [Text.trim_end_append_cons (not_blank_of_mark hmark)]
      exact .mark hblanks hmark ih
  | @word blanks part rest token tokens hblanks hpart hends _ ih =>
      have hends := hends.of_prefix (Text.trim_end_prefix rest)
      have hlast := (hpart.word_chars _ (List.getLast_mem hpart.ne_nil)).not_blank
      have hsome : blanks ++ part ≠ [] := by simp [hpart.ne_nil]
      rw [Text.trim_end_append_last hsome (by rwa [List.getLast_append_of_ne_nil])]
      exact .word hblanks hpart hends ih

/-- The blanks around a text do not belong to its tokens. -/
theorem trim (h : Spelled tokens text) : Spelled tokens (Text.trim text) :=
  h.trim_start.trim_end

/-- The tokens of a text are those that it spells, whatever blanks are around them. -/
theorem scan (h : Spelled tokens text) : Token.scan text = .ok tokens := by
  rw [Token.scan, h.scan_from]
  rfl

/-- A text that spells a list in two parts has a part for each. -/
theorem split {first others : List Token} (h : Spelled (first ++ others) text) :
    ∃ left right, text = left ++ right ∧ Spelled first left ∧ Spelled others right := by
  induction first generalizing text with
  | nil => exact ⟨[], text, rfl, .nil (List.forall_mem_nil _), h⟩
  | cons token first ih =>
      cases h with
      | @mark blanks rest c _ _ hblanks hmark hrest =>
          obtain ⟨left, right, rfl, hleft, hright⟩ := ih hrest
          exact ⟨blanks ++ c :: left, right, by simp, .mark hblanks hmark hleft, hright⟩
      | @word blanks part rest _ _ hblanks hpart hends hrest =>
          obtain ⟨left, right, rfl, hleft, hright⟩ := ih hrest
          have hends := hends.of_prefix (List.prefix_append left right)
          exact ⟨blanks ++ part ++ left, right, by simp, .word hblanks hpart hends hleft, hright⟩

/-- A token that is a mark is written as that mark, and the other tokens follow it. -/
theorem of_mark {c : Char} (h : Spelled (token :: tokens) text) (hmark : ofMark? c = some token) :
    ∃ blanks rest, Separators blanks ∧ text = blanks ++ c :: rest ∧ Spelled tokens rest := by
  cases h with
  | @mark blanks rest d _ _ hblanks hother hrest =>
      obtain rfl := mark_injective hmark hother
      exact ⟨blanks, rest, hblanks, rfl, hrest⟩
  | word _ hpart _ _ => exact absurd hmark hpart.not_mark

end Spelled

end PenScript.Token
