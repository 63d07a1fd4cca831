import PenScript.Proofs.Text.Standing
import PenScript.Token.Scan

/-!
# Names among tokens

Every name among the tokens of a text stands in the text as a whole word: no letter and no
underscore is in front of it, because a token that ends with one is a word and words are taken as
long as they are, and no character of names is behind it for the same reason
(`name_stands`). What is in front of it may be a digit, since numerals end where their digits do.
-/

namespace PenScript.Token

open Text

variable {text rest whole afterPoint name : Text} {token : Token} {tokens : List Token}

/-! ### Numerals -/

/-- A letter is no digit. -/
theorem not_name_start_of_digit {c : Char} (h : c.isDigit = true) : isNameStart c = false := by
  unfold Char.isDigit at h
  unfold isNameStart Char.isAlpha Char.isUpper Char.isLower
  simp [UInt32.le_iff_toNat_le, Char.ext_iff, ← UInt32.toNat_inj] at h ⊢
  omega

/-- The digits that a text starts with and what follows them make up the text. -/
theorem split_digits_parts (text : Text) :
    (splitDigits text).1 ++ (splitDigits text).2 = text ∧ FreeEnd (splitDigits text).1 :=
  ⟨List.takeWhile_append_dropWhile,
    .of_forall fun _ hc ↦ not_name_start_of_digit (List.mem_takeWhile_imp hc)⟩

/-- The sign that a text starts with and what follows it make up the text. -/
theorem split_sign_parts (text : Text) : (splitSign text).1 ++ (splitSign text).2 = text := by
  unfold splitSign
  split <;> rfl

/-- The exponent that a text starts with and what follows it make up the text, and the exponent ends
with a digit. -/
theorem split_exponent_parts (text : Text) :
    (splitExponent text).1 ++ (splitExponent text).2 = text ∧ FreeEnd (splitExponent text).1 := by
  cases text with
  | nil => exact ⟨rfl, .nil⟩
  | cons mark rest =>
      obtain ⟨hdigits, hfree⟩ := split_digits_parts (splitSign rest).2
      rw [splitExponent]
      split
      · rename_i hcomplete
        rw [Bool.and_eq_true, Bool.not_eq_true', List.isEmpty_eq_false_iff] at hcomplete
        refine ⟨?_, .append_right hcomplete.2 hfree⟩
        rw [List.append_assoc, hdigits, List.cons_append, split_sign_parts]
      · exact ⟨rfl, .nil⟩

/-- A numeral with a decimal point and what follows it make up the text. -/
theorem point_numeral_parts (h : pointNumeral whole afterPoint = .ok (token, rest)) :
    ∃ part, whole ++ '.' :: afterPoint = part ++ rest ∧ FreeEnd part ∧
      ∀ name, token ≠ .name name := by
  obtain ⟨hfraction, hfree⟩ := split_digits_parts afterPoint
  obtain ⟨hexponent, hlast⟩ := split_exponent_parts (splitDigits afterPoint).2
  unfold pointNumeral at h
  dsimp only at h
  split at h
  · cases h
  · obtain ⟨rfl, rfl⟩ := Prod.mk.inj (Except.ok.inj h)
    refine ⟨whole ++ ['.'] ++ (splitDigits afterPoint).1 ++
      (splitExponent (splitDigits afterPoint).2).1, ?_, ?_, fun _ ↦ nofun⟩
    · rw [List.append_assoc, hexponent, List.append_assoc, hfraction, List.append_assoc,
        List.singleton_append]
    · exact ((FreeEnd.concat (by decide) whole).append hfree).append hlast

/-- A numeral without a decimal point and what follows it make up the text. -/
theorem plain_numeral_parts (hwhole : FreeEnd whole)
    (h : plainNumeral whole text = .ok (token, rest)) :
    ∃ part, whole ++ text = part ++ rest ∧ FreeEnd part ∧ ∀ name, token ≠ .name name := by
  obtain ⟨hexponent, hlast⟩ := split_exponent_parts text
  unfold plainNumeral at h
  dsimp only at h
  split at h
  · obtain ⟨rfl, rfl⟩ := Prod.mk.inj (Except.ok.inj h)
    exact ⟨whole ++ (splitExponent text).1, by rw [List.append_assoc, hexponent],
      hwhole.append hlast, fun _ ↦ nofun⟩
  · split at h
    · rename_i hinteger
      obtain ⟨rfl, rfl⟩ := Prod.mk.inj (Except.ok.inj h)
      obtain ⟨number, -, rfl⟩ := Option.map_eq_some_iff.mp hinteger
      exact ⟨whole, rfl, hwhole, fun _ ↦ nofun⟩
    · cases h

/-- A numeral and what follows it make up the text, and a name may start behind the numeral. -/
theorem numeral_parts (h : numeral text = .ok (token, rest)) :
    ∃ part, text = part ++ rest ∧ FreeEnd part ∧ ∀ name, token ≠ .name name := by
  obtain ⟨hwhole, hfree⟩ := split_digits_parts text
  unfold numeral at h
  dsimp only at h
  split at h
  · rename_i afterPoint hpoint
    rw [hpoint] at hwhole
    exact hwhole ▸ point_numeral_parts h
  · exact hwhole ▸ plain_numeral_parts hfree h

/-! ### Words -/

/-- A word that is a name is that name. -/
theorem eq_of_word_eq_name {word : Text} (h : ofWord word = .name name) : word = name := by
  unfold ofWord at h
  split at h
  · cases h
  · split at h
    · cases h
    · exact Token.name.inj h

/-- What follows the longest run of name characters goes on with no name. -/
theorem free_start_drop_while (text : Text) : FreeStart (text.dropWhile isNameChar) := by
  intro c hc
  have hsome := List.head?_dropWhile_not isNameChar text
  rw [Option.mem_def.mp hc] at hsome
  simpa using hsome

/-- The first token of a text and what follows it make up the text, and either a name may start
behind the token or none goes on there. A name is taken as a whole. -/
theorem front_parts (h : front text = .ok (token, rest)) :
    ∃ part, text = part ++ rest ∧ (FreeEnd part ∨ FreeStart rest) ∧
      ∀ name, token = .name name → part = name ∧ FreeStart rest ∧ ¬ FreeStart text := by
  cases text with
  | nil => cases h
  | cons c others =>
      rw [front] at h
      split at h
      · obtain ⟨part, htext, hfree, hnone⟩ := numeral_parts h
        exact ⟨part, htext, .inl hfree, fun name hname ↦ absurd hname (hnone name)⟩
      · split at h
        · rename_i hstart
          obtain ⟨rfl, rfl⟩ := Prod.mk.inj (Except.ok.inj h)
          have hrest := free_start_drop_while others
          refine ⟨c :: others.takeWhile isNameChar, ?_, .inr hrest, fun name hname ↦
            ⟨eq_of_word_eq_name hname, hrest, fun hfree ↦ ?_⟩⟩
          · rw [List.cons_append, List.takeWhile_append_dropWhile]
          · cases (name_char_of_name_start hstart).symm.trans (hfree c rfl)
        · rename_i hstart
          split at h
          · rename_i mark hmark
            obtain ⟨rfl, rfl⟩ := Prod.mk.inj (Except.ok.inj h)
            refine ⟨[c], rfl, .inl (.concat (Bool.not_eq_true _ ▸ hstart) []), fun name hname ↦ ?_⟩
            subst hname
            unfold ofMark? at hmark
            split at hmark <;> cases hmark
          · cases h

/-! ### Texts -/

/-- Every name among the tokens of a text stands in it, and in every longer text in front of whose
end no name goes on into it. -/
theorem name_stands_from {before : Text} (h : scanFrom text = .ok tokens)
    (hfree : FreeEnd before ∨ FreeStart text) (hname : .name name ∈ tokens) :
    StandsIn name (before ++ text) := by
  fun_induction scanFrom text generalizing before tokens with
  | case1 =>
      obtain rfl := Except.ok.inj h
      cases hname
  | case2 c rest hseparator ih =>
      have hc : isNameStart c = false := by
        simp only [isSeparator, Bool.or_eq_true, beq_iff_eq] at hseparator
        rcases hseparator with ((rfl | rfl) | rfl) | rfl <;> decide
      have hbefore := ih h (.inl (FreeEnd.concat hc before)) hname
      rwa [List.append_assoc, List.singleton_append] at hbefore
  | case3 => cases h
  | case4 c rest _ token others hread hshorter ih =>
      obtain ⟨part, htext, hjoint, htoken⟩ := front_parts hread
      cases hothers : scanFrom others with
      | error obstacle =>
          rw [hothers] at h
          cases h
      | ok more =>
          rw [hothers] at h
          obtain rfl := Except.ok.inj h
          rcases List.mem_cons.mp hname with hfirst | hmore
          · obtain ⟨rfl, hrest, hstarts⟩ := htoken name hfirst.symm
            exact ⟨before, others, by rw [htext, List.append_assoc],
              hfree.resolve_right hstarts, hrest⟩
          · have hsome : part ≠ [] := by
              rintro rfl
              rw [htext] at hshorter
              exact absurd hshorter (Nat.lt_irrefl _)
            have hjoin : FreeEnd (before ++ part) ∨ FreeStart others :=
              hjoint.imp_left (FreeEnd.append_right hsome)
            have hbefore := ih hothers hjoin hmore
            rwa [List.append_assoc, ← htext] at hbefore

/-- Every name among the tokens of a text stands in it. -/
theorem name_stands (h : scan text = .ok tokens) (hname : .name name ∈ tokens) :
    StandsIn name text := by
  unfold scan at h
  cases htokens : scanFrom text with
  | error obstacle =>
      rw [htokens] at h
      cases h
  | ok found =>
      rw [htokens] at h
      obtain rfl := Except.ok.inj h
      exact name_stands_from htokens (.inl .nil) hname

end PenScript.Token
