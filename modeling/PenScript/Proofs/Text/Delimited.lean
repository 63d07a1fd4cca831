import PenScript.Text

/-!
# Delimited texts

Where values are written one after another, a reader has to see where one ends and the next begins.
A way of writing is `Delimited` when what is written of a value, together with what follows it,
determines both. A numeral is delimited by anything but a digit (`delimited_of_nat`,
`delimited_of_int`), and one delimited text after another is delimited as the last one is
(`Delimited.pair`).
-/

namespace PenScript.Text

/-- What is written of a value can be told from what follows it, where only such texts as the
condition allows follow. -/
def Delimited {α : Type} (follows : Text → Prop) (write : α → Text) : Prop :=
  ∀ ⦃first second : α⦄ ⦃after other : Text⦄, follows after → follows other →
    write first ++ after = write second ++ other → first = second ∧ after = other

/-- The text does not go on with a digit. -/
def NoDigit (text : Text) : Prop :=
  ∀ c ∈ text.head?, c.isDigit = false

theorem NoDigit.nil : NoDigit [] := by
  intro c hc
  cases hc

theorem NoDigit.cons {c : Char} (h : c.isDigit = false) (rest : Text) : NoDigit (c :: rest) := by
  intro d hd
  obtain rfl := Option.some.inj hd
  exact h

/-- A run of characters of one class is taken as a whole. -/
theorem split_run {part rest : Text} {p : Char → Bool} (hpart : ∀ c ∈ part, p c = true)
    (hrest : ∀ c ∈ rest.head?, p c = false) :
    (part ++ rest).takeWhile p = part ∧ (part ++ rest).dropWhile p = rest := by
  rw [List.takeWhile_append_of_pos hpart, List.dropWhile_append_of_pos hpart]
  cases rest with
  | nil => simp
  | cons c others => simp [hrest c rfl]

namespace Delimited

variable {α β : Type} {follows between : Text → Prop} {write : α → Text} {writeLast : β → Text}

/-- A value whose whole text is a run of characters of one class is delimited by any other
character. -/
theorem of_run {p : Char → Bool} (hinjective : Function.Injective write)
    (hrun : ∀ value, ∀ c ∈ write value, p c = true) :
    Delimited (fun rest ↦ ∀ c ∈ rest.head?, p c = false) write := by
  intro first second after other hafter hother h
  obtain ⟨hfirst, hfollows⟩ := split_run (hrun first) hafter
  obtain ⟨hsecond, hrest⟩ := split_run (hrun second) hother
  rw [h] at hfirst hfollows
  exact ⟨hinjective (hfirst.symm.trans hsecond), hfollows.symm.trans hrest⟩

/-- A value can be written as another one that determines it. -/
theorem comp {f : β → α} (h : Delimited follows write) (hf : Function.Injective f) :
    Delimited follows fun value ↦ write (f value) := by
  intro first second after other hafter hother heq
  obtain ⟨hsame, hrest⟩ := h hafter hother heq
  exact ⟨hf hsame, hrest⟩

/-- Two values one after another, with a separator that delimits the first one. -/
theorem pair (h : Delimited between write) (hlast : Delimited follows writeLast) (separator : Text)
    (hbetween : ∀ rest, between (separator ++ rest)) :
    Delimited follows fun pair : α × β ↦ write pair.1 ++ separator ++ writeLast pair.2 := by
  intro ⟨first, firstLast⟩ ⟨second, secondLast⟩ after other hafter hother heq
  simp only [List.append_assoc] at heq
  obtain ⟨hsame, hrest⟩ := h (hbetween _) (hbetween _) heq
  obtain ⟨hsameLast, hrest⟩ := hlast hafter hother (List.append_cancel_left hrest)
  exact ⟨Prod.ext hsame hsameLast, hrest⟩

/-- What is delimited by nothing more is written in different ways for different values. -/
theorem injective (h : Delimited follows write) (hnil : follows []) : Function.Injective write := by
  intro first second heq
  exact (h hnil hnil (congrArg (· ++ []) heq)).1

end Delimited

/-! ### Numerals -/

/-- The digits up to base 16 are different characters. -/
theorem digit_char_injective {first second : Nat} (hfirst : first < 16) (hsecond : second < 16)
    (h : first.digitChar = second.digitChar) : first = second := by
  have hall : ∀ first second : Fin 16, first.val.digitChar = second.val.digitChar →
      first = second := by decide
  exact congrArg Fin.val (hall ⟨first, hfirst⟩ ⟨second, hsecond⟩ h)

/-- A numeral determines its number, in every base up to 16. -/
theorem to_digits_injective {base : Nat} (hbase : 1 < base) (hle : base ≤ 16) :
    Function.Injective (Nat.toDigits base) := by
  intro first second h
  induction first using Nat.strongRecOn generalizing second with
  | ind first ih =>
      rw [Nat.toDigits_eq_if hbase, Nat.toDigits_eq_if hbase (n := second)] at h
      by_cases hfirst : first < base
      · by_cases hsecond : second < base
        · rw [if_pos hfirst, if_pos hsecond] at h
          exact digit_char_injective (by omega) (by omega) (List.singleton_inj.mp h)
        · rw [if_pos hfirst, if_neg hsecond, ← List.nil_append [first.digitChar]] at h
          exact absurd (List.append_inj_left' h rfl).symm Nat.toDigits_ne_nil
      · by_cases hsecond : second < base
        · rw [if_neg hfirst, if_pos hsecond, ← List.nil_append [second.digitChar]] at h
          exact absurd (List.append_inj_left' h rfl) Nat.toDigits_ne_nil
        · -- The last digits agree, and so do the numerals in front of them.
          rw [if_neg hfirst, if_neg hsecond] at h
          obtain ⟨hfront, hlast⟩ := List.append_inj' h rfl
          have hquotient := ih (first / base) (Nat.div_lt_self (by omega) hbase) hfront
          have hfirstMod := Nat.mod_lt first (by omega : 0 < base)
          have hsecondMod := Nat.mod_lt second (by omega : 0 < base)
          have hremainder : first % base = second % base :=
            digit_char_injective (by omega) (by omega) (List.singleton_inj.mp hlast)
          rw [← Nat.div_add_mod first base, ← Nat.div_add_mod second base, hquotient, hremainder]

/-- A numeral is written with the digits of its base. -/
theorem digit_of_mem_to_digits {base number : Nat} (hbase : 1 < base) {c : Char}
    (h : c ∈ Nat.toDigits base number) : ∃ digit < base, c = digit.digitChar := by
  induction number using Nat.strongRecOn with
  | ind number ih =>
      rw [Nat.toDigits_eq_if hbase] at h
      by_cases hnumber : number < base
      · rw [if_pos hnumber] at h
        exact ⟨number, hnumber, List.mem_singleton.mp h⟩
      · rw [if_neg hnumber] at h
        rcases List.mem_append.mp h with hfront | hlast
        · exact ih (number / base) (Nat.div_lt_self (by omega) hbase) hfront
        · exact ⟨number % base, Nat.mod_lt number (by omega), List.mem_singleton.mp hlast⟩

/-- A decimal numeral consists of digits. -/
theorem digit_of_mem_of_nat {number : Nat} {c : Char} (h : c ∈ ofNat number) :
    c.isDigit = true :=
  Nat.isDigit_of_mem_toDigits (by decide) (Nat.le_refl 10) h

/-- A decimal numeral is delimited by anything but a digit. -/
theorem delimited_of_nat : Delimited NoDigit ofNat :=
  .of_run (to_digits_injective (by decide) (by decide)) fun _ _ hc ↦ digit_of_mem_of_nat hc

/-- A decimal numeral with a sign is delimited by anything but a digit. -/
theorem delimited_of_int : Delimited NoDigit ofInt := by
  have hsign : ∀ number after rest, ofNat number ++ after ≠ '-' :: rest := by
    intro number after rest h
    obtain ⟨c, others, hnumber⟩ := List.exists_cons_of_ne_nil (Nat.toDigits_ne_nil (n := number)
      (b := 10))
    have hdigit := @digit_of_mem_of_nat number c (by simp [ofNat, hnumber])
    rw [ofNat, hnumber] at h
    obtain rfl := (List.cons.inj h).1
    cases hdigit
  intro first second after other hafter hother h
  unfold ofInt at h
  by_cases hfirst : first < 0
  · by_cases hsecond : second < 0
    · rw [if_pos hfirst, if_pos hsecond] at h
      obtain ⟨hsame, hrest⟩ := delimited_of_nat hafter hother (List.cons.inj h).2
      exact ⟨by omega, hrest⟩
    · rw [if_pos hfirst, if_neg hsecond] at h
      exact absurd h.symm (hsign _ _ _)
  · by_cases hsecond : second < 0
    · rw [if_neg hfirst, if_pos hsecond] at h
      exact absurd h (hsign _ _ _)
    · rw [if_neg hfirst, if_neg hsecond] at h
      obtain ⟨hsame, hrest⟩ := delimited_of_nat hafter hother h
      exact ⟨by omega, hrest⟩

end PenScript.Text
