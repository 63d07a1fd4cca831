import Mathlib.Data.List.Infix
import PenScript.Proofs.Text.Trim

/-!
# Where names stand

A part stands in a text when it is nowhere continued by a name: no letter and no underscore is in
front of it, and no character of names behind it. A digit may be in front of it, because a name may
follow a numeral directly. What stands in a part that stands in a text stands in the text
(`StandsIn.trans`), and texts are taken apart at characters that no name has, so it is enough to
know for each way of taking a text apart that its parts stand in it.
-/

namespace PenScript.Text

variable {text part whole word before after left right rest : Text} {c : Char}

/-- A name may start behind the text. -/
def FreeEnd (text : Text) : Prop :=
  ∀ c ∈ text.getLast?, isNameStart c = false

/-- A name may end in front of the text. -/
def FreeStart (text : Text) : Prop :=
  ∀ c ∈ text.head?, isNameChar c = false

/-- The part is somewhere in the text with no letter and no underscore in front of it and no
character of names behind it. -/
def StandsIn (part whole : Text) : Prop :=
  ∃ before after, whole = before ++ part ++ after ∧ FreeEnd before ∧ FreeStart after

instance (text : Text) : Decidable (FreeEnd text) :=
  Option.decidableForallMem text.getLast?

instance (text : Text) : Decidable (FreeStart text) :=
  Option.decidableForallMem text.head?

instance (part whole : Text) : Decidable (StandsIn part whole) :=
  decidable_of_iff
    (∃ before ∈ whole.inits, ∃ after ∈ whole.tails,
      whole = before ++ part ++ after ∧ FreeEnd before ∧ FreeStart after)
    ⟨fun ⟨before, _, after, _, h⟩ ↦ ⟨before, after, h⟩, fun ⟨before, after, h⟩ ↦
      ⟨before, (List.mem_inits _ _).mpr ⟨part ++ after, by rw [h.1, List.append_assoc]⟩,
        after, (List.mem_tails _ _).mpr ⟨before ++ part, h.1.symm⟩, h⟩⟩

/-! ### Ends of texts -/

/-- What is no character of names starts no name. -/
theorem not_name_start (h : isNameChar c = false) : isNameStart c = false := by
  rw [← Bool.not_eq_true] at h ⊢
  exact mt name_char_of_name_start h

theorem FreeEnd.nil : FreeEnd [] := fun _ hc ↦ nomatch hc

theorem FreeStart.nil : FreeStart [] := fun _ hc ↦ nomatch hc

theorem FreeStart.cons (h : isNameChar c = false) (rest : Text) : FreeStart (c :: rest) := by
  rintro d hd
  obtain rfl := Option.some.inj hd
  exact h

theorem FreeEnd.concat (h : isNameStart c = false) (before : Text) : FreeEnd (before ++ [c]) := by
  rintro d hd
  rw [List.getLast?_concat] at hd
  obtain rfl := Option.some.inj hd
  exact h

/-- Where two texts end is where the last of them ends. -/
theorem FreeEnd.append_right (hsome : right ≠ []) (h : FreeEnd right) :
    FreeEnd (left ++ right) := by
  intro c hc
  rw [List.getLast?_append_of_ne_nil left hsome] at hc
  exact h c hc

theorem FreeEnd.append (hleft : FreeEnd left) (hright : FreeEnd right) :
    FreeEnd (left ++ right) := by
  by_cases hsome : right = []
  · rwa [hsome, List.append_nil]
  · exact .append_right hsome hright

/-- Where a text starts that is not empty does not depend on what follows it. -/
theorem FreeStart.append (hleft : FreeStart left) (hright : FreeStart right) :
    FreeStart (left ++ right) := by
  cases left with
  | nil => exact hright
  | cons c rest => exact hleft

/-- A text of characters that start no name ends where a name may start. -/
theorem FreeEnd.of_forall (h : ∀ c ∈ text, isNameStart c = false) : FreeEnd text :=
  fun c hc ↦ h c (List.mem_of_getLast? hc)

/-- A text of characters that no name has starts where a name may end. -/
theorem FreeStart.of_forall (h : ∀ c ∈ text, isNameChar c = false) : FreeStart text :=
  fun c hc ↦ h c (List.mem_of_head? hc)

/-- No name goes on into blanks. -/
theorem Blank.free (h : Blank text) : FreeEnd text ∧ FreeStart text := by
  have hnone : ∀ c ∈ text, isNameChar c = false := by
    intro c hc
    rw [← Bool.not_eq_true]
    intro hname
    cases (h c hc).symm.trans (not_blank_of_name_char hname)
  exact ⟨.of_forall fun c hc ↦ not_name_start (hnone c hc), .of_forall hnone⟩

/-! ### Parts of texts -/

namespace StandsIn

/-- What stands in a part of a text stands in the text. -/
theorem trans (h : StandsIn word part) (hpart : StandsIn part whole) : StandsIn word whole := by
  obtain ⟨left, right, rfl, hleft, hright⟩ := h
  obtain ⟨before, after, rfl, hbefore, hafter⟩ := hpart
  refine ⟨before ++ left, right ++ after, ?_, hbefore.append hleft, hright.append hafter⟩
  simp only [List.append_assoc]

/-- The start of a text stands in it when no name goes on behind it. -/
theorem of_start (h : FreeStart after) : StandsIn part (part ++ after) :=
  ⟨[], after, rfl, .nil, h⟩

/-- The end of a text stands in it when no name goes on into it. -/
theorem of_end (h : FreeEnd before) : StandsIn part (before ++ part) :=
  ⟨before, [], (List.append_nil _).symm, h, .nil⟩

/-- The inside of a trimmed text stands in the text. -/
theorem trim (text : Text) : StandsIn (trim text) text := by
  obtain ⟨before, after, hbefore, hafter, htext⟩ := exists_blanks text
  exact ⟨before, after, htext, hbefore.free.1, hafter.free.2⟩

end StandsIn

end PenScript.Text
