import PenScript.Proofs.Expression.Sealed
import PenScript.Proofs.Text.Standing

/-!
# The parts of an expression

An expression is taken apart at blanks, parentheses, operators and plus signs, and none of these is
a character of names. So each part that is evaluated stands in the expression, and so does every
word of it.
-/

namespace PenScript

open Text

/-- The text is made of characters that no name has, and is not empty. -/
structure IsOperator (mark : Text) : Prop where
  nonempty : mark ≠ []
  free : ∀ c ∈ mark, isNameChar c = false

instance (mark : Text) : Decidable (IsOperator mark) :=
  have := List.decidableBAll (fun c ↦ isNameChar c = false) mark
  decidable_of_iff (mark ≠ [] ∧ ∀ c ∈ mark, isNameChar c = false)
    ⟨fun h ↦ ⟨h.1, h.2⟩, fun h ↦ ⟨h.1, h.2⟩⟩

namespace Nesting

variable {α : Type} {operator? : Text → Option (α × Text)} {operator : α}
  {isCut : Char → Bool} {nesting : Nesting} {text left right : Text}

/-- An operator that is found in a text is read behind what is left of it. -/
theorem find_operator_parts
    (h : findOperator operator? nesting text = some (left, operator, right)) :
    ∃ rest, text = left ++ rest ∧ operator? rest = some (operator, right) := by
  induction text generalizing nesting left with
  | nil => cases h
  | cons c rest ih =>
      rw [findOperator] at h
      split at h
      · rename_i hread
        obtain ⟨rfl, rfl, rfl⟩ : [] = left ∧ _ = operator ∧ _ = right := by
          simpa only [Option.some.injEq, Prod.mk.injEq] using h
        split at hread
        · exact ⟨c :: rest, rfl, hread⟩
        · cases hread
      · obtain ⟨⟨first, _, _⟩, hfound, hparts⟩ := Option.map_eq_some_iff.mp h
        obtain ⟨rfl, rfl, rfl⟩ : c :: first = left ∧ _ = operator ∧ _ = right := by
          simpa only [Prod.mk.injEq] using hparts
        obtain ⟨others, rfl, hread⟩ := ih hfound
        exact ⟨others, rfl, hread⟩

/-- Both sides of an operator stand in the text that it is found in. -/
theorem sides_stand (hoperator : ∀ {rest operator right}, operator? rest = some (operator, right) →
      ∃ mark, rest = mark ++ right ∧ IsOperator mark)
    (h : findOperator operator? nesting text = some (left, operator, right)) :
    StandsIn left text ∧ StandsIn right text := by
  obtain ⟨rest, rfl, hread⟩ := find_operator_parts h
  obtain ⟨mark, rfl, hmark⟩ := hoperator hread
  constructor
  · refine .of_start fun c hc ↦ ?_
    rw [List.head?_append_of_ne_nil mark hmark.nonempty] at hc
    exact hmark.free c (List.mem_of_head? hc)
  · rw [← List.append_assoc]
    exact .of_end (.append_right hmark.nonempty
      (.of_forall fun c hc ↦ not_name_start (hmark.free c hc)))

/-- Parts with characters between them that no name has stand in the text that they make up. -/
theorem stands_in_glue {others : List (Char × Text)}
    (h : ∀ part ∈ others, isNameChar part.1 = false) (first : Text) :
    ∀ part ∈ first :: others.map Prod.snd, StandsIn part (glue first others) := by
  induction others generalizing first with
  | nil =>
      intro part hpart
      obtain rfl := List.mem_singleton.mp hpart
      exact .of_start .nil
  | cons next others ih =>
      obtain ⟨hnext, hothers⟩ := List.forall_mem_cons.mp h
      have hglue : glue first (next :: others) = first ++ [next.1] ++ glue next.2 others := by
        simp [glue]
      rw [List.map_cons]
      refine List.forall_mem_cons.mpr ⟨?_, fun part hpart ↦ ?_⟩
      · rw [hglue, List.append_assoc]
        exact .of_start (.cons hnext _)
      · rw [hglue]
        exact (ih hothers next.2 part hpart).trans
          (.of_end (.concat (not_name_start hnext) first))

end Nesting

/-- The parts of a text between separators that no name has stand in the text. -/
theorem Text.part_stands {separator : Char} (hseparator : isNameChar separator = false)
    {text part : Text} (h : part ∈ splitOutside separator text) : StandsIn part text := by
  have hchars : ∀ other ∈ (Nesting.cut (· == separator) Nesting.start text).2,
      isNameChar other.1 = false := by
    intro other hother
    have hchar : (other.1 == separator) = true :=
      Nesting.cut_char (· == separator) Nesting.start text other hother
    rwa [beq_iff_eq.mp hchar]
  have hstands := Nesting.stands_in_glue hchars _ part h
  rwa [Nesting.glue_cut] at hstands

/-- A comparison is written with characters that no name has. -/
theorem Comparison.front_parts {text right : Text} {comparison : Comparison}
    (h : front? text = some (comparison, right)) :
    ∃ mark, text = mark ++ right ∧ IsOperator mark := by
  unfold front? at h
  split at h <;> cases h
  · exact ⟨['<', '='], rfl, by decide⟩
  · exact ⟨['>', '='], rfl, by decide⟩
  · exact ⟨['=', '='], rfl, by decide⟩
  · exact ⟨['!', '='], rfl, by decide⟩
  · exact ⟨['<'], rfl, by decide⟩
  · exact ⟨['>'], rfl, by decide⟩

/-- A connective is written with characters that no name has. -/
theorem Connective.front_parts {text right : Text} {connective : Connective}
    (h : front? text = some (connective, right)) :
    ∃ mark, text = mark ++ right ∧ IsOperator mark := by
  unfold front? at h
  split at h <;> cases h
  · exact ⟨['&', '&'], rfl, by decide⟩
  · exact ⟨['|', '|'], rfl, by decide⟩

namespace Expression

variable {text inner rest : Text}

/-- What parentheses enclose stands in the text with them. -/
theorem enclosed_stands (h : enclosed? text = some inner) : StandsIn inner text :=
  ⟨['('], [')'], enclosed_eq h, by decide, by decide⟩

/-- The core of a text stands in it. -/
theorem core_stands (text : Text) : StandsIn (core text) text := by
  fun_induction core text with
  | case1 text _ => exact .trim text
  | case2 text inner henclosed _ ih =>
      exact ih.trans ((enclosed_stands henclosed).trans (.trim text))

/-- What is negated stands in the negation. -/
theorem negated_stands (h : negated? text = some rest) : StandsIn rest text := by
  unfold negated? at h
  split at h
  · split at h <;> cases h
    have hmark : FreeEnd ['!'] := by decide
    exact .of_end hmark
  · cases h

end Expression

end PenScript
