import Mathlib.Order.Bounds.Basic
import PenScript.Suggestion

/-!
# Edits of texts

`Edit` is one edit of one character anywhere in a text, and `Edits` counts the edits of a sequence
of them, which may go through any texts. `edits` compares two texts from their first characters on,
and `least_edits` says that no sequence of edits is shorter than that and that one is as short.
-/

namespace PenScript.Suggestion

/-- A text becomes another one when one character is inserted, deleted or replaced. -/
inductive Edit : Text → Text → Prop where
  | insert (before after : Text) (c : Char) : Edit (before ++ after) (before ++ c :: after)
  | delete (before after : Text) (c : Char) : Edit (before ++ c :: after) (before ++ after)
  | replace (before after : Text) (c d : Char) :
      Edit (before ++ c :: after) (before ++ d :: after)

/-- A text becomes another one by this number of edits. -/
inductive Edits : Nat → Text → Text → Prop where
  | none (text : Text) : Edits 0 text text
  | more {count : Nat} {text middle other : Text} :
      Edits count text middle → Edit middle other → Edits (count + 1) text other

/-- The cost of the best way to go through two texts from their first characters on. A character of
one of them costs an edit by itself, and two characters together cost one when they differ. -/
def edits : Text → Text → Nat
  | [], other => other.length
  | text, [] => text.length
  | c :: text, d :: other =>
      min (edits text (d :: other) + 1)
        (min (edits (c :: text) other + 1) (edits text other + if c = d then 0 else 1))
termination_by text other => text.length + other.length

/-! ### Sequences of edits -/

/-- An edit can be made in a longer text. -/
theorem Edit.cons {text other : Text} (h : Edit text other) (first : Char) :
    Edit (first :: text) (first :: other) := by
  cases h with
  | insert before after c => exact .insert (first :: before) after c
  | delete before after c => exact .delete (first :: before) after c
  | replace before after c d => exact .replace (first :: before) after c d

/-- An edit can be made in the reversed text. -/
theorem Edit.reverse {text other : Text} (h : Edit text other) :
    Edit text.reverse other.reverse := by
  cases h with
  | insert before after c => simpa using Edit.insert after.reverse before.reverse c
  | delete before after c => simpa using Edit.delete after.reverse before.reverse c
  | replace before after c d => simpa using Edit.replace after.reverse before.reverse c d

namespace Edits

variable {count more : Nat} {text middle other : Text}

/-- One edit. -/
theorem single (h : Edit text other) : Edits 1 text other :=
  .more (.none text) h

/-- The edits of one sequence after those of another. -/
theorem append (h : Edits count text middle) (hmore : Edits more middle other) :
    Edits (count + more) text other := by
  induction hmore with
  | none => exact h
  | more _ hedit ih => exact .more (ih h) hedit

/-- The smaller of two numbers of edits. -/
theorem of_min (h : Edits count text other) (hmore : Edits more text other) :
    Edits (min count more) text other := by
  rcases Nat.le_total count more with hle | hle
  · rwa [min_eq_left hle]
  · rwa [min_eq_right hle]

/-- Edits can be made in a longer text. -/
theorem cons (h : Edits count text other) (first : Char) :
    Edits count (first :: text) (first :: other) := by
  induction h with
  | none => exact .none _
  | more _ hedit ih => exact .more ih (hedit.cons first)

/-- Edits can be made in the reversed text. -/
theorem reverse (h : Edits count text other) : Edits count text.reverse other.reverse := by
  induction h with
  | none => exact .none _
  | more _ hedit ih => exact .more ih hedit.reverse

/-- Two texts are as many edits apart as the reversed texts. -/
theorem reverse_iff : Edits count text.reverse other.reverse ↔ Edits count text other := by
  refine ⟨fun h ↦ ?_, reverse⟩
  simpa using h.reverse

/-- All characters of a text can be inserted one by one. -/
theorem insert_all (other : Text) : Edits other.length [] other := by
  induction other with
  | nil => exact .none []
  | cons c other ih => exact .more ih (.insert [] other c)

/-- All characters of a text can be deleted one by one. -/
theorem delete_all (text : Text) : Edits text.length text [] := by
  induction text with
  | nil => exact .none []
  | cons c text ih =>
      rw [List.length_cons, Nat.add_comm]
      exact (single (.delete [] text c)).append ih

end Edits

/-! ### The cost of going through two texts -/

@[simp] theorem edits_nil_left (other : Text) : edits [] other = other.length := by
  rw [edits]

@[simp] theorem edits_nil_right (text : Text) : edits text [] = text.length := by
  cases text with
  | nil => exact edits_nil_left []
  | cons c text =>
      rw [edits]
      exact fun h ↦ List.cons_ne_nil c text h

theorem edits_cons_cons (c d : Char) (text other : Text) :
    edits (c :: text) (d :: other) =
      min (edits text (d :: other) + 1)
        (min (edits (c :: text) other + 1) (edits text other + if c = d then 0 else 1)) := by
  rw [edits]

/-- There are as many edits as the cost says. -/
theorem edits_of_cost (text other : Text) : Edits (edits text other) text other := by
  fun_induction edits text other with
  | case1 other => exact .insert_all other
  | case2 text => exact .delete_all text
  | case3 c text d other ihtext ihother ihboth =>
      -- The cost is that of the first characters, together or alone, and that of the rest.
      have hdelete : Edits (edits text (d :: other) + 1) (c :: text) (d :: other) := by
        rw [Nat.add_comm]
        exact (Edits.single (.delete [] text c)).append ihtext
      have hinsert : Edits (edits (c :: text) other + 1) (c :: text) (d :: other) :=
        .more ihother (.insert [] other d)
      have hboth : Edits (edits text other + if c = d then 0 else 1) (c :: text) (d :: other) := by
        by_cases hsame : c = d
        · rw [if_pos hsame, hsame]
          exact ihboth.cons d
        · rw [if_neg hsame]
          exact .more (ihboth.cons c) (.replace [] other c d)
      exact hdelete.of_min (hinsert.of_min hboth)

/-- A text costs nothing against itself. -/
theorem edits_self (text : Text) : edits text text = 0 := by
  induction text with
  | nil => rw [edits_nil_left, List.length_nil]
  | cons c text ih => simp [edits_cons_cons, ih]

/-- One more character in front of the first text costs an edit at most. -/
theorem edits_cons_left (c : Char) (text other : Text) :
    edits (c :: text) other ≤ edits text other + 1 := by
  cases other with
  | nil => simp
  | cons d other =>
      rw [edits_cons_cons]
      omega

/-- One more character in front of the second text costs an edit at most. -/
theorem edits_insert (text after : Text) (d : Char) :
    edits text (d :: after) ≤ edits text after + 1 := by
  cases text with
  | nil => simp
  | cons c text =>
      rw [edits_cons_cons]
      omega

/-- One character less in front of the second text costs an edit at most. -/
theorem edits_delete (text after : Text) (d : Char) :
    edits text after ≤ edits text (d :: after) + 1 := by
  induction text with
  | nil =>
      simp only [edits_nil_left, List.length_cons]
      omega
  | cons c text ih =>
      have hleft := edits_cons_left c text after
      rw [edits_cons_cons]
      omega

/-- Another character in front of the second text costs an edit at most. -/
theorem edits_replace (text after : Text) (c d : Char) :
    edits text (d :: after) ≤ edits text (c :: after) + 1 := by
  induction text with
  | nil => simp
  | cons first text ih =>
      have hcost : (if first = d then 0 else 1) ≤ (if first = c then 0 else 1) + 1 := by
        split <;> omega
      rw [edits_cons_cons, edits_cons_cons]
      omega

/-- What holds of the cost against two texts holds with the same character in front of both. -/
theorem edits_cons_le {second third : Text} (h : ∀ text, edits text third ≤ edits text second + 1)
    (d : Char) (text : Text) : edits text (d :: third) ≤ edits text (d :: second) + 1 := by
  induction text with
  | nil =>
      have hnil := h []
      simp only [edits_nil_left, List.length_cons] at hnil ⊢
      omega
  | cons c text ih =>
      have hrest := h text
      have hsame := h (c :: text)
      rw [edits_cons_cons, edits_cons_cons]
      omega

/-- An edit of the second text raises the cost by one at most. -/
theorem edits_le_of_edit {middle other : Text} (h : Edit middle other) (text : Text) :
    edits text other ≤ edits text middle + 1 := by
  cases h with
  | insert before after c =>
      induction before generalizing text with
      | nil => exact edits_insert text after c
      | cons d before ih => exact edits_cons_le ih d text
  | delete before after c =>
      induction before generalizing text with
      | nil => exact edits_delete text after c
      | cons d before ih => exact edits_cons_le ih d text
  | replace before after c d =>
      induction before generalizing text with
      | nil => exact edits_replace text after c d
      | cons d before ih => exact edits_cons_le ih d text

/-- No sequence of edits is shorter than the cost. -/
theorem edits_le {count : Nat} {text other : Text} (h : Edits count text other) :
    edits text other ≤ count := by
  induction h with
  | none text => exact Nat.le_of_eq (edits_self text)
  | more _ hedit ih =>
      have hlast := edits_le_of_edit hedit
      exact Nat.le_trans (hlast _) (Nat.succ_le_succ ih)

/-- The cost is the least number of edits that turn one text into the other. -/
theorem least_edits (text other : Text) :
    IsLeast {count | Edits count text other} (edits text other) :=
  ⟨edits_of_cost text other, fun _ h ↦ edits_le h⟩

end PenScript.Suggestion
