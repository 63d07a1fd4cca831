import PenScript.Proofs.Program.Tree

/-!
# Programs with more blank lines and comments

A program is padded when blank lines and comments are put between its lines. All that changes for
the other lines are their numbers. `Program.Padded` compares the nesting trees of a program and of a
padded one, node by node, and keeps the numbers of the lines that errors are reported on.
`Program.exists_padded` puts one line at any place of a program, between a header and its body as
well as inside a block.
-/

namespace PenScript

namespace Program

/-- The second program is the first one with more lines that are skipped. The numbers are those of
the first lines of the two programs, and a line of the first one has its number given by `renumber`
in the second one. -/
inductive Padded (renumber : Nat → Nat) : Nat → Program → Nat → Program → Prop where
  | empty {number other : Nat} : Padded renumber number .empty other .empty
  | skip {number other : Nat} {program padded : Program} {text : Text}
      (skipped : Line.kind text = .skipped) :
      Padded renumber number program (other + 1) padded →
      Padded renumber number program other (.line text (.inl skipped) padded)
  | line {number other : Nat} {text : Text}
      {plain : Line.kind text = .skipped ∨ Line.kind text = .statement} {rest others : Program} :
      other = renumber number →
      Padded renumber (number + 1) rest (other + 1) others →
      Padded renumber number (.line text plain rest) other (.line text plain others)
  | block {number other : Nat} {kind : BlockKind} {header closer : Text}
      {opens : Line.kind header = .opener kind} {closes : Line.kind closer = .closer kind}
      {body inside rest others : Program} :
      other = renumber number →
      Padded renumber (number + 1) body (other + 1) inside →
      other + 1 + inside.size = renumber (number + 1 + body.size) →
      Padded renumber (number + 1 + body.size + 1) rest (other + 1 + inside.size + 1) others →
      Padded renumber number (.block kind header opens body closer closes rest) other
        (.block kind header opens inside closer closes others)
  | branches {number other : Nat} {header otherwise closer : Text}
      {opens : Line.kind header = .opener .conditional}
      {turns : Line.kind otherwise = .otherwise}
      {closes : Line.kind closer = .closer .conditional}
      {yes inside no outside rest others : Program} :
      other = renumber number →
      Padded renumber (number + 1) yes (other + 1) inside →
      Padded renumber (number + 1 + yes.size + 1) no (other + 1 + inside.size + 1) outside →
      Padded renumber (number + 1 + yes.size + 1 + no.size + 1) rest
        (other + 1 + inside.size + 1 + outside.size + 1) others →
      Padded renumber number (.branches header opens yes otherwise turns no closer closes rest)
        other (.branches header opens inside otherwise turns outside closer closes others)

/-- A program whose lines are all renumbered by the same amount is the same program further down. -/
theorem padded_self {renumber : Nat → Nat} (shift : Nat) (program : Program) (number : Nat)
    (h : ∀ line, number ≤ line → line < number + program.size → renumber line = line + shift) :
    Padded renumber number program (number + shift) program := by
  induction program generalizing number with
  | empty => exact .empty
  | line text plain rest ih =>
      rw [size] at h
      have hrest := ih (number + 1) fun line hle hlt ↦ h line (by omega) (by omega)
      have hnumber : number + 1 + shift = number + shift + 1 := by omega
      exact .line (h number (by omega) (by omega)).symm (hnumber ▸ hrest)
  | block kind header opens body closer closes rest ihbody ihrest =>
      rw [size] at h
      have hbody := ihbody (number + 1) fun line hle hlt ↦ h line (by omega) (by omega)
      have hrest := ihrest (number + 1 + body.size + 1) fun line hle hlt ↦
        h line (by omega) (by omega)
      have hcloser := h (number + 1 + body.size) (by omega) (by omega)
      have hinside : number + 1 + shift = number + shift + 1 := by omega
      have hafter : number + 1 + body.size + 1 + shift = number + shift + 1 + body.size + 1 := by
        omega
      refine .block (h number (by omega) (by omega)).symm (hinside ▸ hbody) ?_ (hafter ▸ hrest)
      omega
  | branches header opens yes otherwise turns no closer closes rest ihyes ihno ihrest =>
      rw [size] at h
      have hyes := ihyes (number + 1) fun line hle hlt ↦ h line (by omega) (by omega)
      have hno := ihno (number + 1 + yes.size + 1) fun line hle hlt ↦ h line (by omega) (by omega)
      have hrest := ihrest (number + 1 + yes.size + 1 + no.size + 1) fun line hle hlt ↦
        h line (by omega) (by omega)
      have hinside : number + 1 + shift = number + shift + 1 := by omega
      have helse : number + 1 + yes.size + 1 + shift = number + shift + 1 + yes.size + 1 := by
        omega
      have hafter : number + 1 + yes.size + 1 + no.size + 1 + shift =
          number + shift + 1 + yes.size + 1 + no.size + 1 := by
        omega
      exact .branches (h number (by omega) (by omega)).symm (hinside ▸ hyes) (helse ▸ hno)
        (hafter ▸ hrest)

end Program

/-- The number of a line after one line has been put in behind the first `count` ones. -/
def movedAfter (count number : Nat) : Nat :=
  if count < number then number + 1 else number

theorem moved_after_of_lt {count number : Nat} (h : count < number) :
    movedAfter count number = number + 1 := if_pos h

theorem moved_after_of_le {count number : Nat} (h : number ≤ count) :
    movedAfter count number = number := if_neg (by omega)

namespace Program

section Insertion

variable {count : Nat}

/-- The part of a program before the line that is put in keeps its numbers. -/
theorem padded_before (program : Program) {number : Nat} (h : number + program.size ≤ count + 1) :
    Padded (movedAfter count) number program number program :=
  padded_self 0 program number fun _ _ _ ↦ moved_after_of_le (by omega)

/-- The part of a program behind the line that is put in has its numbers moved by one. -/
theorem padded_behind (program : Program) {number : Nat} (h : count < number) :
    Padded (movedAfter count) number program (number + 1) program :=
  padded_self 1 program number fun _ _ _ ↦ moved_after_of_lt (by omega)

/-- A line that is skipped can be put in front of a program. -/
theorem exists_padded_front {text : Text} (skipped : Line.kind text = .skipped) (program : Program)
    {number : Nat} {after : List Text} (hlines : program.lines = after)
    (hcount : number = count + 1) :
    ∃ padded : Program, padded.lines = text :: after ∧
      Padded (movedAfter count) number program number padded := by
  refine ⟨.line text (.inl skipped) program, ?_, .skip skipped (padded_behind program (by omega))⟩
  rw [lines, hlines]

/-- A place in two lists with a line between them is in the first list or in the second one. -/
theorem append_cons_cases {first rest before after : List Text} {line : Text}
    (h : first ++ line :: rest = before ++ after) :
    (∃ inner, first = before ++ inner ∧ after = inner ++ line :: rest) ∨
      ∃ inner, before = first ++ line :: inner ∧ rest = inner ++ after := by
  rcases List.append_eq_append_iff.mp h with ⟨inner, hbefore, hrest⟩ | ⟨inner, hfirst, hafter⟩
  · cases inner with
    | nil =>
        refine .inl ⟨[], ?_, hrest.symm⟩
        rw [hbefore, List.append_nil, List.append_nil]
    | cons other inner =>
        obtain ⟨rfl, htail⟩ := List.cons.inj hrest
        exact .inr ⟨inner, hbefore, htail⟩
  · exact .inl ⟨inner, hfirst, hafter⟩

/-- A line that is put in makes a program longer by one. -/
theorem size_of_put_in {text : Text} {program padded : Program} {before after : List Text}
    (hlines : program.lines = before ++ after) (hpadded : padded.lines = before ++ text :: after) :
    padded.size = program.size + 1 ∧ before.length ≤ program.size := by
  rw [← length_lines program, ← length_lines padded, hlines, hpadded, List.length_append,
    List.length_append, List.length_cons]
  omega

/-- A line that is skipped can be put in at any place of a program. -/
theorem exists_padded {text : Text} (skipped : Line.kind text = .skipped) (program : Program)
    {number : Nat} {before after : List Text} (hlines : program.lines = before ++ after)
    (hcount : number + before.length = count + 1) :
    ∃ padded : Program, padded.lines = before ++ text :: after ∧
      Padded (movedAfter count) number program number padded := by
  induction program generalizing number before after with
  | empty =>
      obtain ⟨rfl, rfl⟩ := List.append_eq_nil_iff.mp hlines.symm
      exact ⟨.line text (.inl skipped) .empty, rfl, .skip skipped .empty⟩
  | line header plain rest ih =>
      cases before with
      | nil => exact exists_padded_front skipped _ hlines hcount
      | cons other before =>
          obtain ⟨rfl, hrest⟩ := List.cons.inj hlines
          rw [List.length_cons] at hcount
          have hnumber : number = movedAfter count number := (moved_after_of_le (by omega)).symm
          obtain ⟨others, hothers, hpadded⟩ := @ih (number + 1) before after hrest (by omega)
          refine ⟨.line header plain others, ?_, .line hnumber hpadded⟩
          rw [lines, hothers, List.cons_append]
  | block kind header opens body closer closes rest ihbody ihrest =>
      cases before with
      | nil => exact exists_padded_front skipped _ hlines hcount
      | cons other before =>
          obtain ⟨rfl, hparts⟩ := List.cons.inj hlines
          rw [List.length_cons] at hcount
          have hnumber : number = movedAfter count number := (moved_after_of_le (by omega)).symm
          rcases append_cons_cases hparts with ⟨inner, hbody, rfl⟩ | ⟨inner, rfl, hrest⟩
          · -- The line is put into the body.
            obtain ⟨inside, hinside, hpadded⟩ := @ihbody (number + 1) before inner hbody (by omega)
            obtain ⟨hsize, hle⟩ := size_of_put_in hbody hinside
            refine ⟨.block kind header opens inside closer closes rest, ?_,
              .block hnumber hpadded ?_ ?_⟩
            · rw [lines, hinside, List.append_assoc, List.cons_append, List.cons_append]
            · rw [hsize, moved_after_of_lt (by omega)]
              omega
            · have hafter : number + 1 + inside.size + 1 = number + 1 + body.size + 1 + 1 := by
                omega
              exact hafter ▸ padded_behind rest (by omega)
          · -- The line is put in behind the block.
            rw [List.length_append, List.length_cons, length_lines] at hcount
            obtain ⟨others, hothers, hpadded⟩ :=
              @ihrest (number + 1 + body.size + 1) inner after hrest (by omega)
            refine ⟨.block kind header opens body closer closes others, ?_,
              .block hnumber (padded_before body (by omega)) ?_ hpadded⟩
            · rw [lines, hothers, List.cons_append, List.append_assoc, List.cons_append]
            · rw [moved_after_of_le (by omega)]
  | branches header opens yes otherwise turns no closer closes rest ihyes ihno ihrest =>
      cases before with
      | nil => exact exists_padded_front skipped _ hlines hcount
      | cons other before =>
          obtain ⟨rfl, hparts⟩ := List.cons.inj hlines
          rw [List.length_cons] at hcount
          have hnumber : number = movedAfter count number := (moved_after_of_le (by omega)).symm
          rcases append_cons_cases hparts with ⟨inner, hyes, rfl⟩ | ⟨inner, rfl, hlater⟩
          · -- The line is put into the part before the `else`.
            obtain ⟨inside, hinside, hpadded⟩ := @ihyes (number + 1) before inner hyes (by omega)
            obtain ⟨hsize, hle⟩ := size_of_put_in hyes hinside
            refine ⟨.branches header opens inside otherwise turns no closer closes rest, ?_,
              .branches hnumber hpadded ?_ ?_⟩
            · rw [lines, hinside, List.append_assoc, List.cons_append, List.cons_append]
            · have helse : number + 1 + inside.size + 1 = number + 1 + yes.size + 1 + 1 := by omega
              exact helse ▸ padded_behind no (by omega)
            · have hafter : number + 1 + inside.size + 1 + no.size + 1 =
                  number + 1 + yes.size + 1 + no.size + 1 + 1 := by omega
              exact hafter ▸ padded_behind rest (by omega)
          · rw [List.length_append, List.length_cons, length_lines] at hcount
            rcases append_cons_cases hlater with ⟨inner, hno, rfl⟩ | ⟨inner, rfl, hrest⟩
            · -- The line is put into the part behind the `else`.
              obtain ⟨outside, houtside, hpadded⟩ :=
                @ihno (number + 1 + yes.size + 1) _ inner hno (by omega)
              obtain ⟨hsize, hle⟩ := size_of_put_in hno houtside
              refine ⟨.branches header opens yes otherwise turns outside closer closes rest, ?_,
                .branches hnumber (padded_before yes (by omega)) hpadded ?_⟩
              · rw [lines, houtside]
                simp only [List.append_assoc, List.cons_append]
              · have hafter : number + 1 + yes.size + 1 + outside.size + 1 =
                    number + 1 + yes.size + 1 + no.size + 1 + 1 := by omega
                exact hafter ▸ padded_behind rest (by omega)
            · -- The line is put in behind the conditional.
              rw [List.length_append, List.length_cons, length_lines] at hcount
              obtain ⟨others, hothers, hpadded⟩ :=
                @ihrest (number + 1 + yes.size + 1 + no.size + 1) inner after hrest (by omega)
              refine ⟨.branches header opens yes otherwise turns no closer closes others, ?_,
                .branches hnumber (padded_before yes (by omega)) (padded_before no (by omega))
                  hpadded⟩
              rw [lines, hothers]
              simp only [List.append_assoc, List.cons_append]

end Insertion

end Program

end PenScript
