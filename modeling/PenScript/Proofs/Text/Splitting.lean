import Mathlib.Algebra.Ring.Parity
import PenScript.Proofs.Text.Cutting

/-!
# Splitting is the inverse of joining

`Text.splitOutside` follows what is open from one character to the next. What that comes to can be
said without a scan: the quotes before a place are counted, and so are the parentheses before it
that stand outside quotes (`Nesting.after_start`). In these words any text is joined from its parts
again, none of which can be split further, and pieces are split as they were joined when each of
them closes what it opens and exposes no separator (`Text.splitting_inverts_joining`).
-/

namespace PenScript

namespace Text

/-- The characters of a text outside its quotes, without the quotes. The text itself may start
inside a quote. -/
def unquoted : Bool → Text → Text
  | _, [] => []
  | quoted, c :: rest =>
      if c = '"' then unquoted (!quoted) rest
      else if quoted then unquoted true rest
      else c :: unquoted false rest

/-- How many more parentheses are opened than closed in a text, outside its quotes. -/
def parenDepth (text : Text) : Int :=
  (unquoted false text).count '(' - (unquoted false text).count ')'

/-- The separator stands somewhere in the text outside quotes and at depth 0. -/
def Exposes (separator : Char) (text : Text) : Prop :=
  ∃ before after, text = before ++ separator :: after ∧
    Even (before.count '"') ∧ parenDepth before = 0

end Text

namespace Nesting

open Text (unquoted parenDepth)

/-- Each quote opens or closes one. -/
theorem after_quoted (nesting : Nesting) (text : Text) :
    (nesting.after text).quoted = (nesting.quoted ^^ decide (Odd (text.count '"'))) := by
  induction text generalizing nesting with
  | nil => simp [after]
  | cons c rest ih =>
      rw [after_cons, ih]
      by_cases hquote : c = '"'
      · have hnext : (nesting.next c).quoted = !nesting.quoted := by simp [next, hquote]
        rw [hnext, hquote, List.count_cons_self, decide_eq_decide.mpr Nat.odd_add_one,
          decide_not, Bool.xor_not, Bool.not_xor]
      · have hnext : (nesting.next c).quoted = nesting.quoted := by
          unfold next
          rw [if_neg hquote]
          split_ifs <;> rfl
        rw [hnext, List.count_cons_of_ne hquote]

/-- Each parenthesis outside quotes changes the depth by one. -/
theorem after_depth (nesting : Nesting) (text : Text) :
    (nesting.after text).depth = nesting.depth + (unquoted nesting.quoted text).count '('
      - (unquoted nesting.quoted text).count ')' := by
  induction text generalizing nesting with
  | nil => simp [after, unquoted]
  | cons c rest ih =>
      obtain ⟨depth, quoted⟩ := nesting
      rw [after_cons, ih]
      by_cases hquote : c = '"'
      · simp [next, unquoted, hquote]
      cases quoted with
      | true => simp [next, unquoted, hquote]
      | false =>
          by_cases hopen : c = '('
          · simp [next, unquoted, hopen]
            omega
          by_cases hclose : c = ')'
          · simp [next, unquoted, hclose]
            omega
          · simp [next, unquoted, hquote, hopen, hclose]

/-- What is open after a text, told by counting. -/
theorem after_start (text : Text) :
    start.after text = ⟨parenDepth text, decide (Odd (text.count '"'))⟩ := by
  have hdepth := after_depth start text
  have hquoted := after_quoted start text
  rw [start] at hdepth hquoted ⊢
  rw [Bool.false_xor] at hquoted
  rw [zero_add] at hdepth
  exact congrArg₂ Nesting.mk hdepth hquoted

end Nesting

namespace Text

variable {separator : Char} {text : Text}

/-- A text is balanced when its quotes are even in number and its depth comes back to 0. -/
theorem balanced_iff : Balanced text ↔ Even (text.count '"') ∧ parenDepth text = 0 := by
  rw [Balanced, Nesting.after_start, Nesting.start, Nesting.mk.injEq, decide_eq_false_iff_not,
    Nat.not_odd_iff_even, and_comm]

/-- A separator that is no mark is enclosed in a text that does not expose it. -/
theorem encloses_iff_not_exposes (hmark : Nesting.isMark separator = false) :
    Encloses separator text ↔ ¬ Exposes separator text := by
  have hfree (before : Text) : (Nesting.start.after before).isFree separator = true ↔
      Even (before.count '"') ∧ parenDepth before = 0 := by
    rw [Nesting.isFree, hmark, Bool.not_false, Bool.and_true, Nesting.is_outside_iff]
    exact balanced_iff
  constructor
  · rintro hencloses ⟨before, after, htext, hplace⟩
    have hnone := hencloses before separator after htext (beq_self_eq_true separator)
    rw [(hfree before).mpr hplace] at hnone
    cases hnone
  · intro hexposes before c after htext hcut
    obtain rfl := beq_iff_eq.mp hcut
    rw [← Bool.not_eq_true, hfree]
    exact fun hplace ↦ hexposes ⟨before, after, htext, hplace⟩

/-- Splitting and joining undo each other. Any text is joined from its parts again, and each of them
is one part. Pieces that close what they open, and do not expose the separator, are the parts of the
text that they are joined to. -/
theorem splitting_inverts_joining :
    (∀ separator text, join [separator] (splitOutside separator text) = text ∧
      ∀ part ∈ splitOutside separator text, splitOutside separator part = [part]) ∧
    ∀ separator pieces, separator ≠ '"' → separator ≠ '(' → separator ≠ ')' → pieces ≠ [] →
      (∀ piece ∈ pieces,
        Even (piece.count '"') ∧ parenDepth piece = 0 ∧ ¬ Exposes separator piece) →
      splitOutside separator (join [separator] pieces) = pieces := by
  refine ⟨fun separator text ↦ ⟨join_split_outside separator text, fun _ ↦ split_outside_part⟩, ?_⟩
  intro separator pieces hquote hopen hclose hsome hpieces
  have hmark : Nesting.isMark separator = false := by simp [Nesting.isMark, hquote, hopen, hclose]
  refine split_outside_join hmark hsome fun piece hpiece ↦ ?_
  obtain ⟨hcount, hdepth, hexposes⟩ := hpieces piece hpiece
  exact ⟨balanced_iff.mpr ⟨hcount, hdepth⟩, (encloses_iff_not_exposes hmark).mpr hexposes⟩

/-- Pieces with a separator in a quote, in parentheses and, in front of any opening parenthesis,
behind a closing one, where the depth is -1. -/
theorem split_of_joined_pieces :
    let pieces := ["\"a→(é\"".toList, "(x→\")\")".toList, [], ")→(".toList]
    (∀ piece ∈ pieces, Even (piece.count '"') ∧ parenDepth piece = 0 ∧ ¬ Exposes '→' piece) ∧
      join ['→'] pieces = "\"a→(é\"→(x→\")\")→→)→(".toList ∧
      splitOutside '→' "\"a→(é\"→(x→\")\")→→)→(".toList = pieces := by
  intro pieces
  have hpieces :
      ∀ piece ∈ pieces, Even (piece.count '"') ∧ parenDepth piece = 0 ∧ ¬ Exposes '→' piece := by
    have h : ∀ piece ∈ pieces, Balanced piece ∧ Encloses '→' piece := by decide
    intro piece hpiece
    obtain ⟨hbalanced, hencloses⟩ := h piece hpiece
    obtain ⟨hcount, hdepth⟩ := balanced_iff.mp hbalanced
    exact ⟨hcount, hdepth, (encloses_iff_not_exposes (by decide)).mp hencloses⟩
  exact ⟨hpieces, by decide, splitting_inverts_joining.2 '→' pieces (by decide) (by decide)
    (by decide) (by decide) hpieces⟩

end Text

end PenScript
