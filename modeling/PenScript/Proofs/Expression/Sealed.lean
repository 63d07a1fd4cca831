import PenScript.Expression
import PenScript.Proofs.Text.Cutting
import PenScript.Proofs.Text.Trim

/-!
# Sealed texts

A text is sealed when it has no quote, every parenthesis has its partner in it, and the characters
outside all parentheses are of one class. A search for an operator passes over a sealed text whose
class has no operator (`Sealed.find_operator`), and so does the search for the partner of a
parenthesis that was opened before (`Sealed.closed_by`). With these, the core of a text and the rule
that a formula is evaluated by are read off from the pieces the text is made of.
-/

namespace PenScript

open Text

/-! ### Searching in a sealed text -/

/-- The text has no quote, its parentheses are balanced, and its characters outside all parentheses
are of this class. -/
inductive Sealed : (Char → Prop) → Text → Prop where
  | nil {free : Char → Prop} : Sealed free []
  | char {free : Char → Prop} {c : Char} {rest : Text} (hmark : Nesting.isMark c = false)
      (hfree : free c) (hrest : Sealed free rest) : Sealed free (c :: rest)
  | parentheses {free : Char → Prop} {inner rest : Text} (hinner : Sealed (fun _ ↦ True) inner)
      (hrest : Sealed free rest) : Sealed free ('(' :: (inner ++ ')' :: rest))

namespace Sealed

variable {free other : Char → Prop} {text rest inner : Text} {c : Char}

theorem append (h : Sealed free text) (hrest : Sealed free rest) : Sealed free (text ++ rest) := by
  induction h with
  | nil => exact hrest
  | char hmark hfree _ ih => exact .char hmark hfree (ih hrest)
  | @parentheses _ inner _ hinner _ _ ih =>
      rw [List.cons_append, List.append_assoc, List.cons_append]
      exact .parentheses hinner (ih hrest)

theorem mono (h : Sealed free text) (hclass : ∀ c, free c → other c) : Sealed other text := by
  induction h with
  | nil => exact .nil
  | char hmark hfree _ ih => exact .char hmark (hclass _ hfree) (ih hclass)
  | parentheses hinner _ _ ih => exact .parentheses hinner (ih hclass)

/-- A text without quotes and parentheses is sealed. -/
theorem of_forall (h : ∀ c ∈ text, Nesting.isMark c = false ∧ free c) : Sealed free text := by
  induction text with
  | nil => exact .nil
  | cons c rest ih =>
      have hc := h c List.mem_cons_self
      exact .char hc.1 hc.2 (ih fun d hd ↦ h d (List.mem_cons_of_mem c hd))

/-- A sealed text has no quote. -/
theorem no_quote (h : Sealed free text) : '"' ∉ text := by
  induction h with
  | nil => exact List.not_mem_nil
  | char hmark _ _ ih =>
      rw [List.mem_cons]
      rintro (rfl | hmem)
      · cases hmark
      · exact ih hmem
  | parentheses _ _ ihinner ih => simp [ihinner, ih]

/-- The first character of a sealed text is a parenthesis or of the class. -/
theorem head (h : Sealed free (c :: rest)) : c = '(' ∨ free c := by
  cases h with
  | char _ hfree _ => exact .inr hfree
  | parentheses _ _ => exact .inl rfl

end Sealed

namespace Nesting

theorem next_open (depth : Int) : (Nesting.mk depth false).next '(' = ⟨depth + 1, false⟩ := rfl

theorem next_close (depth : Int) : (Nesting.mk depth false).next ')' = ⟨depth - 1, false⟩ := rfl

/-- Only a closing parenthesis closes one. -/
theorem depth_next (nesting : Nesting) (c : Char) :
    nesting.depth ≤ (nesting.next c).depth ∨
      c = ')' ∧ (nesting.next c).depth = nesting.depth - 1 := by
  unfold next
  split
  · exact .inl (Int.le_refl _)
  · split
    · exact .inl (Int.le_refl _)
    · split
      · exact .inl (Int.le_add_one (Int.le_refl _))
      · split
        · exact .inr ⟨‹_›, rfl⟩
        · exact .inl (Int.le_refl _)

/-- What is closed ends with a closing parenthesis. -/
theorem closed_by_eq {nesting : Nesting} {text inner : Text} (hdepth : 0 < nesting.depth)
    (h : closedBy nesting text = some inner) : text = inner ++ [')'] := by
  induction text generalizing nesting inner with
  | nil => cases h
  | cons c rest ih =>
      have hnext := nesting.depth_next c
      rw [closedBy] at h
      split at h
      · split at h
        · rename_i hrest
          obtain rfl := Option.some.inj h
          obtain ⟨rfl, -⟩ := hnext.resolve_left (by omega)
          rw [hrest, List.nil_append]
        · cases h
      · obtain ⟨found, hfound, rfl⟩ := Option.map_eq_some_iff.mp h
        rw [ih (by omega) hfound, List.cons_append]

/-- A parenthesis that is closed before the end of a text does not enclose the text. -/
theorem closed_by_append {nesting : Nesting} {left right : Text} (hleft : left ≠ [])
    (hright : right ≠ []) (hclosed : (nesting.after left).depth = 0) :
    closedBy nesting (left ++ right) = none := by
  induction left generalizing nesting with
  | nil => exact absurd rfl hleft
  | cons c left ih =>
      have hsome : left ++ right ≠ [] := List.append_ne_nil_of_right_ne_nil left hright
      rw [List.cons_append, closedBy]
      by_cases hdepth : (nesting.next c).depth = 0
      · rw [if_pos hdepth, if_neg hsome]
      · have hmore : left ≠ [] := by
          rintro rfl
          exact hdepth hclosed
        rw [if_neg hdepth, ih hmore hclosed, Option.map_none]

end Nesting

open Nesting

namespace Sealed

variable {free : Char → Prop} {text : Text}

/-- A sealed text opens and closes the same parentheses. -/
theorem after (h : Sealed free text) (depth : Int) :
    (Nesting.mk depth false).after text = ⟨depth, false⟩ := by
  induction h generalizing depth with
  | nil => rfl
  | char hmark _ _ ih => rw [after_cons, next_of_not_mark hmark, ih]
  | parentheses _ _ ihinner ih =>
      rw [after_cons, next_open, after_append, ihinner, after_cons, next_close,
        Int.add_sub_cancel, ih]

/-- The start of a sealed text is sealed when the rest has no parenthesis. -/
theorem of_append {whole left right : Text} (h : Sealed free whole) (hwhole : whole = left ++ right)
    (hright : ∀ c ∈ right, isMark c = false) : Sealed free left := by
  induction h generalizing left with
  | nil =>
      rw [(List.append_eq_nil_iff.mp hwhole.symm).1]
      exact .nil
  | char hmark hfree _ ih =>
      cases left with
      | nil => exact .nil
      | cons d left =>
          obtain ⟨rfl, hrest⟩ := List.cons.inj hwhole
          exact .char hmark hfree (ih hrest)
  | @parentheses _ inner rest hinner _ _ ih =>
      have hclose : ')' ∉ right := fun hmem ↦ Bool.noConfusion (hright _ hmem)
      cases left with
      | nil => exact .nil
      | cons d left =>
          obtain ⟨rfl, hrest⟩ := List.cons.inj hwhole
          rcases List.append_eq_append_iff.mp hrest with ⟨middle, rfl, hmiddle⟩ |
            ⟨middle, rfl, rfl⟩
          · cases middle with
            | nil =>
                have hmem : ')' ∈ [] ++ right := hmiddle ▸ List.mem_cons_self
                exact absurd hmem hclose
            | cons e middle =>
                obtain ⟨rfl, htail⟩ := List.cons.inj hmiddle
                exact .parentheses hinner (ih htail)
          · exact absurd (List.mem_append_right _ List.mem_cons_self) hclose

/-- A sealed text stays sealed when its end is trimmed. -/
theorem trim_end (h : Sealed free text) : Sealed free (trimEnd text) := by
  obtain ⟨after, hafter, htext⟩ := exists_blanks_after text
  exact h.of_append htext fun c hc ↦ not_mark_of_blank (hafter c hc)

/-- A sealed text stays sealed when its start is trimmed. -/
theorem trim_start (h : Sealed free text) : Sealed free (trimStart text) := by
  induction h with
  | nil => exact .nil
  | @char free c rest hmark hfree hrest ih =>
      rw [trimStart, List.dropWhile_cons]
      split
      · exact ih
      · exact .char hmark hfree hrest
  | parentheses hinner hrest _ _ => exact .parentheses hinner hrest

end Sealed

/-! ### Searching behind a sealed text -/

section

variable {α : Type} {operator? : Text → Option (α × Text)} {found : Option (Text × α × Text)}
  {free : Char → Prop} {text rest inner : Text} {c : Char} {depth : Int}

/-- What was found behind a text, with the text before it. -/
def foundAfter (text : Text) (found : Option (Text × α × Text)) : Option (Text × α × Text) :=
  found.map fun parts ↦ (text ++ parts.1, parts.2)

theorem found_after_append : foundAfter (text ++ rest) found =
    foundAfter text (foundAfter rest found) := by
  cases found <;> simp [foundAfter]

/-- A search goes on behind a character that no operator starts with. -/
theorem find_operator_cons {nesting : Nesting}
    (h : nesting.isFree c = true → operator? (c :: rest) = none) :
    findOperator operator? nesting (c :: rest) =
      foundAfter [c] (findOperator operator? (nesting.next c) rest) := by
  rw [findOperator]
  split
  · rename_i operator right hfound
    split at hfound
    · rename_i hfree
      rw [h hfree] at hfound
      cases hfound
    · cases hfound
  · rfl

/-- A search for an operator passes over a sealed text, inside parentheses whatever its class, and
outside when no operator starts with a character of the class. -/
theorem Sealed.find_operator (h : Sealed free text) (hdepth : 0 ≤ depth)
    (hnone : depth = 0 → ∀ c rest, free c → operator? (c :: rest) = none) (rest : Text) :
    findOperator operator? ⟨depth, false⟩ (text ++ rest) =
      foundAfter text (findOperator operator? ⟨depth, false⟩ rest) := by
  induction h generalizing depth rest with
  | nil =>
      rw [List.nil_append]
      cases findOperator operator? ⟨depth, false⟩ rest <;> rfl
  | @char free c text hmark hfree _ ih =>
      have hskip (h : (Nesting.mk depth false).isFree c = true) :
          operator? (c :: (text ++ rest)) = none := by
        have hzero : depth = 0 := by
          simp only [isFree, isOutside, Bool.and_eq_true, beq_iff_eq] at h
          exact h.1.1
        exact hnone hzero c _ hfree
      rw [List.cons_append, find_operator_cons hskip, next_of_not_mark hmark, ih hdepth hnone,
        ← found_after_append, List.singleton_append]
  | @parentheses free inner text _ _ ihinner ih =>
      have hopen (h : (Nesting.mk depth false).isFree '(' = true) :
          operator? ('(' :: (inner ++ ')' :: (text ++ rest))) = none := by
        simp [isFree, isMark] at h
      have hclose (h : (Nesting.mk (depth + 1) false).isFree ')' = true) :
          operator? (')' :: (text ++ rest)) = none := by
        simp [isFree, isMark] at h
      rw [List.cons_append, List.append_assoc, List.cons_append, find_operator_cons hopen,
        next_open, ihinner (by omega) (by omega), find_operator_cons hclose, next_close,
        Int.add_sub_cancel, ih hdepth hnone, ← found_after_append, ← found_after_append,
        ← found_after_append]
      simp

/-- A sealed text has no operator, when none starts with a character of the class. -/
theorem Sealed.find_operator_none (h : Sealed free text)
    (hnone : ∀ c rest, free c → operator? (c :: rest) = none) :
    findOperator operator? Nesting.start text = none := by
  have hfind := h.find_operator (Int.le_refl 0) (fun _ ↦ hnone) []
  rw [List.append_nil] at hfind
  exact hfind

/-- The operator behind a sealed text is the first one. -/
theorem Sealed.find_operator_first (h : Sealed free text)
    (hnone : ∀ c rest, free c → operator? (c :: rest) = none) {operator : α} {right : Text}
    (hmark : Nesting.isMark c = false)
    (hoperator : operator? (c :: rest) = some (operator, right)) :
    findOperator operator? Nesting.start (text ++ c :: rest) = some (text, operator, right) := by
  have hfree : (Nesting.mk 0 false).isFree c = true := by
    rw [isFree, hmark]
    rfl
  have hfind := h.find_operator (Int.le_refl 0) (fun _ ↦ hnone) (c :: rest)
  rw [findOperator, if_pos hfree, hoperator] at hfind
  rw [Nesting.start, hfind, foundAfter, Option.map_some, List.append_nil]

/-- A search for the end of a parenthesis passes over a sealed text. -/
theorem Sealed.closed_by (h : Sealed free text) (hdepth : 0 < depth) (rest : Text) :
    closedBy ⟨depth, false⟩ (text ++ rest) = (closedBy ⟨depth, false⟩ rest).map (text ++ ·) := by
  induction h generalizing depth rest with
  | nil => exact Option.map_id'.symm
  | @char free c text hmark _ _ ih =>
      rw [List.cons_append, closedBy, next_of_not_mark hmark, if_neg (Int.ne_of_gt hdepth),
        ih hdepth, Option.map_map]
      rfl
  | @parentheses free inner text _ _ ihinner ih =>
      have hopen : ¬ depth + 1 = 0 := by omega
      have hclose : ¬ depth = 0 := by omega
      rw [List.cons_append, List.append_assoc, List.cons_append, closedBy, next_open, if_neg hopen,
        ihinner (by omega), closedBy, next_close, Int.add_sub_cancel, if_neg hclose, ih hdepth,
        Option.map_map, Option.map_map, Option.map_map]
      refine Option.map_congr fun found _ ↦ ?_
      simp

end

/-! ### The core of a text -/

namespace Expression

variable {free : Char → Prop} {text rest inner left right before after : Text} {c : Char}

/-- A text that is enclosed is its inside in parentheses. -/
theorem enclosed_eq (h : enclosed? text = some inner) :
    text = '(' :: (inner ++ [')']) := by
  unfold enclosed? at h
  split at h
  · rw [Nesting.closed_by_eq (by decide) h]
  · cases h

/-- A parenthesis at the start of a text encloses the text when nothing follows its partner. -/
theorem enclosed_parenthesis (h : Sealed free inner) (rest : Text) :
    enclosed? ('(' :: (inner ++ ')' :: rest)) = if rest = [] then some inner else none := by
  have hclose : closedBy (Nesting.start.next '(') (inner ++ ')' :: rest) =
      (closedBy ⟨1, false⟩ (')' :: rest)).map (inner ++ ·) := h.closed_by (by decide) _
  rw [enclosed?, hclose, closedBy]
  by_cases hrest : rest = []
  · simp [hrest, Nesting.next_close]
  · simp [hrest, Nesting.next_close]

/-- A text is not enclosed when a balanced part of it ends before something that is no
parenthesis. -/
theorem enclosed_none (h : Text.Balanced left) (hc : c ≠ '(') :
    enclosed? (left ++ c :: rest) = none := by
  unfold enclosed?
  split
  · rename_i others hopen
    cases left with
    | nil => exact absurd (List.cons.inj hopen).1 hc
    | cons d left =>
        obtain ⟨rfl, rfl⟩ := List.cons.inj hopen
        have hafter : (Nesting.start.next '(').after left = Nesting.start := h
        refine Nesting.closed_by_append ?_ (List.cons_ne_nil c rest) (congrArg _ hafter)
        rintro rfl
        cases hafter
  · rfl

/-- The core of an enclosed text is that of its inside. -/
theorem core_of_enclosed (h : enclosed? (trim text) = some inner) : core text = core inner := by
  rw [core]
  split
  · rename_i hnone
    rw [h] at hnone
    cases hnone
  · rename_i found hfound
    rw [h] at hfound
    obtain rfl := Option.some.inj hfound
    rfl

/-- A text that is not enclosed is only trimmed. -/
theorem core_of_not_enclosed (h : enclosed? (trim text) = none) : core text = trim text := by
  rw [core]
  split
  · rfl
  · rename_i found hfound
    rw [h] at hfound
    cases hfound

/-- Two texts that differ only in the blanks around them have one core. -/
theorem core_congr (h : trim text = trim rest) : core text = core rest := by
  cases henclosed : enclosed? (trim text) with
  | none => rw [core_of_not_enclosed henclosed, core_of_not_enclosed (h ▸ henclosed), h]
  | some inner =>
      have hother : enclosed? (trim rest) = some inner := h ▸ henclosed
      rw [core_of_enclosed henclosed, core_of_enclosed hother]

/-- The core of a text has its quotes. -/
theorem quote_mem_core (text : Text) : '"' ∈ core text ↔ '"' ∈ text := by
  fun_induction core text with
  | case1 text _ => exact mem_trim rfl
  | case2 text inner henclosed _ ih =>
      have hinner : '"' ∈ trim text ↔ '"' ∈ inner := by
        rw [enclosed_eq henclosed]
        simp
      rw [ih, ← hinner]
      exact mem_trim rfl

/-- The parentheses around a text do not change its core. -/
theorem core_parentheses (hbefore : Blank before) (hafter : Blank after) (h : Sealed free inner) :
    core (before ++ '(' :: (inner ++ ')' :: after)) = core inner := by
  have htrim : trim (before ++ '(' :: (inner ++ ')' :: after)) = '(' :: (inner ++ [')']) := by
    rw [trim, trim_start_append_cons rfl, trim_start_blank hbefore, List.nil_append,
      ← List.cons_append, trim_end_append_cons rfl, ← List.nil_append after,
      trim_end_append hafter]
    rfl
  exact core_of_enclosed (by rw [htrim, enclosed_parenthesis h, if_pos rfl])

/-! ### The rule of a formula -/

/-- A formula is evaluated by its core alone. -/
theorem formula_eq (scope : Scope) (text : Text) : formula scope text =
    if (core text).isEmpty then .error .emptyExpression
    else match Nesting.findOperator Connective.front? Nesting.start (core text) with
      | some (left, connective, right) => do
          let a ← (formula scope left).bind truth
          let b ← (formula scope right).bind truth
          pure (.boolean (connective.apply a b))
      | none =>
          match negated? (core text) with
          | some rest => do
              let a ← (formula scope rest).bind truth
              pure (.boolean (!a))
          | none => comparison scope (core text) := by
  rw [formula]
  split
  · rfl
  · split
    · rename_i hfound
      simp only [hfound]
    · rename_i hfound
      simp only [hfound]
      split
      · rename_i hnegated
        simp only [hnegated]
      · rename_i hnegated
        simp only [hnegated]

/-- Two texts of one core have one value. -/
theorem formula_congr (h : core text = core rest) (scope : Scope) :
    formula scope text = formula scope rest := by
  rw [formula_eq, formula_eq, h]

/-- Two texts of one core have one value, when both have quotes or none has. -/
theorem value_congr (h : core text = core rest) (hquote : '"' ∈ text ↔ '"' ∈ rest)
    (scope : Scope) : value scope text = value scope rest := by
  have hcontains : text.contains '"' = rest.contains '"' := by
    rw [Bool.eq_iff_iff, List.contains_iff_mem, List.contains_iff_mem, hquote]
  rw [value, value, hcontains, h, formula_congr h]

/-- A text without the blanks around it has the same value. -/
theorem evaluate_trim (scope : Scope) (text : Text) :
    evaluate scope (trim text) = evaluate scope text := by
  rw [evaluate, evaluate, report, report, trim_trim,
    value_congr (core_congr (trim_trim text)) (mem_trim rfl)]

end Expression

end PenScript
