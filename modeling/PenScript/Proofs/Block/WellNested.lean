import PenScript.Block

/-!
# Programs that nest

`WellNested` is the grammar of the programs whose blocks nest, over the kinds of their lines. A scan
from left to right only has to remember the blocks that are open: `OpenBlock.after?` does that and
nothing else. `well_nested_iff_after` says that the scan ends with no open block exactly for the
programs of the grammar, and `completable_iff_after` that it gets through exactly the lines that
more lines can complete to such a program.
-/

namespace PenScript

/-- The kinds of the lines of a program in which every block is closed by its own closer, and every
`else` lies directly in a conditional that has no other. -/
inductive WellNested : List LineKind → Prop where
  | empty : WellNested []
  | skipped {rest : List LineKind} : WellNested rest → WellNested (.skipped :: rest)
  | statement {rest : List LineKind} : WellNested rest → WellNested (.statement :: rest)
  | block (kind : BlockKind) {body rest : List LineKind} :
      WellNested body → WellNested rest →
      WellNested (.opener kind :: (body ++ .closer kind :: rest))
  | branches {yes no rest : List LineKind} :
      WellNested yes → WellNested no → WellNested rest →
      WellNested (.opener .conditional ::
        (yes ++ .otherwise :: (no ++ .closer .conditional :: rest)))

/-- The lines between the opener and the closer of a block. A conditional may have an `else` among
them, whose index is counted from the first of these lines. -/
inductive Interior : BlockKind → Option Nat → List LineKind → Prop where
  | body {kind : BlockKind} {body : List LineKind} : WellNested body → Interior kind none body
  | branches {yes no : List LineKind} :
      WellNested yes → WellNested no →
      Interior .conditional (some yes.length) (yes ++ .otherwise :: no)

/-- The lines are the start of a program whose blocks nest. -/
def Completable (lines : List Text) : Prop :=
  ∃ more, WellNested ((lines ++ more).map Line.kind)

namespace WellNested

/-- One program after another nests when both do. -/
theorem append {first second : List LineKind} (hfirst : WellNested first)
    (hsecond : WellNested second) : WellNested (first ++ second) := by
  induction hfirst with
  | empty => exact hsecond
  | skipped _ ih => exact .skipped ih
  | statement _ ih => exact .statement ih
  | block kind hbody _ _ ih =>
      simp only [List.cons_append, List.append_assoc]
      exact .block kind hbody ih
  | branches hyes hno _ _ _ ih =>
      simp only [List.cons_append, List.append_assoc]
      exact .branches hyes hno ih

end WellNested

namespace Interior

/-- Lines that nest can follow in the interior of a block. -/
theorem append {kind : BlockKind} {offset : Option Nat} {inner rest : List LineKind}
    (hinner : Interior kind offset inner) (hrest : WellNested rest) :
    Interior kind offset (inner ++ rest) := by
  cases hinner with
  | body hbody => exact .body (hbody.append hrest)
  | branches hyes hno =>
      rw [List.append_assoc, List.cons_append]
      exact .branches hyes (hno.append hrest)

/-- An interior between an opener and a closer of its kind is a block. -/
theorem enclosed {kind : BlockKind} {offset : Option Nat} {inner rest : List LineKind}
    (hinner : Interior kind offset inner) (hrest : WellNested rest) :
    WellNested (.opener kind :: (inner ++ .closer kind :: rest)) := by
  cases hinner with
  | body hbody => exact .block kind hbody hrest
  | branches hyes hno =>
      rw [List.append_assoc, List.cons_append]
      exact .branches hyes hno hrest

/-- A block without an `else` so far holds lines that nest. -/
theorem well_nested {kind : BlockKind} {inner : List LineKind}
    (hinner : Interior kind none inner) : WellNested inner := by
  cases hinner with
  | body hbody => exact hbody

end Interior

namespace OpenBlock

/-- The open blocks after one more line, unless the line does not fit. -/
def next? (index : Nat) : List OpenBlock → LineKind → Option (List OpenBlock)
  | stack, .opener kind => some (⟨kind, index, none⟩ :: stack)
  | ⟨.conditional, opener, none⟩ :: outer, .otherwise =>
      some (⟨.conditional, opener, some index⟩ :: outer)
  | _, .otherwise => none
  | opened :: outer, .closer kind => if opened.kind = kind then some outer else none
  | [], .closer _ => none
  | stack, .skipped | stack, .statement => some stack

/-- The open blocks after more lines, unless one of them does not fit. -/
def after? : Nat → List OpenBlock → List LineKind → Option (List OpenBlock)
  | _, stack, [] => some stack
  | index, stack, kind :: rest => (next? index stack kind).bind fun stack ↦
      after? (index + 1) stack rest

/-- Scanning two lists of lines is scanning the first and then the second. -/
theorem after_append (index : Nat) (stack : List OpenBlock) (first second : List LineKind) :
    after? index stack (first ++ second) =
      (after? index stack first).bind fun stack ↦ after? (index + first.length) stack second := by
  induction first generalizing index stack with
  | nil => rfl
  | cons kind rest ih =>
      rw [List.cons_append, after?, after?]
      cases next? index stack kind with
      | none => rfl
      | some stack =>
          show after? (index + 1) stack (rest ++ second) = _
          rw [ih, List.length_cons, Nat.add_right_comm, Nat.add_assoc]
          rfl

/-- Scanning one line more. -/
theorem after_concat (index : Nat) (stack : List OpenBlock) (done : List LineKind)
    (kind : LineKind) :
    after? index stack (done ++ [kind]) =
      (after? index stack done).bind fun stack ↦ next? (index + done.length) stack kind := by
  simp only [after_append, after?, Option.bind_fun_some]

/-- When the scan does not get through, there is a first line that does not fit. -/
theorem first_misfit {index : Nat} {stack : List OpenBlock} {lines : List LineKind}
    (h : after? index stack lines = none) :
    ∃ before kind rest found, lines = before ++ kind :: rest ∧
      after? index stack before = some found ∧
      next? (index + before.length) found kind = none := by
  induction lines generalizing index stack with
  | nil => cases h
  | cons kind rest ih =>
      cases hnext : next? index stack kind with
      | none => exact ⟨[], kind, rest, stack, rfl, rfl, hnext⟩
      | some following =>
          rw [after?, hnext, Option.bind_some] at h
          obtain ⟨before, misfit, rest, found, rfl, hfound, hmisfit⟩ := ih h
          refine ⟨kind :: before, misfit, rest, found, rfl, ?_, ?_⟩
          · rw [after?, hnext, Option.bind_some, hfound]
          · rw [List.length_cons, Nat.add_comm before.length, ← Nat.add_assoc]
            exact hmisfit

/-- Lines that nest leave the open blocks as they are. -/
theorem after_of_well_nested {lines : List LineKind} (hlines : WellNested lines) (index : Nat)
    (stack : List OpenBlock) : after? index stack lines = some stack := by
  induction hlines generalizing index stack with
  | empty => rfl
  | skipped _ ih => exact ih _ _
  | statement _ ih => exact ih _ _
  | block kind _ _ ihbody ihrest =>
      rw [after?, next?, Option.bind_some, after_append, ihbody, Option.bind_some, after?, next?,
        if_pos rfl, Option.bind_some]
      exact ihrest _ _
  | branches _ _ _ ihyes ihno ihrest =>
      rw [after?, next?, Option.bind_some, after_append, ihyes, Option.bind_some, after?, next?,
        Option.bind_some, after_append, ihno, Option.bind_some, after?, next?, if_pos rfl,
        Option.bind_some]
      exact ihrest _ _

/-- An `else` fits only when a conditional without another is the innermost open block. -/
theorem next_otherwise {index : Nat} {stack following : List OpenBlock}
    (h : next? index stack .otherwise = some following) :
    ∃ opener outer, stack = ⟨.conditional, opener, none⟩ :: outer ∧
      following = ⟨.conditional, opener, some index⟩ :: outer := by
  unfold next? at h
  split at h
  · rename_i hkind
    cases hkind
  · obtain rfl := Option.some.inj h
    exact ⟨_, _, rfl, rfl⟩
  all_goals simp_all

/-- A closer fits only when the innermost open block is of its kind, and closes it. -/
theorem next_closer {index : Nat} {stack following : List OpenBlock} {kind : BlockKind}
    (h : next? index stack (.closer kind) = some following) :
    ∃ opened, stack = opened :: following ∧ opened.kind = kind := by
  cases stack with
  | nil => simp [next?] at h
  | cons opened outer =>
      simp only [next?, Option.ite_none_right_eq_some, Option.some.injEq] at h
      exact ⟨opened, by rw [h.2], h.1⟩

/-- The interior of a block leaves the block open, with its `else` noted. -/
theorem after_of_interior {kind : BlockKind} {offset : Option Nat} {inner : List LineKind}
    (hinner : Interior kind offset inner) (index : Nat) (outer : List OpenBlock) :
    after? (index + 1) (⟨kind, index, none⟩ :: outer) inner =
      some (⟨kind, index, offset.map (index + 1 + ·)⟩ :: outer) := by
  cases hinner with
  | body hbody => exact after_of_well_nested hbody _ _
  | branches hyes hno =>
      rw [after_append, after_of_well_nested hyes, Option.bind_some, after?, next?,
        Option.bind_some, after_of_well_nested hno]
      rfl

/-- A block that is open holds its interior, after lines that the scan gets through. -/
theorem after_opened {before inner : List LineKind} {outer : List OpenBlock} {kind : BlockKind}
    {offset : Option Nat} (hbefore : after? 0 [] before = some outer)
    (hinner : Interior kind offset inner) :
    after? 0 [] (before ++ .opener kind :: inner) =
      some (⟨kind, before.length, offset.map (before.length + 1 + ·)⟩ :: outer) := by
  rw [after_append, hbefore, Option.bind_some, after?, next?, Option.bind_some, Nat.zero_add]
  exact after_of_interior hinner _ _

end OpenBlock

/-- The lines so far consist of the blocks that are still open, innermost first, and of lines that
nest around and inside them. -/
inductive Pending : List LineKind → List OpenBlock → Prop where
  | closed {done : List LineKind} : WellNested done → Pending done []
  | opened {before inner : List LineKind} {outer : List OpenBlock} {kind : BlockKind}
      {offset : Option Nat} :
      Pending before outer → Interior kind offset inner →
      Pending (before ++ .opener kind :: inner)
        (⟨kind, before.length, offset.map (before.length + 1 + ·)⟩ :: outer)

namespace Pending

/-- Lines that nest can follow. -/
theorem append {done rest : List LineKind} {stack : List OpenBlock} (h : Pending done stack)
    (hrest : WellNested rest) : Pending (done ++ rest) stack := by
  cases h with
  | closed hdone => exact .closed (hdone.append hrest)
  | opened hbefore hinner =>
      rw [List.append_assoc, List.cons_append]
      exact .opened hbefore (hinner.append hrest)

/-- The innermost open block: what comes before it and what it holds so far. -/
theorem innermost {done : List LineKind} {opened : OpenBlock} {outer : List OpenBlock}
    (h : Pending done (opened :: outer)) :
    ∃ before inner offset, done = before ++ .opener opened.kind :: inner ∧
      Pending before outer ∧ Interior opened.kind offset inner ∧
      opened.index = before.length ∧
      opened.alternative = offset.map (before.length + 1 + ·) := by
  cases h with
  | opened hbefore hinner => exact ⟨_, _, _, rfl, hbefore, hinner, rfl, rfl⟩

/-- A line that fits goes on with the lines so far. -/
theorem next {done : List LineKind} {stack following : List OpenBlock} {kind : LineKind}
    (h : Pending done stack) (hnext : OpenBlock.next? done.length stack kind = some following) :
    Pending (done ++ [kind]) following := by
  cases kind with
  | skipped =>
      obtain rfl : stack = following := Option.some.inj hnext
      exact h.append (.skipped .empty)
  | statement =>
      obtain rfl : stack = following := Option.some.inj hnext
      exact h.append (.statement .empty)
  | opener kind =>
      obtain rfl := Option.some.inj hnext
      exact .opened h (.body .empty)
  | otherwise =>
      obtain ⟨opener, outer, rfl, rfl⟩ := OpenBlock.next_otherwise hnext
      obtain ⟨before, inner, offset, rfl, hbefore, hinner, rfl, hoffset⟩ := h.innermost
      obtain rfl : offset = none := Option.map_eq_none_iff.mp hoffset.symm
      have hbranches := Pending.opened hbefore (.branches hinner.well_nested .empty)
      simpa [Nat.add_assoc, Nat.add_comm 1] using hbranches
  | closer kind =>
      obtain ⟨opened, rfl, rfl⟩ := OpenBlock.next_closer hnext
      obtain ⟨before, inner, offset, rfl, hbefore, hinner, -, -⟩ := h.innermost
      simpa using hbefore.append (hinner.enclosed .empty)

/-- The scan of the lines so far finds exactly the blocks that are open. -/
theorem after {done : List LineKind} {stack : List OpenBlock} (h : Pending done stack) :
    OpenBlock.after? 0 [] done = some stack := by
  induction h with
  | closed hdone => exact OpenBlock.after_of_well_nested hdone 0 []
  | opened _ hinner ih => exact OpenBlock.after_opened ih hinner

/-- When the scan gets through more lines, they are pending with the blocks that it found. -/
theorem scan {done rest : List LineKind} {stack following : List OpenBlock}
    (h : Pending done stack)
    (hscan : OpenBlock.after? done.length stack rest = some following) :
    Pending (done ++ rest) following := by
  induction rest generalizing done stack with
  | nil =>
      obtain rfl : stack = following := Option.some.inj hscan
      simpa using h
  | cons kind rest ih =>
      rw [OpenBlock.after?] at hscan
      obtain ⟨middle, hnext, hrest⟩ := Option.bind_eq_some_iff.mp hscan
      simpa using ih (h.next hnext) (by simpa using hrest)

/-- The lines that the scan gets through are pending with the blocks that it found. -/
theorem of_after {done : List LineKind} {stack : List OpenBlock}
    (h : OpenBlock.after? 0 [] done = some stack) : Pending done stack :=
  scan (.closed .empty) h

/-- Closers for all open blocks complete the lines. -/
theorem complete {done : List LineKind} {stack : List OpenBlock} (h : Pending done stack) :
    WellNested (done ++ stack.map fun opened ↦ .closer opened.kind) := by
  induction stack generalizing done with
  | nil =>
      cases h with
      | closed hdone => simpa using hdone
  | cons opened outer ih =>
      have hnext : OpenBlock.next? done.length (opened :: outer) (.closer opened.kind) =
          some outer := if_pos rfl
      simpa using ih (h.next hnext)

end Pending

/-- Lines nest exactly when the scan gets through them and ends without open blocks. -/
theorem well_nested_iff_after {lines : List LineKind} :
    WellNested lines ↔ OpenBlock.after? 0 [] lines = some [] := by
  constructor
  · intro h
    exact OpenBlock.after_of_well_nested h 0 []
  · intro h
    cases Pending.of_after h with
    | closed hlines => exact hlines

/-- The keyword that closes a block is read as the closer of that block. -/
theorem Line.kind_closer (kind : BlockKind) : Line.kind kind.closer = .closer kind := by
  cases kind <;> decide

/-- Lines are the start of a program that nests exactly when the scan gets through them. -/
theorem completable_iff_after {lines : List Text} :
    Completable lines ↔ (OpenBlock.after? 0 [] (lines.map Line.kind)).isSome := by
  constructor
  · rintro ⟨more, h⟩
    rw [List.map_append, well_nested_iff_after, OpenBlock.after_append] at h
    obtain ⟨stack, hstack, -⟩ := Option.bind_eq_some_iff.mp h
    rw [hstack]
    rfl
  · intro h
    obtain ⟨stack, hstack⟩ := Option.isSome_iff_exists.mp h
    refine ⟨stack.map fun opened ↦ opened.kind.closer, ?_⟩
    have hclosers : (stack.map fun opened ↦ opened.kind.closer).map Line.kind =
        stack.map fun opened ↦ .closer opened.kind := by
      simp [Line.kind_closer]
    rw [List.map_append, hclosers]
    exact (Pending.of_after hstack).complete

end PenScript
