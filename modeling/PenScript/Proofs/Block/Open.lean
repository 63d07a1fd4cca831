import PenScript.Proofs.Block.Matching

/-!
# Open blocks

Whether a block is open after a line of a program can be said in three ways: with the blocks of the
whole program (`OpenAfter`), with the grammar of the lines so far (`open_after_iff`), and by
counting openers and closers (`balanced_iff_well_nested`). The count neither looks at the kinds of
blocks nor at `else` lines. It is right all the same on lines that more lines can complete, where
every closer fits: there it is the number of blocks that the scan finds open.
-/

namespace PenScript

/-- The line at the index belongs to a block: it lies between its opener and its closer, or is one
of them. -/
def InBlock (kinds : List LineKind) (index : Nat) : Prop :=
  ∃ opener alternative closer, Encloses kinds opener alternative closer ∧
    opener ≤ index ∧ index ≤ closer

/-- Some block is open after the line at the index: it is opened there or before, and closed
later. -/
def OpenAfter (kinds : List LineKind) (index : Nat) : Prop :=
  ∃ opener alternative closer, Encloses kinds opener alternative closer ∧
    opener ≤ index ∧ index < closer

/-- What follows lines that nest nests when both together do. -/
theorem WellNested.of_append {first second : List LineKind} (hfirst : WellNested first)
    (h : WellNested (first ++ second)) : WellNested second := by
  rw [well_nested_iff_after, OpenBlock.after_append, OpenBlock.after_of_well_nested hfirst,
    Option.bind_some] at h
  -- The scan of the second part only knows how many lines came before, so they may be blank.
  have hblank : ∀ count, WellNested (List.replicate count .skipped) := by
    intro count
    induction count with
    | zero => exact .empty
    | succ count ih => exact .skipped ih
  have hboth : WellNested (List.replicate first.length .skipped ++ second) := by
    rw [well_nested_iff_after, OpenBlock.after_append,
      OpenBlock.after_of_well_nested (hblank first.length), Option.bind_some, List.length_replicate]
    exact h
  generalize first.length = count at hboth
  induction count with
  | zero => exact hboth
  | succ count ih =>
      cases hboth with
      | skipped hrest => exact ih hrest

/-- Every opener of lines that nest opens a block. -/
theorem WellNested.encloses {kinds : List LineKind} (h : WellNested kinds) {opener : Nat}
    {kind : BlockKind} (hopener : kinds[opener]? = some (.opener kind)) :
    ∃ alternative closer, Encloses kinds opener alternative closer := by
  obtain ⟨partner, ⟨alternative, henclosed⟩ | ⟨_, hcloser⟩ | ⟨_, helse⟩⟩ :=
    h.partner opener _ hopener rfl
  · exact ⟨alternative, partner, henclosed⟩
  · obtain ⟨_, -, hkind, -⟩ := hcloser.kind_at
    cases hopener.symm.trans hkind
  · obtain ⟨_, -, -, hkind⟩ := helse.kind_at
    cases hopener.symm.trans (hkind opener rfl)

/-- The lines hold a block of this kind, with its three lines at these indices. -/
structure BlockAt (kinds : List LineKind) (kind : BlockKind) (opener : Nat)
    (alternative : Option Nat) (closer : Nat) : Prop where
  encloses : Encloses kinds opener alternative closer
  opens : kinds[opener]? = some (.opener kind)

namespace Pending

variable {done : List LineKind} {stack : List OpenBlock} {opened : OpenBlock}

/-- A block that is open is opened by a line of its kind. -/
theorem opener_at (h : Pending done stack) (hopened : opened ∈ stack) :
    done[opened.index]? = some (.opener opened.kind) := by
  induction h with
  | closed => cases hopened
  | @opened before inner outer kind offset hbefore _ ih =>
      rcases List.mem_cons.mp hopened with rfl | hmem
      · simp
      · have hold := ih hmem
        have hlt := (List.getElem?_eq_some_iff.mp hold).1
        rw [List.getElem?_append_left hlt, hold]

/-- The open blocks are opened one after another, the innermost one last. -/
theorem sorted (h : Pending done stack) :
    stack.Pairwise fun inner outer ↦ outer.index < inner.index := by
  induction h with
  | closed => exact .nil
  | opened hbefore _ ih =>
      refine .cons (fun outer houter ↦ ?_) ih
      exact (List.getElem?_eq_some_iff.mp (hbefore.opener_at houter)).1

end Pending

section Around

variable {kinds : List LineKind} {index opener closer : Nat} {alternative : Option Nat}
  {kind : BlockKind} {opened : OpenBlock} {stack outer : List OpenBlock}

/-- The scan of one line more. -/
theorem OpenBlock.after_take_succ {line : LineKind} (hline : kinds[index]? = some line)
    (hstack : after? 0 [] (kinds.take index) = some stack) :
    after? 0 [] (kinds.take (index + 1)) = next? index stack line := by
  have hlt := (List.getElem?_eq_some_iff.mp hline).1
  rw [List.take_add_one, hline, Option.toList_some, after_concat, hstack, Option.bind_some,
    List.length_take, Nat.min_eq_left (by omega), Nat.zero_add]

/-- The blocks around an open one were open before its opener. -/
theorem OpenBlock.outer_of_after
    (hstack : after? 0 [] (kinds.take index) = some (opened :: outer)) :
    after? 0 [] (kinds.take opened.index) = some outer := by
  obtain ⟨before, inner, -, htake, hbefore, -, hindex, -⟩ := (Pending.of_after hstack).innermost
  have hstart : before <+: kinds :=
    (htake ▸ List.prefix_append before _).trans (List.take_prefix index kinds)
  rw [hindex, ← List.prefix_iff_eq_take.mp hstart]
  exact hbefore.after

/-- A block that is open before a line of a program is closed there or later. -/
theorem WellNested.block_of_open (h : WellNested kinds)
    (hstack : OpenBlock.after? 0 [] (kinds.take index) = some stack) (hopened : opened ∈ stack) :
    opened.index < index ∧ ∃ alternative closer,
      BlockAt kinds opened.kind opened.index alternative closer ∧ index ≤ closer := by
  have hlt := OpenBlock.index_lt_of_after hstack hopened
  have hopener : kinds[opened.index]? = some (.opener opened.kind) := by
    rw [← List.getElem?_take_of_lt hlt]
    exact (Pending.of_after hstack).opener_at hopened
  obtain ⟨alternative, closer, hblock⟩ := h.encloses hopener
  refine ⟨hlt, alternative, closer, ⟨hblock, hopener⟩, Nat.le_of_not_lt fun hclosed ↦ ?_⟩
  exact hblock.ne_of_open (well_nested_iff_after.mp h) hclosed hstack hopened rfl

/-- A block that is opened before a line and closed there or later is open before the line. -/
theorem BlockAt.open_at (h : BlockAt kinds kind opener alternative closer)
    (hkinds : WellNested kinds) (hopener : opener < index) (hcloser : index ≤ closer)
    (hstack : OpenBlock.after? 0 [] (kinds.take index) = some stack) :
    ∃ opened ∈ stack, opened.index = opener ∧ opened.kind = kind := by
  obtain ⟨_, _, -, hopen, -⟩ := h.encloses.after_closer (well_nested_iff_after.mp hkinds)
  obtain ⟨_, -, hclosing, -⟩ := h.encloses.kind_at
  have hsize := (List.getElem?_eq_some_iff.mp hclosing).1
  rcases OpenBlock.index_of_take hcloser (by omega) hstack hopen List.mem_cons_self with
    hnew | ⟨earlier, hmem, hindex⟩
  · exact absurd hnew (Nat.not_le.mpr hopener)
  · obtain rfl : earlier.index = opener := hindex
    obtain ⟨-, _, _, hblock, -⟩ := hkinds.block_of_open hstack hmem
    have hkind := hblock.opens.symm.trans h.opens
    exact ⟨earlier, hmem, rfl, LineKind.opener.inj (Option.some.inj hkind)⟩

/-- A block determines its kind, its `else` and its closer by its opener. -/
theorem BlockAt.unique {otherKind : BlockKind} {otherAlternative : Option Nat} {otherCloser : Nat}
    (h : BlockAt kinds kind opener alternative closer)
    (hother : BlockAt kinds otherKind opener otherAlternative otherCloser)
    (hkinds : WellNested kinds) :
    kind = otherKind ∧ alternative = otherAlternative ∧ closer = otherCloser := by
  obtain ⟨hcloser, halternative⟩ :=
    h.encloses.unique_of_opener hother.encloses (well_nested_iff_after.mp hkinds)
  exact ⟨LineKind.opener.inj (Option.some.inj (h.opens.symm.trans hother.opens)), halternative,
    hcloser⟩

/-- A closer closes the block that is the innermost one before it. -/
theorem WellNested.block_of_closer (h : WellNested kinds)
    (hline : kinds[index]? = some (.closer kind))
    (hstack : OpenBlock.after? 0 [] (kinds.take index) = some stack) :
    ∃ opened outer, stack = opened :: outer ∧
      BlockAt kinds kind opened.index opened.alternative index := by
  obtain ⟨following, hnext⟩ := OpenBlock.after_take (well_nested_iff_after.mp h) (index + 1)
  rw [OpenBlock.after_take_succ hline hstack] at hnext
  obtain ⟨opened, rfl, rfl⟩ := OpenBlock.next_closer hnext
  have hsize := (List.getElem?_eq_some_iff.mp hline).1
  have hblock := (Pending.of_after hstack).encloses.append (kinds.drop (index + 1))
  have hsplit : kinds.take index ++ [.closer opened.kind] ++ kinds.drop (index + 1) = kinds := by
    rw [← Option.toList_some, ← hline, ← List.take_add_one, List.take_append_drop]
  rw [hsplit, List.length_take, Nat.min_eq_left (by omega)] at hblock
  obtain ⟨-, _, _, hopened, -⟩ := h.block_of_open hstack List.mem_cons_self
  exact ⟨opened, following, rfl, hblock, hopened.opens⟩

/-- An `else` is a line of the conditional that is the innermost block before it. -/
theorem WellNested.conditional_of_else (h : WellNested kinds)
    (hline : kinds[index]? = some .otherwise)
    (hstack : OpenBlock.after? 0 [] (kinds.take index) = some stack) :
    ∃ opener outer, stack = ⟨.conditional, opener, none⟩ :: outer ∧
      OpenBlock.after? 0 [] (kinds.take (index + 1)) =
        some (⟨.conditional, opener, some index⟩ :: outer) := by
  obtain ⟨following, hnext⟩ := OpenBlock.after_take (well_nested_iff_after.mp h) (index + 1)
  have hturn := hnext
  rw [OpenBlock.after_take_succ hline hstack] at hturn
  obtain ⟨opener, outer, rfl, rfl⟩ := OpenBlock.next_otherwise hturn
  exact ⟨opener, outer, rfl, hnext⟩

end Around

/-- A block is open after a line of a program exactly when the lines up to it do not nest. -/
theorem open_after_iff {kinds : List LineKind} (h : WellNested kinds) {index : Nat}
    (hindex : index < kinds.length) :
    OpenAfter kinds index ↔ ¬ WellNested (kinds.take (index + 1)) := by
  have hscan := well_nested_iff_after.mp h
  constructor
  · rintro ⟨opener, alternative, closer, henclosed, hle, hlt⟩ hnested
    -- Just before its closer the block is open, so it was open after the line.
    obtain ⟨kind, outer, -, hopen, -⟩ := henclosed.after_closer hscan
    rcases OpenBlock.index_of_take hlt hindex (well_nested_iff_after.mp hnested) hopen
      List.mem_cons_self with hnew | ⟨earlier, hmem, -⟩
    · exact absurd hnew (by simp only; omega)
    · cases hmem
  · intro hnested
    obtain ⟨stack, hstack⟩ := OpenBlock.after_take hscan (index + 1)
    cases stack with
    | nil => exact absurd (well_nested_iff_after.mpr hstack) hnested
    | cons opened outer =>
        obtain ⟨hlt, alternative, closer, hblock, hle⟩ :=
          h.block_of_open hstack List.mem_cons_self
        exact ⟨opened.index, alternative, closer, hblock.encloses, by omega, by omega⟩

/-- A line that fits changes the number of open blocks by its balance. -/
theorem balance_of_next {index : Nat} {stack following : List OpenBlock} {line : Text}
    (h : OpenBlock.next? index stack (Line.kind line) = some following) :
    Line.balance line + stack.length = following.length := by
  unfold Line.balance
  cases hkind : Line.kind line with
  | skipped | statement =>
      rw [hkind] at h
      obtain rfl : stack = following := Option.some.inj h
      exact Int.zero_add _
  | opener kind =>
      rw [hkind] at h
      obtain rfl := Option.some.inj h
      simp only [List.length_cons]
      omega
  | otherwise =>
      rw [hkind] at h
      obtain ⟨opener, outer, rfl, rfl⟩ := OpenBlock.next_otherwise h
      exact Int.zero_add _
  | closer kind =>
      rw [hkind] at h
      obtain ⟨opened, rfl, -⟩ := OpenBlock.next_closer h
      simp only [List.length_cons]
      omega

/-- The openers less the closers of lines that fit are the open blocks that they add. -/
theorem balance_of_after {index : Nat} {stack following : List OpenBlock} {lines : List Text}
    (h : OpenBlock.after? index stack (lines.map Line.kind) = some following) :
    lines.foldr (fun line total ↦ Line.balance line + total) 0 + stack.length =
      following.length := by
  induction lines generalizing index stack with
  | nil =>
      obtain rfl : stack = following := Option.some.inj h
      exact Int.zero_add _
  | cons line rest ih =>
      rw [List.map_cons, OpenBlock.after?] at h
      obtain ⟨middle, hnext, hrest⟩ := Option.bind_eq_some_iff.mp h
      have hline := balance_of_next hnext
      have hlast := ih hrest
      rw [List.foldr_cons]
      omega

/-- After lines that nest, the count of openers and closers of further lines tells whether the lines
nest with them, if they can be completed at all. -/
theorem balanced_iff_well_nested {done chunk : List Text} (hdone : WellNested (done.map Line.kind))
    (h : Completable (done ++ chunk)) :
    isBalanced chunk = true ↔ WellNested ((done ++ chunk).map Line.kind) := by
  obtain ⟨stack, hscan⟩ := Option.isSome_iff_exists.mp (completable_iff_after.mp h)
  rw [well_nested_iff_after, hscan]
  rw [List.map_append, OpenBlock.after_append, OpenBlock.after_of_well_nested hdone,
    Option.bind_some] at hscan
  have hcount := balance_of_after hscan
  rw [isBalanced, decide_eq_true_iff, Option.some.injEq, ← List.length_eq_zero_iff]
  simp only [List.length_nil] at hcount
  omega

end PenScript
