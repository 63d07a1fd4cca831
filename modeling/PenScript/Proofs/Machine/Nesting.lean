import Mathlib.Data.List.Forall2
import PenScript.Proofs.Block.Open
import PenScript.Proofs.Machine.Safety

/-!
# Frames and blocks

At every point of a run the frames are those of the blocks around the cursor. `Settled` says this by
the scan of the lines in front of the cursor: its open blocks are the blocks of the frames, so the
cursor can be moved in the same ways as the scan goes on. The one exception is a loop whose
`endwhile` has just been run: the cursor is at its opener again, which is not behind itself, and its
frame is still there (`Stacked.again`). Each kind of line keeps this up, whether it fails or not
(`Stacked.step`), and `frames_are_blocks` says for every point of a run what follows from it.
-/

namespace PenScript

/-- The frame of a block of a kind, with its opener and its closer. There is none for the definition
of a method. -/
inductive Frame.Of : Frame → BlockKind → Nat → Nat → Prop where
  | forLoop (counter : Text) (limit step : Value) (opener closer : Nat) :
      Of (.forLoop counter limit step (opener + 1) closer) .forLoop opener closer
  | whileLoop (opener closer : Nat) : Of (.whileLoop opener closer) .whileLoop opener closer
  | conditional (taken : Bool) (opener closer : Nat) :
      Of (.conditional taken opener closer) .conditional opener closer

theorem Frame.Of.opener_eq {frame : Frame} {kind : BlockKind} {opener closer : Nat}
    (h : frame.Of kind opener closer) : frame.opener = opener := by
  cases h <;> rfl

namespace Block

/-- A line of the block is in a block of this kind, behind its opener and not behind its closer. -/
def Surrounds (block : Block) (kind : BlockKind) (opener closer line : Nat) : Prop :=
  (∃ alternative, BlockAt block.kinds kind opener alternative closer) ∧
    opener < line ∧ line ≤ closer

/-- The frames, innermost first, are one for each block around a line. -/
structure Framed (block : Block) (line : Nat) (frames : List Frame) : Prop where
  ordered : frames.Pairwise fun inner outer ↦ outer.opener < inner.opener
  sound : ∀ frame ∈ frames, ∃ kind opener closer,
    frame.Of kind opener closer ∧ block.Surrounds kind opener closer line
  complete : ∀ kind opener closer, kind ≠ .method → block.Surrounds kind opener closer line →
    ∃ frame ∈ frames, frame.Of kind opener closer

/-- The line is a loop, and the origin is its own closer. -/
def Repeats (block : Block) (origin : Option Nat) (line closer : Nat) : Prop :=
  origin = some closer ∧ ∃ alternative, BlockAt block.kinds .whileLoop line alternative closer

end Block

/-! ### Frames as open blocks -/

/-- The frame is that of an open block. -/
def Frame.Follows (kinds : List LineKind) (frame : Frame) (opened : OpenBlock) : Prop :=
  ∃ alternative closer, BlockAt kinds opened.kind opened.index alternative closer ∧
    frame.Of opened.kind opened.index closer

section Follows

variable {kinds : List LineKind} {frames : List Frame} {stack : List OpenBlock}

/-- The frames have the openers of the open blocks. -/
theorem openers_of_follow (h : List.Forall₂ (Frame.Follows kinds) frames stack) :
    frames.map Frame.opener = stack.map OpenBlock.index := by
  induction h with
  | nil => rfl
  | cons hframe _ ih =>
      obtain ⟨_, _, -, hof⟩ := hframe
      rw [List.map_cons, List.map_cons, ih, hof.opener_eq]

/-- Each frame is that of an open block. -/
theorem open_of_frame (h : List.Forall₂ (Frame.Follows kinds) frames stack) {frame : Frame}
    (hframe : frame ∈ frames) : ∃ opened ∈ stack, frame.Follows kinds opened := by
  induction h with
  | nil => cases hframe
  | cons htop _ ih =>
      rcases List.mem_cons.mp hframe with rfl | hmem
      · exact ⟨_, List.mem_cons_self, htop⟩
      · obtain ⟨opened, hopened, hfollows⟩ := ih hmem
        exact ⟨opened, List.mem_cons_of_mem _ hopened, hfollows⟩

/-- Each open block has a frame. -/
theorem frame_of_open (h : List.Forall₂ (Frame.Follows kinds) frames stack) {opened : OpenBlock}
    (hopened : opened ∈ stack) : ∃ frame ∈ frames, frame.Follows kinds opened := by
  induction h with
  | nil => cases hopened
  | cons htop _ ih =>
      rcases List.mem_cons.mp hopened with rfl | hmem
      · exact ⟨_, List.mem_cons_self, htop⟩
      · obtain ⟨frame, hframe, hfollows⟩ := ih hmem
        exact ⟨frame, List.mem_cons_of_mem _ hframe, hfollows⟩

end Follows

/-- The frames are those of the blocks that are open before the cursor. -/
structure Settled (kinds : List LineKind) (cursor : Nat) (frames : List Frame) : Prop where
  le : cursor ≤ kinds.length
  scan : ∃ stack, OpenBlock.after? 0 [] (kinds.take cursor) = some stack ∧
    List.Forall₂ (Frame.Follows kinds) frames stack

namespace Settled

variable {kinds : List LineKind} {cursor opener closer : Nat} {alternative : Option Nat}
  {kind : BlockKind} {frame : Frame} {frames outer : List Frame}

/-- No frames are there at the start of the lines. -/
theorem start (kinds : List LineKind) : Settled kinds 0 [] :=
  ⟨Nat.zero_le _, [], rfl, .nil⟩

/-- The frames stay after a line outside the block structure. -/
theorem next (h : Settled kinds cursor frames) {line : LineKind}
    (hline : kinds[cursor]? = some line) (hplain : line = .skipped ∨ line = .statement) :
    Settled kinds (cursor + 1) frames := by
  obtain ⟨-, stack, hstack, hframes⟩ := h
  refine ⟨(List.getElem?_eq_some_iff.mp hline).1, stack, ?_, hframes⟩
  rw [OpenBlock.after_take_succ hline hstack]
  rcases hplain with rfl | rfl <;> rfl

/-- The frame of a block is added behind its opener. -/
theorem body (h : Settled kinds opener outer)
    (hblock : BlockAt kinds kind opener alternative closer) (hframe : frame.Of kind opener closer) :
    Settled kinds (opener + 1) (frame :: outer) := by
  obtain ⟨-, stack, hstack, hframes⟩ := h
  refine ⟨(List.getElem?_eq_some_iff.mp hblock.opens).1, ⟨kind, opener, none⟩ :: stack, ?_, ?_⟩
  · rw [OpenBlock.after_take_succ hblock.opens hstack]
    rfl
  · exact .cons ⟨alternative, closer, hblock, hframe⟩ hframes

/-- The frame of a conditional is there at its `else`. -/
theorem otherwise (h : Settled kinds opener outer) (hkinds : WellNested kinds) {turn : Nat}
    (hblock : BlockAt kinds .conditional opener (some turn) closer)
    (hframe : frame.Of .conditional opener closer) : Settled kinds turn (frame :: outer) := by
  obtain ⟨-, stack, hstack, hframes⟩ := h
  obtain ⟨_, -, -, hturn⟩ := hblock.encloses.kind_at
  obtain ⟨around, hscan⟩ := hblock.encloses.after_alternative (well_nested_iff_after.mp hkinds)
  obtain rfl : around = stack :=
    Option.some.inj ((OpenBlock.outer_of_after hscan).symm.trans hstack)
  exact ⟨Nat.le_of_lt (List.getElem?_eq_some_iff.mp (hturn turn rfl)).1, _, hscan,
    .cons ⟨some turn, closer, hblock, hframe⟩ hframes⟩

/-- The frame of a block is gone behind its closer. -/
theorem behind (h : Settled kinds opener outer) (hkinds : WellNested kinds)
    (hblock : BlockAt kinds kind opener alternative closer) : Settled kinds (closer + 1) outer := by
  obtain ⟨-, stack, hstack, hframes⟩ := h
  obtain ⟨_, -, hline, -⟩ := hblock.encloses.kind_at
  obtain ⟨_, _, hfirst, -, hclosed⟩ :=
    hblock.encloses.after_closer (well_nested_iff_after.mp hkinds)
  obtain rfl := Option.some.inj (hfirst.symm.trans hstack)
  exact ⟨(List.getElem?_eq_some_iff.mp hline).1, _, hclosed, hframes⟩

/-- The frame of a block is still there at its closer. -/
theorem closing (h : Settled kinds opener outer) (hkinds : WellNested kinds)
    (hblock : BlockAt kinds kind opener alternative closer) (hframe : frame.Of kind opener closer) :
    Settled kinds closer (frame :: outer) := by
  obtain ⟨-, stack, hstack, hframes⟩ := h
  obtain ⟨_, -, hline, -⟩ := hblock.encloses.kind_at
  obtain ⟨_, _, hfirst, hclosing, -⟩ :=
    hblock.encloses.after_closer (well_nested_iff_after.mp hkinds)
  obtain rfl := Option.some.inj (hfirst.symm.trans hstack)
  -- The scan does not say of which kind its innermost block is, but the opener does.
  obtain ⟨-, _, _, hopen, -⟩ := hkinds.block_of_open hclosing List.mem_cons_self
  obtain ⟨rfl, -, -⟩ := hblock.unique hopen hkinds
  exact ⟨Nat.le_of_lt (List.getElem?_eq_some_iff.mp hline).1, _, hclosing,
    .cons ⟨alternative, closer, hblock, hframe⟩ hframes⟩

/-- The innermost frame at a closer is that of its block. -/
theorem at_closer (h : Settled kinds cursor frames) (hkinds : WellNested kinds)
    (hline : kinds[cursor]? = some (.closer kind)) :
    ∃ frame outer opener alternative, frames = frame :: outer ∧
      BlockAt kinds kind opener alternative cursor ∧ frame.Of kind opener cursor ∧
      Settled kinds opener outer := by
  obtain ⟨-, stack, hstack, hframes⟩ := h
  obtain ⟨opened, around, rfl, hblock⟩ := hkinds.block_of_closer hline hstack
  -- The frame has been pushed for this block, so its closer is the cursor.
  cases hframes with
  | @cons frame _ outer _ hframe houter =>
      obtain ⟨alternative, closer, hother, hof⟩ := hframe
      obtain ⟨hkind, -, hcloser⟩ := hblock.unique hother hkinds
      have hsize := (List.getElem?_eq_some_iff.mp hblock.opens).1
      refine ⟨frame, outer, opened.index, _, rfl, hblock, ?_, Nat.le_of_lt hsize, _,
        OpenBlock.outer_of_after hstack, houter⟩
      rw [hkind, hcloser]
      exact hof

/-- The innermost frame at an `else` is that of its conditional, and it is still there behind it. -/
theorem at_else (h : Settled kinds cursor frames) (hkinds : WellNested kinds)
    (hline : kinds[cursor]? = some .otherwise) :
    ∃ taken opener alternative closer outer, frames = .conditional taken opener closer :: outer ∧
      BlockAt kinds .conditional opener alternative closer ∧ Settled kinds opener outer ∧
      Settled kinds (cursor + 1) frames := by
  obtain ⟨-, stack, hstack, hframes⟩ := h
  obtain ⟨opener, around, rfl, hnext⟩ := hkinds.conditional_of_else hline hstack
  cases hframes with
  | cons hframe houter =>
      obtain ⟨alternative, closer, hblock, hof⟩ := hframe
      have hsize := (List.getElem?_eq_some_iff.mp hblock.opens).1
      have hcursor := (List.getElem?_eq_some_iff.mp hline).1
      cases hof with
      | conditional taken =>
          exact ⟨taken, opener, alternative, closer, _, rfl, hblock,
            ⟨Nat.le_of_lt hsize, _, OpenBlock.outer_of_after hstack, houter⟩, hcursor, _, hnext,
            .cons ⟨alternative, closer, hblock, .conditional taken opener closer⟩ houter⟩

/-- The innermost frame is that of a block that opens before the cursor. -/
theorem outside (h : Settled kinds cursor frames) : Outside frames cursor := by
  intro frame hframe
  obtain ⟨-, stack, hstack, hframes⟩ := h
  cases hframes with
  | nil => cases hframe
  | cons htop _ =>
      obtain rfl := Option.some.inj hframe
      obtain ⟨_, _, -, hof⟩ := htop
      rw [hof.opener_eq]
      exact OpenBlock.index_lt_of_after hstack List.mem_cons_self

/-- Past the last line there are no frames. -/
theorem at_end (h : Settled kinds kinds.length frames) (hkinds : WellNested kinds) :
    frames = [] := by
  obtain ⟨-, stack, hstack, hframes⟩ := h
  rw [List.take_length, well_nested_iff_after.mp hkinds] at hstack
  obtain rfl := Option.some.inj hstack
  cases hframes
  rfl

end Settled

/-- The frames of the open blocks before a line are those of the blocks around it. -/
theorem Settled.framed {block : Block} {cursor : Nat} {frames : List Frame}
    (h : Settled block.kinds cursor frames) : block.Framed cursor frames := by
  have hkinds := block.well_nested
  obtain ⟨-, stack, hstack, hframes⟩ := h
  refine ⟨?_, fun frame hframe ↦ ?_, fun kind opener closer _ hsurrounds ↦ ?_⟩
  · have hsorted := (Pending.of_after hstack).sorted
    rw [← List.pairwise_map (f := OpenBlock.index) (R := fun inner outer ↦ outer < inner),
      ← openers_of_follow hframes] at hsorted
    exact List.pairwise_map.mp hsorted
  · obtain ⟨opened, hopened, alternative, closer, hblock, hof⟩ := open_of_frame hframes hframe
    obtain ⟨hlt, _, _, hother, hle⟩ := hkinds.block_of_open hstack hopened
    obtain ⟨-, -, rfl⟩ := hblock.unique hother hkinds
    exact ⟨_, _, closer, hof, ⟨alternative, hblock⟩, hlt, hle⟩
  · obtain ⟨⟨alternative, hblock⟩, hlt, hle⟩ := hsurrounds
    obtain ⟨opened, hopened, rfl, rfl⟩ := hblock.open_at hkinds hlt hle hstack
    obtain ⟨frame, hframe, _, _, hother, hof⟩ := frame_of_open hframes hopened
    obtain ⟨-, -, rfl⟩ := hblock.unique hother hkinds
    exact ⟨frame, hframe, hof⟩

/-- No line with such frames is in the definition of a method. -/
theorem Settled.not_method {block : Block} {cursor : Nat} {frames : List Frame}
    (h : Settled block.kinds cursor frames) (opener closer : Nat) :
    ¬ block.Surrounds .method opener closer cursor := by
  rintro ⟨⟨alternative, hblock⟩, hlt, hle⟩
  obtain ⟨-, stack, hstack, hframes⟩ := h
  obtain ⟨opened, hopened, -, hkind⟩ := hblock.open_at block.well_nested hlt hle hstack
  obtain ⟨frame, -, _, _, -, hof⟩ := frame_of_open hframes hopened
  rw [hkind] at hof
  cases hof

/-! ### Steps -/

/-- The frames at a line, with the line where the machine was just before. They are those of the
open blocks, and on top of them that of a loop whose closer was the line before. -/
inductive Stacked (kinds : List LineKind) : Option Nat → Nat → List Frame → Prop where
  | settled {origin : Option Nat} {cursor : Nat} {frames : List Frame}
      (hframes : Settled kinds cursor frames)
      (horigin : ∀ index ∈ origin, kinds[index]? ≠ some (.closer .whileLoop)) :
      Stacked kinds origin cursor frames
  | again {cursor closer : Nat} {alternative : Option Nat} {outer : List Frame}
      (houter : Settled kinds cursor outer)
      (hblock : BlockAt kinds .whileLoop cursor alternative closer) :
      Stacked kinds (some closer) cursor (.whileLoop cursor closer :: outer)

section Steps

variable {block : Block} {line : Text} {cursor : Nat} {frames : List Frame} {world : World}
  {calls : Calls} {next : State}

/-- The block that a line opens, in the lines and in the map. -/
theorem Block.block_at {kind : BlockKind} (hline : block.lines[cursor]? = some line)
    (hopens : Line.kind line = .opener kind) :
    ∃ alternative closer, BlockAt block.kinds kind cursor alternative closer ∧
      block.map.partner? cursor = some closer ∧ block.map.else? cursor = alternative := by
  have hkind := hopens ▸ Block.kind_at hline
  obtain ⟨alternative, closer, hblock⟩ := block.well_nested.encloses hkind
  obtain ⟨hpartner, helse⟩ := Block.map_of_encloses hblock
  exact ⟨alternative, closer, ⟨hblock, hkind⟩, hpartner, helse⟩

/-- A line outside the block structure. -/
theorem Settled.step_plain (h : Settled block.kinds cursor frames)
    (hline : block.lines[cursor]? = some line)
    (hplain : Line.kind line = .skipped ∨ Line.kind line = .statement)
    (hstep : (world.place cursor frames).execute calls block line = .onward next) :
    Settled block.kinds next.cursor next.frames := by
  rw [execute_plain hplain] at hstep
  obtain ⟨after, -, rfl⟩ := Flow.map_onward hstep
  exact h.next (Block.kind_at hline) hplain

/-- A conditional. -/
theorem Settled.step_conditional (h : Settled block.kinds cursor frames)
    (hline : block.lines[cursor]? = some line) (hopens : Line.kind line = .opener .conditional)
    (hstep : (world.place cursor frames).execute calls block line = .onward next) :
    Settled block.kinds next.cursor next.frames := by
  obtain ⟨alternative, closer, hblock, hpartner, helse⟩ := Block.block_at hline hopens
  have hbehind := h.behind block.well_nested hblock
  rw [execute_conditional hopens hpartner h.outside, helse] at hstep
  cases htest : world.test "if condition".toList line with
  | error error =>
      rw [htest] at hstep
      obtain ⟨after, -, rfl⟩ := Flow.map_onward hstep
      exact hbehind
  | ok taken =>
      rw [htest] at hstep
      cases taken with
      | true =>
          obtain rfl := Flow.onward.inj hstep
          exact h.body hblock (.conditional true cursor closer)
      | false =>
          obtain rfl := Flow.onward.inj hstep
          cases alternative with
          | none =>
              exact h.closing block.well_nested hblock (.conditional false cursor closer)
          | some turn =>
              exact h.otherwise block.well_nested hblock (.conditional false cursor closer)

/-- A loop, which is reached from outside or again. -/
theorem Settled.step_while {outer : List Frame} (h : Settled block.kinds cursor outer)
    (hline : block.lines[cursor]? = some line) (hopens : Line.kind line = .opener .whileLoop)
    (harrives : frames = outer ∨ ∃ alternative closer,
      BlockAt block.kinds .whileLoop cursor alternative closer ∧
        frames = .whileLoop cursor closer :: outer)
    (hstep : (world.place cursor frames).execute calls block line = .onward next) :
    Settled block.kinds next.cursor next.frames := by
  obtain ⟨alternative, closer, hblock, hpartner, -⟩ := Block.block_at hline hopens
  have hbehind := h.behind block.well_nested hblock
  have harrives : Arrives cursor closer outer frames := by
    rcases harrives with rfl | ⟨_, _, hother, rfl⟩
    · exact .inl ⟨rfl, h.outside⟩
    · obtain ⟨-, -, rfl⟩ := hblock.unique hother block.well_nested
      exact .inr rfl
  rw [execute_while hopens hpartner harrives] at hstep
  cases htest : world.test "while condition".toList line with
  | error error =>
      rw [htest] at hstep
      obtain ⟨after, -, rfl⟩ := Flow.map_onward hstep
      exact hbehind
  | ok again =>
      rw [htest] at hstep
      cases again with
      | true =>
          obtain rfl := Flow.onward.inj hstep
          exact h.body hblock (.whileLoop cursor closer)
      | false =>
          obtain rfl := Flow.onward.inj hstep
          exact hbehind

/-- A counting loop. -/
theorem Settled.step_for (h : Settled block.kinds cursor frames)
    (hline : block.lines[cursor]? = some line) (hopens : Line.kind line = .opener .forLoop)
    (hstep : (world.place cursor frames).execute calls block line = .onward next) :
    Settled block.kinds next.cursor next.frames := by
  obtain ⟨alternative, closer, hblock, hpartner, -⟩ := Block.block_at hline hopens
  have hbehind := h.behind block.well_nested hblock
  rw [execute_for hopens hpartner h.outside] at hstep
  cases hcount : world.count line with
  | error error =>
      rw [hcount] at hstep
      obtain ⟨after, -, rfl⟩ := Flow.map_onward hstep
      exact hbehind
  | ok counting =>
      obtain ⟨counter, bounds, enters⟩ := counting
      rw [hcount] at hstep
      cases enters with
      | true =>
          obtain rfl := Flow.onward.inj hstep
          exact h.body hblock (.forLoop counter bounds.limit bounds.step cursor closer)
      | false =>
          obtain rfl := Flow.onward.inj hstep
          exact hbehind

/-- The definition of a method. -/
theorem Settled.step_method (h : Settled block.kinds cursor frames)
    (hline : block.lines[cursor]? = some line) (hopens : Line.kind line = .opener .method)
    (hstep : (world.place cursor frames).execute calls block line = .onward next) :
    Settled block.kinds next.cursor next.frames := by
  obtain ⟨alternative, closer, hblock, hpartner, -⟩ := Block.block_at hline hopens
  have hbehind := h.behind block.well_nested hblock
  rw [execute_method hopens hpartner h.outside] at hstep
  cases hdefine : Method.define (Line.splitWord line).2 (block.lines.extract (cursor + 1) closer)
      (block.lineNumber (cursor + 1)) with
  | error error =>
      rw [hdefine] at hstep
      obtain ⟨after, -, rfl⟩ := Flow.map_onward hstep
      exact hbehind
  | ok method =>
      rw [hdefine] at hstep
      obtain rfl := Flow.onward.inj hstep
      exact hbehind

/-- An `else`. -/
theorem Settled.step_else (h : Settled block.kinds cursor frames)
    (hline : block.lines[cursor]? = some line) (hturns : Line.kind line = .otherwise)
    (hstep : (world.place cursor frames).execute calls block line = .onward next) :
    Settled block.kinds next.cursor next.frames := by
  obtain ⟨taken, opener, alternative, closer, outer, rfl, hblock, houter, hnext⟩ :=
    h.at_else block.well_nested (hturns ▸ Block.kind_at hline)
  rw [execute_else hturns] at hstep
  obtain rfl := Flow.onward.inj hstep
  cases taken with
  | true => exact houter.closing block.well_nested hblock (.conditional true opener closer)
  | false => exact hnext

/-- The closer of a block that is no loop with a condition. -/
theorem Settled.step_closer {kind : BlockKind} (h : Settled block.kinds cursor frames)
    (hline : block.lines[cursor]? = some line) (hcloses : Line.kind line = .closer kind)
    (hkind : kind ≠ .whileLoop)
    (hstep : (world.place cursor frames).execute calls block line = .onward next) :
    Settled block.kinds next.cursor next.frames := by
  obtain ⟨frame, outer, opener, alternative, rfl, hblock, hof, houter⟩ :=
    h.at_closer block.well_nested (hcloses ▸ Block.kind_at hline)
  have hbehind := houter.behind block.well_nested hblock
  cases hof with
  | whileLoop => exact absurd rfl hkind
  | conditional taken =>
      rw [execute_end_conditional hcloses] at hstep
      obtain rfl := Flow.onward.inj hstep
      exact hbehind
  | forLoop counter limit step =>
      rw [execute_end_for hcloses] at hstep
      cases hadvance : world.advance counter limit step with
      | error error =>
          rw [hadvance] at hstep
          obtain ⟨after, -, rfl⟩ := Flow.map_onward hstep
          exact hbehind
      | ok result =>
          obtain ⟨value, again⟩ := result
          rw [hadvance] at hstep
          cases again with
          | true =>
              obtain rfl := Flow.onward.inj hstep
              exact houter.body hblock (.forLoop counter limit step opener cursor)
          | false =>
              obtain rfl := Flow.onward.inj hstep
              exact hbehind

/-- The closer of a loop with a condition. -/
theorem Settled.step_end_while (h : Settled block.kinds cursor frames)
    (hline : block.lines[cursor]? = some line) (hcloses : Line.kind line = .closer .whileLoop)
    (hstep : (world.place cursor frames).execute calls block line = .onward next) :
    Stacked block.kinds (some cursor) next.cursor next.frames := by
  obtain ⟨frame, outer, opener, alternative, rfl, hblock, hof, houter⟩ :=
    h.at_closer block.well_nested (hcloses ▸ Block.kind_at hline)
  cases hof with
  | whileLoop =>
      rw [execute_end_while hcloses] at hstep
      obtain rfl := Flow.onward.inj hstep
      exact .again houter hblock

/-- Every other line keeps the frames those of the open blocks. -/
theorem Settled.step (h : Settled block.kinds cursor frames)
    (hline : block.lines[cursor]? = some line) (hcloses : Line.kind line ≠ .closer .whileLoop)
    (hstep : (world.place cursor frames).execute calls block line = .onward next) :
    Settled block.kinds next.cursor next.frames := by
  cases hkind : Line.kind line with
  | skipped => exact h.step_plain hline (.inl hkind) hstep
  | statement => exact h.step_plain hline (.inr hkind) hstep
  | otherwise => exact h.step_else hline hkind hstep
  | opener kind =>
      cases kind with
      | conditional => exact h.step_conditional hline hkind hstep
      | whileLoop => exact h.step_while hline hkind (.inl rfl) hstep
      | forLoop => exact h.step_for hline hkind hstep
      | method => exact h.step_method hline hkind hstep
  | closer kind =>
      refine h.step_closer hline hkind ?_ hstep
      rintro rfl
      exact hcloses hkind

/-- Every line leads to a line with the right frames. -/
theorem Stacked.step {origin : Option Nat} {state : State}
    (h : Stacked block.kinds origin state.cursor state.frames)
    (hline : block.lines[state.cursor]? = some line)
    (hstep : state.execute calls block line = .onward next) :
    Stacked block.kinds (some state.cursor) next.cursor next.frames := by
  have hplaced : (World.place ⟨state.scope, state.interpreter⟩ state.cursor state.frames).execute
      calls block line = .onward next := hstep
  have hkind := Block.kind_at hline
  -- From any other line than the closer of a loop no opener is reached again.
  have horigin : Line.kind line ≠ .closer .whileLoop →
      ∀ index ∈ some state.cursor, block.kinds[index]? ≠ some (.closer .whileLoop) := by
    intro hcloses index hindex hother
    obtain rfl := Option.some.inj hindex
    exact hcloses (Option.some.inj (hkind.symm.trans hother))
  generalize state.cursor = cursor, state.frames = frames at *
  cases h with
  | settled hframes _ =>
      by_cases hcloses : Line.kind line = .closer .whileLoop
      · exact hframes.step_end_while hline hcloses hplaced
      · exact .settled (hframes.step hline hcloses hplaced) (horigin hcloses)
  | again houter hblock =>
      have hopens : Line.kind line = .opener .whileLoop :=
        Option.some.inj (hkind.symm.trans hblock.opens)
      refine .settled (houter.step_while hline hopens (.inr ⟨_, _, hblock, rfl⟩) hplaced)
        (horigin ?_)
      rw [hopens]
      exact fun hcloses ↦ by cases hcloses

end Steps

/-! ### Points of a run -/

/-- The machine gets from a state in a block to a state in the same block or in the body of a
method. The origin is the line at which the machine was just before in the same run of the block;
at the start of that run there is none. -/
inductive VisitsFrom (block : Block) (state : State) : Block → Option Nat → State → Prop where
  | here : VisitsFrom block state block none state
  | step {current : Block} {origin : Option Nat} {place next : State} {line : Text} {fuel : Nat} :
      VisitsFrom block state current origin place →
      current.lines[place.cursor]? = some line →
      place.execute (runCalls fuel) current line = .onward next →
      VisitsFrom block state current (some place.cursor) next
  | call {current : Block} {origin : Option Nat} {place : State} {line : Text}
      {call : Interpreter.Call} :
      VisitsFrom block state current origin place →
      current.lines[place.cursor]? = some line →
      place.decide current line = .ok (.call call) →
      VisitsFrom block state call.method.block none
        (.start call.locals place.interpreter.enter)

/-- Every state that the machine visits has an origin or is the start of a run of its block. -/
theorem visits_iff_from {block current : Block} {state place : State} :
    Visits block state current place ↔ ∃ origin, VisitsFrom block state current origin place := by
  constructor
  · intro h
    induction h with
    | here => exact ⟨none, .here⟩
    | step _ hline hstep ih =>
        obtain ⟨origin, hplace⟩ := ih
        exact ⟨_, .step hplace hline hstep⟩
    | call _ hline hdecide ih =>
        obtain ⟨origin, hplace⟩ := ih
        exact ⟨none, .call hplace hline hdecide⟩
  · rintro ⟨origin, h⟩
    induction h with
    | here => exact .here
    | step _ hline hstep ih => exact .step ih hline hstep
    | call _ hline hdecide ih => exact .call ih hline hdecide

/-- The frames are right at every point of a run. -/
theorem VisitsFrom.stacked {block current : Block} {scope : Scope} {interpreter : Interpreter}
    {origin : Option Nat} {state : State}
    (h : VisitsFrom block (.start scope interpreter) current origin state) :
    Stacked current.kinds origin state.cursor state.frames := by
  have hstart : ∀ kinds, Stacked kinds none 0 [] := by
    intro kinds
    exact .settled (.start kinds) fun _ hnone ↦ by cases hnone
  induction h with
  | here => exact hstart block.kinds
  | step _ hline hstep ih => exact ih.step hline hstep
  -- The body of a method is a block of its own, and its run starts without frames.
  | call => exact hstart _

/-- At every point of a run the cursor is a line of the block or its end, and never in the
definition of a method. The frames are one for each other block around the cursor, the innermost one
on top. Where a loop is reached from its own closer, and only there, its frame is on top of them. So
there are no frames at the end of a block. -/
theorem frames_are_blocks {block current : Block} {scope : Scope} {interpreter : Interpreter}
    {origin : Option Nat} {state : State}
    (h : VisitsFrom block (.start scope interpreter) current origin state) :
    state.cursor ≤ current.lines.size ∧
    (∀ opener closer, ¬ current.Surrounds .method opener closer state.cursor) ∧
    (∃ around, current.Framed state.cursor around ∧
      (∀ closer, current.Repeats origin state.cursor closer →
        state.frames = .whileLoop state.cursor closer :: around) ∧
      ((∀ closer, ¬ current.Repeats origin state.cursor closer) → state.frames = around)) ∧
    (state.cursor = current.lines.size → state.frames = []) := by
  have hsize := current.length_kinds
  have hstacked := h.stacked
  clear h
  generalize state.cursor = cursor, state.frames = frames at hstacked
  cases hstacked with
  | settled hframes horigin =>
      have hnone : ∀ closer, ¬ current.Repeats origin cursor closer := by
        rintro closer ⟨hcloser, _, hblock⟩
        obtain ⟨kind, hopens, hcloses, -⟩ := hblock.encloses.kind_at
        obtain rfl := LineKind.opener.inj (Option.some.inj (hopens.symm.trans hblock.opens))
        exact horigin closer hcloser hcloses
      refine ⟨hsize ▸ hframes.le, hframes.not_method, ⟨frames, hframes.framed, ?_, fun _ ↦ rfl⟩, ?_⟩
      · intro closer hrepeats
        exact absurd hrepeats (hnone closer)
      · intro hend
        rw [hend, ← hsize] at hframes
        exact hframes.at_end current.well_nested
  | @again _ closer alternative outer houter hblock =>
      have hrepeats : current.Repeats (some closer) cursor closer := ⟨rfl, alternative, hblock⟩
      refine ⟨hsize ▸ houter.le, houter.not_method, ⟨outer, houter.framed, ?_, ?_⟩, ?_⟩
      · rintro other ⟨hother, -⟩
        rw [Option.some.inj hother]
      · intro hnone
        exact absurd hrepeats (hnone closer)
      · intro hend
        have hlt := (List.getElem?_eq_some_iff.mp hblock.opens).1
        omega

/-- A loop in a conditional, after its first pass. -/
theorem frames_are_blocks_of_pass :
    ∃ (block : Block) (state : State) (around : List Frame),
      Block.ofLines ["if true".toList, "while true".toList, "endwhile".toList,
        "endif".toList].toArray 1 = .ok block ∧
      VisitsFrom block (.start .empty (.new {} .standard)) block (some 2) state ∧
      state.cursor = 1 ∧ state.frames = .whileLoop 1 2 :: around ∧ block.Framed 1 around := by
  let world : World := ⟨.empty, .new {} .standard⟩
  obtain ⟨block, hblock, hkinds, hopener, hloop, hcloser, hopened, hentered⟩ :
      ∃ block : Block,
        Block.ofLines ["if true".toList, "while true".toList, "endwhile".toList,
          "endif".toList].toArray 1 = .ok block ∧
        block.kinds = [.opener .conditional, .opener .whileLoop, .closer .whileLoop,
          .closer .conditional] ∧
        block.lines[0]? = some "if true".toList ∧ block.lines[1]? = some "while true".toList ∧
        block.lines[2]? = some "endwhile".toList ∧
        block.map.partner? 0 = some 3 ∧ block.map.partner? 1 = some 2 :=
    ⟨_, rfl, rfl, rfl, rfl, rfl, rfl, rfl⟩
  have htrue : Expression.condition .empty "true".toList = .ok true := by
    have hvalue : (Expression.condition .empty "true".toList).toOption = some true := by
      decide +kernel
    cases hcondition : Expression.condition .empty "true".toList with
    | error error =>
        rw [hcondition] at hvalue
        cases hvalue
    | ok value =>
        rw [hcondition] at hvalue
        exact congrArg Except.ok (Option.some.inj hvalue)
  have htaken : world.test "if condition".toList "if true".toList = .ok true := htrue
  have hagain : world.test "while condition".toList "while true".toList = .ok true := htrue
  have hfirst : (world.place 0 []).execute (runCalls 0) block "if true".toList =
      .onward (world.place 1 [.conditional true 0 3]) := by
    rw [execute_conditional rfl hopened (.nil 0), htaken]
  have hsecond : (world.place 1 [.conditional true 0 3]).execute (runCalls 0) block
      "while true".toList = .onward (world.place 2 [.whileLoop 1 2, .conditional true 0 3]) := by
    have houtside : Outside [.conditional true 0 3] 1 := by simp [Outside, Frame.opener]
    rw [execute_while rfl hentered (.inl ⟨rfl, houtside⟩), hagain]
  have hthird : (world.place 2 [.whileLoop 1 2, .conditional true 0 3]).execute (runCalls 0) block
      "endwhile".toList = .onward (world.place 1 [.whileLoop 1 2, .conditional true 0 3]) :=
    execute_end_while rfl (runCalls 0) world
  have hvisits : VisitsFrom block (world.place 0 []) block (some 2)
      (world.place 1 [.whileLoop 1 2, .conditional true 0 3]) :=
    .step (.step (.step .here hopener hfirst) hloop hsecond) hcloser hthird
  have hrepeats : block.Repeats (some 2) 1 2 := by
    refine ⟨rfl, none, ?_⟩
    rw [hkinds]
    exact ⟨⟨[.opener .conditional], .whileLoop, none, [], [.closer .conditional], rfl,
      .body .empty, rfl, rfl, rfl⟩, rfl⟩
  obtain ⟨-, -, ⟨around, hframed, hrepeated, -⟩, -⟩ := frames_are_blocks hvisits
  exact ⟨block, _, around, hblock, hvisits, rfl, hrepeated 2 hrepeats, hframed⟩

end PenScript
