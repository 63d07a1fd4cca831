import PenScript.Proofs.Error.Harmless
import PenScript.Proofs.Machine.Step
import PenScript.Proofs.Program.Location

/-!
# Induction over a program in the machine

The machine jumps between lines, but between the first line of a piece of a program and the line
after the piece it does what the piece does. `Simulation` lists what a relation between states of
the machine and flows of pieces must satisfy, in terms of single steps, and `Simulation.exec` says
that such a relation holds of every program in a block. The relation has a bound that shrinks with
every pass of a loop.

The proof is an induction on the nesting tree, with an induction on the passes of each loop inside
it. What the frames have to do with the map of the block is settled here once.
-/

namespace PenScript

/-- A relation between a bound, a state of the machine, the flow of the piece of a program that the
machine is in front of, and the line and the frames at the end of the piece, that is closed under
the steps of the machine. The meaning of method calls in the flows is a parameter. -/
structure Simulation (block : Block) (calls : Calls)
    (Related : Nat → State → Flow World → Nat → List Frame → Prop) : Prop where
  /-- The piece is empty. -/
  arrived (bound : Nat) (world : World) (target : Nat) (frames : List Frame) :
    Related bound (world.place target frames) (.onward world) target frames
  /-- The bound is used up. -/
  exhausted (state : State) (target : Nat) (frames : List Frame) :
    Related 0 state .unfinished target frames
  /-- The bound can be lowered. -/
  lower {bound : Nat} {state : State} {flow : Flow World} {target : Nat} {frames : List Frame} :
    Related (bound + 1) state flow target frames → Related bound state flow target frames
  /-- A step that goes on. -/
  step {bound : Nat} {state next : State} {line : Text} {flow : Flow World} {target : Nat}
    {frames : List Frame} :
    block.lines[state.cursor]? = some line →
    (∀ calls, state.execute calls block line = .onward next) →
    Related bound next flow target frames → Related (bound + 1) state flow target frames
  /-- A step that fails with an error of the line and leaves the piece. -/
  failed {bound : Nat} {state : State} {line : Text} {world : World} {error : Error}
    {target : Nat} {frames : List Frame} :
    block.lines[state.cursor]? = some line →
    (∀ calls, state.execute calls block line =
      (world.fail (block.lineNumber state.cursor) line error).map (·.place target frames)) →
    error.isFatal = false →
    Related bound state (world.fail (block.lineNumber state.cursor) line error) target frames
  /-- A line outside the block structure. -/
  plain {bound index : Nat} {line : Text} {frames : List Frame} (world : World) :
    block.lines[index]? = some line →
    (Line.kind line = .skipped ∨ Line.kind line = .statement) →
    Related bound (world.place index frames) (world.line calls (block.lineNumber index) line)
      (index + 1) frames
  /-- One piece after another. -/
  and_then {bound : Nat} {state : State} {flow : Flow World} {rest : World → Flow World}
    {target next : Nat} {frames others : List Frame} :
    Related bound state flow target frames →
    (∀ world, Related bound (world.place target frames) (rest world) next others) →
    Related bound state (flow.andThen rest) next others

/-- The line at an index some lines later. -/
theorem Block.line_number_add (block : Block) (index count : Nat) :
    block.lineNumber (index + count) = block.lineNumber index + count :=
  (Nat.add_assoc block.firstLine index count).symm

/-- The frame of a block that opens before a line is outside the line. -/
theorem outside_cons {frame : Frame} {cursor : Nat} (h : frame.opener < cursor)
    (frames : List Frame) : Outside (frame :: frames) cursor := by
  intro first hfirst
  obtain rfl : frame = first := Option.some.inj hfirst
  exact h

/-- What is outside a line is outside the lines after it. -/
theorem Outside.mono {frames : List Frame} {cursor later : Nat} (h : Outside frames cursor)
    (hle : cursor ≤ later) : Outside frames later :=
  fun frame hframe ↦ Nat.lt_of_lt_of_le (h frame hframe) hle

section Harmless

/-- No error of a condition is fatal. -/
theorem World.test_harmless (world : World) (shape header : Text) :
    Harmless (world.test shape header) := by
  refine Harmless.bind (.ite (.error rfl) (.ok _)) fun text ↦ ?_
  exact Expression.condition_harmless _ _

/-- No error of the header of a counting loop is fatal. -/
theorem World.count_harmless (world : World) (header : Text) : Harmless (world.count header) := by
  unfold World.count
  split
  · exact .error rfl
  · exact (Loop.bounds_harmless _ _).bind fun _ ↦ (Loop.in_range_harmless _ _ _).bind fun _ ↦ .ok _

/-- No error of the counter of a loop is fatal. -/
theorem World.advance_harmless (world : World) (counter : Text) (limit step : Value) :
    Harmless (world.advance counter limit step) :=
  (Command.variable_of_harmless _ _).bind fun _ ↦
    (Loop.advance_harmless _ _).bind fun _ ↦ (Loop.in_range_harmless _ _ _).bind fun _ ↦ .ok _

/-- The definition of a method whose body nests has no fatal error. -/
theorem Method.define_harmless (header : Text) {body : Array Text}
    (h : WellNested (body.toList.map Line.kind)) (firstLine : Nat) :
    Harmless (Method.define header body firstLine) := by
  -- The body nests by itself, so what is left to fail is the name and the parameters.
  obtain ⟨map, hmap⟩ := (@BlockMap.build_ok_iff _ firstLine).mpr h
  obtain ⟨block, hblock, -, -⟩ := Block.of_lines_ok hmap
  refine (Harmless.mapError (fun _ ↦ rfl) _).bind fun (name, parameters) ↦ ?_
  dsimp only
  rw [hblock]
  exact .ok _

end Harmless

namespace Simulation

variable {block : Block} {calls : Calls} {passes : Nat}
  {Related : Nat → State → Flow World → Nat → List Frame → Prop}

/-- The relation holds whenever the machine is at an index, outside the blocks that are being run,
in front of a piece of a program. -/
def Follows (Related : Nat → State → Flow World → Nat → List Frame → Prop)
    (passes index target : Nat) (piece : World → Flow World) : Prop :=
  ∀ bound world frames, bound ≤ passes → Outside frames index →
    Related bound (world.place index frames) (piece world) target frames

/-- A step that goes on and does not shrink the bound. -/
theorem stay (h : Simulation block calls Related) {bound : Nat} {state next : State} {line : Text}
    {flow : Flow World} {target : Nat} {frames : List Frame}
    (hline : block.lines[state.cursor]? = some line)
    (hstep : ∀ calls, state.execute calls block line = .onward next)
    (hnext : Related bound next flow target frames) : Related bound state flow target frames :=
  h.lower (h.step hline hstep hnext)

/-- The last step of a piece. -/
theorem last (h : Simulation block calls Related) {bound : Nat} {state : State} {line : Text}
    {world : World} {target : Nat} {frames : List Frame}
    (hline : block.lines[state.cursor]? = some line)
    (hstep : ∀ calls, state.execute calls block line = .onward (world.place target frames)) :
    Related bound state (.onward world) target frames :=
  h.stay hline hstep (h.arrived bound world target frames)

/-- The part of a conditional that the machine is in ends with the conditional. -/
theorem leave_conditional (h : Simulation block calls Related) {bound : Nat} {state : State}
    {flow : Flow World} {closer : Text} {target : Nat} {frames : List Frame} (taken : Bool)
    (opener : Nat) (hcloses : Line.kind closer = .closer .conditional)
    (hcloser : block.lines[target]? = some closer)
    (hpart : Related bound state flow target (.conditional taken opener target :: frames)) :
    Related bound state flow (target + 1) frames := by
  rw [← flow.and_then_onward]
  exact h.and_then hpart fun world ↦
    h.last hcloser fun calls ↦ execute_end_conditional hcloses taken calls world

/-- A conditional without an `else`. -/
theorem conditional (h : Simulation block calls Related) {header closer : Text} {index size : Nat}
    {body : World → Flow World} (hopens : Line.kind header = .opener .conditional)
    (hcloses : Line.kind closer = .closer .conditional)
    (hheader : block.lines[index]? = some header)
    (hcloser : block.lines[index + 1 + size]? = some closer)
    (hpartner : block.map.partner? index = some (index + 1 + size))
    (helse : block.map.else? index = none)
    (hbody : Follows Related passes (index + 1) (index + 1 + size) body) :
    Follows Related passes index (index + 1 + size + 1) fun world ↦
      world.conditional (block.lineNumber index) header body .onward := by
  intro bound world frames hbound houtside
  have hexecute := fun calls ↦ execute_conditional hopens hpartner houtside calls world
  dsimp only [World.conditional]
  cases htest : world.test "if condition".toList header with
  | error error =>
      rw [htest] at hexecute
      exact h.failed hheader hexecute (world.test_harmless _ _ error htest)
  | ok taken =>
      rw [htest] at hexecute
      cases taken with
      | true =>
          refine h.stay hheader hexecute (h.leave_conditional true index hcloses hcloser ?_)
          exact hbody bound world _ hbound (outside_cons (Nat.lt_succ_self index) frames)
      | false =>
          rw [helse] at hexecute
          refine h.stay hheader hexecute (h.leave_conditional false index hcloses hcloser ?_)
          exact h.arrived bound world _ _

/-- A conditional with an `else`. -/
theorem branches (h : Simulation block calls Related) {header otherwise closer : Text}
    {yes no rest : Program} {index : Nat} {first second : World → Flow World}
    (hopens : Line.kind header = .opener .conditional) (hturns : Line.kind otherwise = .otherwise)
    (hcloses : Line.kind closer = .closer .conditional)
    (hplace : block.Forked index header yes otherwise no closer rest)
    (hyes : Follows Related passes (index + 1) (index + 1 + yes.size) first)
    (hno : Follows Related passes (index + 1 + yes.size + 1) (index + 1 + yes.size + 1 + no.size)
      second) :
    Follows Related passes index (index + 1 + yes.size + 1 + no.size + 1) fun world ↦
      world.conditional (block.lineNumber index) header first second := by
  intro bound world frames hbound houtside
  have hexecute := fun calls ↦ execute_conditional hopens hplace.partner houtside calls world
  dsimp only [World.conditional]
  cases htest : world.test "if condition".toList header with
  | error error =>
      rw [htest] at hexecute
      exact h.failed hplace.header_at hexecute (world.test_harmless _ _ error htest)
  | ok taken =>
      rw [htest] at hexecute
      cases taken with
      | true =>
          refine h.stay hplace.header_at hexecute
            (h.leave_conditional true index hcloses hplace.closer_at ?_)
          -- The `else` after the part leads to the closer.
          rw [← (first world).and_then_onward]
          have hinside : ∀ target, Outside (.conditional true index target :: frames) (index + 1) :=
            fun _ ↦ outside_cons (Nat.lt_succ_self index) frames
          refine h.and_then (hyes bound world _ hbound (hinside _)) fun world ↦ ?_
          exact h.last hplace.else_at fun calls ↦ execute_else hturns true calls world
      | false =>
          rw [hplace.has_else] at hexecute
          refine h.stay hplace.header_at hexecute
            (h.leave_conditional false index hcloses hplace.closer_at ?_)
          refine h.stay hplace.else_at (fun calls ↦ execute_else hturns false calls world) ?_
          refine hno bound world _ hbound (outside_cons ?_ frames)
          simp only [Frame.opener]
          omega

/-- A loop that is reached from outside or again, by induction on its passes. -/
theorem while_loop (h : Simulation block calls Related) {header closer : Text} {index size : Nat}
    {body : World → Flow World} (hopens : Line.kind header = .opener .whileLoop)
    (hcloses : Line.kind closer = .closer .whileLoop)
    (hheader : block.lines[index]? = some header)
    (hcloser : block.lines[index + 1 + size]? = some closer)
    (hpartner : block.map.partner? index = some (index + 1 + size))
    (hbody : Follows Related passes (index + 1) (index + 1 + size) body)
    {count bound : Nat} {world : World} {outer frames : List Frame} (hcount : count ≤ passes)
    (hbound : bound ≤ count) (harrives : Arrives index (index + 1 + size) outer frames) :
    Related bound (world.place index frames)
      (World.whileLoop (block.lineNumber index) header body count world)
      (index + 1 + size + 1) outer := by
  -- The step at the header shrinks the bound, so it lasts as long as the passes do.
  induction count generalizing bound world frames with
  | zero =>
      obtain rfl : bound = 0 := by omega
      exact h.exhausted _ _ _
  | succ count ih =>
      have hpass : ∀ less, less ≤ count → Related (less + 1) (world.place index frames)
          (World.whileLoop (block.lineNumber index) header body (count + 1) world)
          (index + 1 + size + 1) outer := by
        intro less hless
        have hexecute := fun calls ↦ execute_while hopens hpartner harrives calls world
        unfold World.whileLoop
        cases htest : world.test "while condition".toList header with
        | error error =>
            rw [htest] at hexecute
            exact h.failed hheader hexecute (world.test_harmless _ _ error htest)
        | ok again =>
            rw [htest] at hexecute
            cases again with
            | true =>
                refine h.step hheader hexecute (h.and_then
                  (hbody less world _ (by omega) (outside_cons (Nat.lt_succ_self index) outer))
                  fun world ↦ ?_)
                exact h.stay hcloser (fun calls ↦ execute_end_while hcloses calls world)
                  (ih (by omega) hless (.inr rfl))
            | false => exact h.last hheader hexecute
      cases bound with
      | zero => exact h.lower (hpass 0 (by omega))
      | succ less => exact hpass less (by omega)

/-- The passes of a counting loop, from the first line of its body. -/
theorem for_passes (h : Simulation block calls Related) {closer counter : Text}
    {limit step : Value} {index size : Nat} {body : World → Flow World}
    (hcloses : Line.kind closer = .closer .forLoop)
    (hcloser : block.lines[index + 1 + size]? = some closer)
    (hbody : Follows Related passes (index + 1) (index + 1 + size) body)
    {count bound : Nat} {world : World} {frames : List Frame} (hcount : count ≤ passes)
    (hbound : bound ≤ count) :
    Related bound (world.place (index + 1)
        (.forLoop counter limit step (index + 1) (index + 1 + size) :: frames))
      (World.forPasses counter limit step (block.lineNumber (index + 1 + size)) closer body count
        world)
      (index + 1 + size + 1) frames := by
  -- Here the step at the closer shrinks the bound.
  induction count generalizing bound world with
  | zero =>
      obtain rfl : bound = 0 := by omega
      exact h.exhausted _ _ _
  | succ count ih =>
      unfold World.forPasses
      refine h.and_then
        (hbody bound world _ (by omega) (outside_cons (Nat.lt_succ_self index) frames))
        fun world ↦ ?_
      let outer := Frame.forLoop counter limit step (index + 1) (index + 1 + size) :: frames
      have hexecute : ∀ calls,
          (world.place (index + 1 + size) outer).execute calls block closer = _ :=
        fun calls ↦ execute_end_for hcloses calls world
      cases hadvance : world.advance counter limit step with
      | error error =>
          rw [hadvance] at hexecute
          exact h.failed hcloser hexecute (world.advance_harmless _ _ _ error hadvance)
      | ok next =>
          obtain ⟨value, again⟩ := next
          rw [hadvance] at hexecute
          cases again with
          | true =>
              cases bound with
              | zero => exact h.stay hcloser hexecute (ih (by omega) (by omega))
              | succ less => exact h.step hcloser hexecute (ih (by omega) (by omega))
          | false => exact h.last hcloser hexecute

/-- A counting loop that is reached from outside. -/
theorem for_loop (h : Simulation block calls Related) {header closer : Text} {index size : Nat}
    {body : World → Flow World} (hopens : Line.kind header = .opener .forLoop)
    (hcloses : Line.kind closer = .closer .forLoop)
    (hheader : block.lines[index]? = some header)
    (hcloser : block.lines[index + 1 + size]? = some closer)
    (hpartner : block.map.partner? index = some (index + 1 + size))
    (hbody : Follows Related passes (index + 1) (index + 1 + size) body) :
    Follows Related passes index (index + 1 + size + 1) fun world ↦
      world.forLoop passes (block.lineNumber index) header (block.lineNumber (index + 1 + size))
        closer body := by
  intro bound world frames hbound houtside
  have hexecute := fun calls ↦ execute_for hopens hpartner houtside calls world
  dsimp only [World.forLoop]
  cases hcount : world.count header with
  | error error =>
      rw [hcount] at hexecute
      exact h.failed hheader hexecute (world.count_harmless _ error hcount)
  | ok counting =>
      obtain ⟨counter, bounds, enters⟩ := counting
      rw [hcount] at hexecute
      cases enters with
      | true =>
          exact h.stay hheader hexecute
            (h.for_passes hcloses hcloser hbody (Nat.le_refl passes) hbound)
      | false => exact h.last hheader hexecute

/-- The definition of a method. -/
theorem method (h : Simulation block calls Related) {header : Text} {body : Program}
    {index closer : Nat} (hopens : Line.kind header = .opener .method)
    (hheader : block.lines[index]? = some header)
    (hpartner : block.map.partner? index = some closer)
    (hlines : block.lines.extract (index + 1) closer = body.lines.toArray) :
    Follows Related passes index (closer + 1) fun world ↦
      world.define (block.lineNumber index) header body.lines.toArray := by
  intro bound world frames hbound houtside
  have hexecute := fun calls ↦ execute_method hopens hpartner houtside calls world
  rw [hlines, block.line_number_add] at hexecute
  dsimp only [World.define]
  cases hdefine : Method.define (Line.splitWord header).2 body.lines.toArray
      (block.lineNumber index + 1) with
  | error error =>
      rw [hdefine] at hexecute
      exact h.failed hheader hexecute
        (Method.define_harmless _ (by simpa using body.well_nested) _ error hdefine)
  | ok method =>
      rw [hdefine] at hexecute
      exact h.last hheader hexecute

/-- The relation holds of every program that is located in the block. -/
theorem exec (h : Simulation block calls Related) {program : Program} {index : Nat}
    (hplace : block.Holds index program) :
    Follows Related passes index (index + program.size)
      (program.exec calls passes (block.lineNumber index)) := by
  induction program generalizing index with
  | empty =>
      intro bound world frames _ _
      exact h.arrived bound world index frames
  | line text plain rest ih =>
      obtain ⟨hline, hrest⟩ := hplace.line
      have hsize : index + 1 + rest.size = index + (rest.size + 1) := by omega
      intro bound world frames hbound houtside
      rw [Program.size, ← hsize]
      refine h.and_then (h.plain world hline plain) fun world ↦ ?_
      exact ih hrest bound world frames hbound (houtside.mono (by omega))
  | block kind header opens body closer closes rest ihbody ihrest =>
      obtain ⟨hheader, hbody, hcloser, hrest, hpartner, helse, hlines⟩ := hplace.enclosed
      have hinside := ihbody hbody
      have hfirst : Follows Related passes index (index + 1 + body.size + 1) fun world ↦
          world.block passes kind (block.lineNumber index) header
            (block.lineNumber (index + 1 + body.size)) closer body.lines
            (body.exec calls passes (block.lineNumber (index + 1))) := by
        cases kind with
        | conditional => exact h.conditional opens closes hheader hcloser hpartner helse hinside
        | whileLoop =>
            intro bound world frames hbound houtside
            exact h.while_loop opens closes hheader hcloser hpartner hinside (Nat.le_refl passes)
              hbound (.inl ⟨rfl, houtside⟩)
        | forLoop => exact h.for_loop opens closes hheader hcloser hpartner hinside
        | method => exact h.method opens hheader hpartner hlines
      have hsize : index + 1 + body.size + 1 + rest.size =
          index + (body.size + rest.size + 2) := by omega
      intro bound world frames hbound houtside
      rw [Program.exec, Program.size, ← hsize]
      have hrest := fun world : World ↦
        ihrest hrest bound world frames hbound (houtside.mono (by omega))
      have hboth := h.and_then (hfirst bound world frames hbound houtside) hrest
      simp only [Block.line_number_add] at hboth
      exact hboth
  | branches header opens yes otherwise turns no closer closes rest ihyes ihno ihrest =>
      have hparts := hplace.forked
      have hfirst := h.branches opens turns closes hparts (ihyes hparts.yes_at)
        (ihno hparts.no_at)
      have hsize : index + 1 + yes.size + 1 + no.size + 1 + rest.size =
          index + (yes.size + no.size + rest.size + 3) := by omega
      intro bound world frames hbound houtside
      rw [Program.exec, Program.size, ← hsize]
      have hrest := fun world : World ↦
        ihrest hparts.rest_at bound world frames hbound (houtside.mono (by omega))
      have hboth := h.and_then (hfirst bound world frames hbound houtside) hrest
      simp only [Block.line_number_add] at hboth
      exact hboth

end Simulation

end PenScript
