import PenScript.Proofs.Machine.Frame
import PenScript.Proofs.Machine.Safety

/-!
# Feeding lines in two parts

Two lists of lines that nest can be fed one after the other or at once. The nesting tree of both is
the tree of the first followed by the tree of the last, and the structured execution of such a tree
is that of its two parts in turn (`Program.exec_append`). So the machine leaves the first part
exactly at its end, unless an error ends the run there (`ends_append`). What is left is to see that
a run does not depend on what a feed writes down between the parts (`run_with_feed`).
-/

namespace PenScript

/-- A line that ends the run ends it with an error. -/
theorem World.line_ended {calls : Calls} {world : World} {number : Nat} {text : Text}
    {outcome : Outcome} (h : world.line calls number text = .ended outcome) :
    ∃ error, outcome.result = .error error := by
  have hfail : ∀ (world : World) (error : Error),
      world.fail number text error = .ended outcome → ∃ error, outcome.result = .error error := by
    intro world error hended
    rcases world.fail_cases number text error with ⟨after, hflow⟩ | ⟨last, hflow, hresult⟩
    · cases hflow.symm.trans hended
    · obtain rfl : last = outcome := Flow.ended.inj (hflow.symm.trans hended)
      exact ⟨error, hresult⟩
  unfold World.line World.statement at h
  split at h
  · split at h
    · exact hfail _ _ h
    · cases h
    · cases h
    · split at h
      · exact hfail _ _ h
      · unfold World.call at h
        split at h
        · cases h
        · unfold World.returned at h
          split at h
          · cases h
          · exact hfail _ _ h
  · cases h

/-- Every piece of a program that ends the run ends it with an error. -/
theorem ended_simulation (block : Block) (calls : Calls) :
    Simulation block calls fun _ _ flow _ _ ↦
      ∀ outcome, flow = .ended outcome → ∃ error, outcome.result = .error error where
  arrived bound world target frames outcome h := by cases h
  exhausted state target frames outcome h := by cases h
  lower h := h
  step _ _ hnext := hnext
  failed {bound state line world error target frames} _ _ _ outcome h := by
    rcases world.fail_cases (block.lineNumber state.cursor) line error with
      ⟨after, hflow⟩ | ⟨last, hflow, hresult⟩
    · cases hflow.symm.trans h
    · obtain rfl : last = outcome := Flow.ended.inj (hflow.symm.trans h)
      exact ⟨error, hresult⟩
  plain world _ _ outcome h := World.line_ended h
  and_then {bound state flow rest target next frames others} hpiece hrest outcome h := by
    cases flow with
    | unfinished => cases h
    | onward world => exact hrest world outcome h
    | ended last => exact hpiece outcome h

/-- A block that ends the run before its last line ends it with an error. -/
theorem exec_ended {block : Block} {calls : Calls} {passes : Nat} {world : World}
    {outcome : Outcome}
    (h : block.program.exec calls passes block.firstLine world = .ended outcome) :
    ∃ error, outcome.result = .error error :=
  (ended_simulation block calls).exec block.holds_program passes world [] (Nat.le_refl passes)
    (.nil 0) outcome h

section Append

variable {whole first last : Block}

/-- One block of lines follows another, and both together are the third. -/
structure Block.Splits (whole first last : Block) : Prop where
  lines : whole.lines = first.lines ++ last.lines
  first_number : whole.firstLine = first.firstLine
  last_number : last.firstLine = first.firstLine + first.lines.size

/-- The nesting tree of two blocks of lines is the first tree followed by the last. -/
theorem Block.Splits.program (h : whole.Splits first last) :
    whole.program = first.program.append last.program := by
  apply Block.program_eq
  rw [Program.lines_append, first.lines_program, last.lines_program, h.lines, Array.toList_append]

/-- Two blocks of lines are run by running the first and then the last. -/
theorem Block.Splits.exec (h : whole.Splits first last) (calls : Calls) (passes : Nat)
    (world : World) :
    whole.program.exec calls passes whole.firstLine world =
      (first.program.exec calls passes first.firstLine world).andThen
        (last.program.exec calls passes last.firstLine) := by
  rw [h.program, Program.exec_append, h.first_number, h.last_number, first.size_program]

/-- The structured execution of two blocks of lines stops after the first when that ends with an
error. -/
theorem run_structured_append (h : whole.Splits first last) (fuel : Nat) (scope : Scope)
    (interpreter : Interpreter) :
    runStructured fuel whole scope interpreter =
      (runStructured fuel first scope interpreter).bind fun middle ↦
        match middle.result with
        | .ok () => runStructured fuel last middle.scope middle.interpreter
        | .error _ => some middle := by
  cases fuel with
  | zero => rfl
  | succ fuel =>
      simp only [runStructured]
      rw [h.exec]
      cases hflow : first.program.exec (runStructured fuel) (fuel + 1) first.firstLine
        ⟨scope, interpreter⟩ with
      | unfinished => rfl
      | onward world => rfl
      | ended middle =>
          obtain ⟨error, hresult⟩ := exec_ended hflow
          simp only [Flow.ended_and_then, Flow.outcome?, Flow.finish, Option.bind_some, hresult]

/-- The machine ends with two blocks of lines as it ends with the last after the first, or as it
ends with the first when that is an error. -/
theorem ends_append (h : whole.Splits first last) {scope : Scope} {interpreter : Interpreter}
    {outcome : Outcome} :
    Ends whole (.start scope interpreter) outcome ↔
      ∃ middle, Ends first (.start scope interpreter) middle ∧
        match middle.result with
        | .ok () => Ends last (.start middle.scope middle.interpreter) outcome
        | .error _ => outcome = middle := by
  constructor
  · rintro ⟨fuel, hrun⟩
    have hwhole := structured_of_run hrun
    rw [run_structured_append h, Option.bind_eq_some_iff] at hwhole
    obtain ⟨middle, hfirst, hlast⟩ := hwhole
    refine ⟨middle, ends_of_structured hfirst, ?_⟩
    cases hresult : middle.result with
    | error error =>
        rw [hresult] at hlast
        exact (Option.some.inj hlast).symm
    | ok value =>
        rw [hresult] at hlast
        exact ends_of_structured hlast
  · rintro ⟨middle, ⟨fuel, hfirst⟩, hlast⟩
    cases hresult : middle.result with
    | error error =>
        rw [hresult] at hlast
        obtain rfl : outcome = middle := hlast
        have hwhole : runStructured fuel whole scope interpreter = some outcome := by
          rw [run_structured_append h, structured_of_run hfirst, Option.bind_some, hresult]
        exact ends_of_structured hwhole
    | ok value =>
        rw [hresult] at hlast
        obtain ⟨more, hlast⟩ := hlast
        -- Both parts end on one amount of fuel when it is enough for either.
        have hfirst := structured_of_run (run_mono hfirst (Nat.le_max_left fuel more))
        have hlast := structured_of_run (run_mono hlast (Nat.le_max_right fuel more))
        have hwhole : runStructured (max fuel more) whole scope interpreter = some outcome := by
          rw [run_structured_append h, hfirst, Option.bind_some, hresult]
          exact hlast
        exact ends_of_structured hwhole

end Append

section Outcomes

variable {block : Block} {state : State} {outcome : Outcome}

/-- Another next line and other global variables make no difference to where a run ends. -/
theorem ends_with_feed {nextLine : Nat} {globals : Scope} :
    Ends block (state.withFeed nextLine globals) outcome ↔
      ∃ last, Ends block state last ∧ last.withFeed nextLine globals = outcome := by
  constructor
  · rintro ⟨fuel, hrun⟩
    rw [run_with_feed, Option.map_eq_some_iff] at hrun
    obtain ⟨last, hlast, rfl⟩ := hrun
    exact ⟨last, ⟨fuel, hlast⟩, rfl⟩
  · rintro ⟨last, ⟨fuel, hrun⟩, rfl⟩
    exact ⟨fuel, by rw [run_with_feed, hrun, Option.map_some]⟩

/-- A run leaves the next line alone. -/
theorem Ends.next_line (h : Ends block state outcome) :
    outcome.interpreter.nextLine = state.interpreter.nextLine := by
  obtain ⟨fuel, hrun⟩ := h
  rw [← with_feed_of_run hrun]
  rfl

/-- Every end of a run is regular. -/
theorem Ends.regular (h : Ends block state outcome) : Regular state.interpreter outcome := by
  obtain ⟨fuel, hrun⟩ := h
  exact run_regular hrun

/-- No run of a block ends with a fatal error. -/
theorem Ends.harmless {scope : Scope} {interpreter : Interpreter}
    (h : Ends block (.start scope interpreter) outcome) : Harmless outcome.result := by
  obtain ⟨fuel, hrun⟩ := h
  exact run_harmless (safe_start block scope interpreter) hrun

end Outcomes

namespace Interpreter

variable {interpreter : Interpreter} {lines first last : List Text}

/-- Feeding the lines ends with an outcome. -/
def Feeds (interpreter : Interpreter) (lines : List Text) (outcome : RunOutcome) : Prop :=
  ∃ fuel, interpreter.feed fuel lines = some outcome

/-- Feeding the lines of a block is running it. -/
theorem feeds_iff {block : Block}
    (h : Block.ofLines lines.toArray interpreter.nextLine = .ok block) {outcome : RunOutcome} :
    interpreter.Feeds lines outcome ↔
      ∃ last, Ends block (.start interpreter.globals (interpreter.ready lines.length)) last ∧
        closing last = outcome := by
  constructor
  · rintro ⟨fuel, hfeed⟩
    rw [feed_accepted h, Option.map_eq_some_iff] at hfeed
    obtain ⟨last, hrun, hclosing⟩ := hfeed
    exact ⟨last, ⟨fuel, hrun⟩, hclosing⟩
  · rintro ⟨last, ⟨fuel, hrun⟩, rfl⟩
    exact ⟨fuel, by rw [feed_accepted h, hrun, Option.map_some]⟩

/-- Lines that are fed end with one outcome at most. -/
theorem Feeds.unique {outcome other : RunOutcome} {block : Block}
    (h : interpreter.Feeds lines outcome)
    (hblock : Block.ofLines lines.toArray interpreter.nextLine = .ok block)
    (hother : interpreter.Feeds lines other) : outcome = other := by
  obtain ⟨last, hlast, rfl⟩ := (feeds_iff hblock).mp h
  obtain ⟨final, hfinal, rfl⟩ := (feeds_iff hblock).mp hother
  rw [hlast.unique hfinal]

/-- A feed that is not strict never ends with an error, if its lines nest. -/
theorem Feeds.ok_of_not_strict {outcome : RunOutcome} {block : Block}
    (h : interpreter.Feeds lines outcome)
    (hblock : Block.ofLines lines.toArray interpreter.nextLine = .ok block)
    (hstrict : interpreter.options.strict = false) : outcome.result = .ok () := by
  obtain ⟨last, hlast, rfl⟩ := (feeds_iff hblock).mp h
  show last.result = .ok ()
  cases hresult : last.result with
  | ok value => rfl
  | error error =>
      rcases hlast.regular.stopped error hresult with hfatal | hmode | hhalted
      · cases (hlast.harmless error hresult).symm.trans hfatal
      · cases hstrict.symm.trans hmode
      · cases hhalted

/-- What a run ends with, when its next line and its global variables are set before it, is what
it ends with when they are set after it. The global variables do not show in what a feed leaves. -/
theorem closing_ends {block : Block} {state : State} {outcome : RunOutcome} (globals : Scope) :
    (∃ last, Ends block (state.withFeed state.interpreter.nextLine globals) last ∧
        closing last = outcome) ↔
      ∃ last, Ends block state last ∧ closing last = outcome := by
  have hclosing : ∀ last, Ends block state last →
      closing (last.withFeed state.interpreter.nextLine globals) = closing last := by
    intro last hlast
    rw [← hlast.next_line]
    rfl
  constructor
  · rintro ⟨final, hfinal, rfl⟩
    obtain ⟨last, hlast, rfl⟩ := ends_with_feed.mp hfinal
    exact ⟨last, hlast, (hclosing last hlast).symm⟩
  · rintro ⟨last, hlast, rfl⟩
    exact ⟨_, ends_with_feed.mpr ⟨last, hlast, rfl⟩, hclosing last hlast⟩

/-- Two lists of lines that nest are blocks, and so are both together. -/
theorem splits_of_accepted {firstNumber lastNumber : Nat} {firstMap lastMap : BlockMap}
    (hfirst : BlockMap.build first firstNumber = .ok firstMap)
    (hlast : BlockMap.build last lastNumber = .ok lastMap) (number : Nat) :
    ∃ whole start rest, Block.ofLines (first ++ last).toArray number = .ok whole ∧
      Block.ofLines first.toArray number = .ok start ∧
      Block.ofLines last.toArray (number + first.length) = .ok rest ∧
      whole.Splits start rest := by
  have hfirst := BlockMap.build_ok_iff.mp ⟨firstMap, hfirst⟩
  have hlast := BlockMap.build_ok_iff.mp ⟨lastMap, hlast⟩
  have hwhole : WellNested ((first ++ last).map Line.kind) := by
    rw [List.map_append]
    exact hfirst.append hlast
  obtain ⟨wholeMap, hwhole⟩ := (@BlockMap.build_ok_iff _ number).mpr hwhole
  obtain ⟨startMap, hstart⟩ := (@BlockMap.build_ok_iff _ number).mpr hfirst
  obtain ⟨restMap, hrest⟩ :=
    (@BlockMap.build_ok_iff _ (number + first.length)).mpr hlast
  obtain ⟨whole, hwholeBlock, hwholeLines, hwholeNumber⟩ :=
    @Block.of_lines_ok (first ++ last).toArray _ _ hwhole
  obtain ⟨start, hstartBlock, hstartLines, hstartNumber⟩ :=
    @Block.of_lines_ok first.toArray _ _ hstart
  obtain ⟨rest, hrestBlock, hrestLines, hrestNumber⟩ :=
    @Block.of_lines_ok last.toArray _ _ hrest
  refine ⟨whole, start, rest, hwholeBlock, hstartBlock, hrestBlock, ?_, ?_, ?_⟩
  · rw [hwholeLines, hstartLines, hrestLines, List.append_toArray]
  · rw [hwholeNumber, hstartNumber]
  · rw [hrestNumber, hstartNumber, hstartLines, List.size_toArray]

/-- At the seam of two lists of lines, a run of both goes on as a feed of the last does. -/
theorem feeds_after {rest : Block} {middle : Outcome} {number : Nat} (globals : Scope)
    (hrest : Block.ofLines last.toArray number = .ok rest)
    (hhalted : middle.interpreter.halted = false)
    (hnumber : middle.interpreter.nextLine = number + last.length) {outcome : RunOutcome} :
    (closing (middle.withFeed number globals)).interpreter.Feeds last outcome ↔
      ∃ final, Ends rest (.start middle.scope middle.interpreter) final ∧
        closing final = outcome := by
  have hstate : State.start (closing (middle.withFeed number globals)).interpreter.globals
      ((closing (middle.withFeed number globals)).interpreter.ready last.length) =
        (State.start middle.scope middle.interpreter).withFeed middle.interpreter.nextLine
          middle.scope := by
    rw [hnumber]
    unfold closing Outcome.withFeed Interpreter.withFeed ready State.withFeed State.start
      Interpreter.withFeed
    simp only [hhalted]
  rw [feeds_iff hrest, hstate]
  exact closing_ends middle.scope

/-- Feeding two lists of lines at once ends as feeding the last after the first does, or, when the
first ends with an error, with this error and all lines counted. -/
theorem feeds_append {firstNumber lastNumber : Nat} {firstMap lastMap : BlockMap}
    (hfirst : BlockMap.build first firstNumber = .ok firstMap)
    (hlast : BlockMap.build last lastNumber = .ok lastMap) (outcome : RunOutcome) :
    interpreter.Feeds (first ++ last) outcome ↔
      ∃ middle, interpreter.Feeds first middle ∧
        match middle.result with
        | .ok () => middle.interpreter.Feeds last outcome
        | .error error => outcome =
            ⟨.error error, { middle.interpreter with
              nextLine := interpreter.nextLine + (first ++ last).length }⟩ := by
  obtain ⟨whole, start, rest, hwhole, hstart, hrest, hsplits⟩ :=
    splits_of_accepted hfirst hlast interpreter.nextLine
  -- The run of the first part, with the lines of both parts counted.
  let ready : State := .start interpreter.globals (interpreter.ready (first ++ last).length)
  have hfed : ∀ middle, interpreter.Feeds first middle ↔ ∃ found, Ends start ready found ∧
      closing (found.withFeed (interpreter.nextLine + first.length) interpreter.globals) =
        middle := by
    intro middle
    have hready : State.start interpreter.globals (interpreter.ready first.length) =
        ready.withFeed (interpreter.nextLine + first.length) interpreter.globals := rfl
    rw [feeds_iff hstart, hready]
    constructor
    · rintro ⟨found, hfound, rfl⟩
      obtain ⟨last, hlast, rfl⟩ := ends_with_feed.mp hfound
      exact ⟨last, hlast, rfl⟩
    · rintro ⟨found, hfound, rfl⟩
      exact ⟨_, ends_with_feed.mpr ⟨found, hfound, rfl⟩, rfl⟩
  have hafter : ∀ found, Ends start ready found →
      ((∃ final, (match found.result with
          | .ok () => Ends rest (.start found.scope found.interpreter) final
          | .error _ => final = found) ∧ closing final = outcome) ↔
        match found.result with
        | .ok () => (closing (found.withFeed (interpreter.nextLine + first.length)
            interpreter.globals)).interpreter.Feeds last outcome
        | .error error => outcome =
            ⟨.error error, { (closing (found.withFeed (interpreter.nextLine + first.length)
              interpreter.globals)).interpreter with
                nextLine := interpreter.nextLine + (first ++ last).length }⟩) := by
    intro found hfound
    have hnumber : found.interpreter.nextLine =
        interpreter.nextLine + (first ++ last).length := hfound.next_line
    cases hresult : found.result with
    | ok value =>
        have hhalted := hfound.regular.running rfl hresult
        rw [List.length_append, ← Nat.add_assoc] at hnumber
        exact (feeds_after interpreter.globals hrest hhalted hnumber).symm
    | error error =>
        have hclosing : closing found =
            ⟨.error error, { (closing (found.withFeed (interpreter.nextLine + first.length)
              interpreter.globals)).interpreter with
                nextLine := interpreter.nextLine + (first ++ last).length }⟩ := by
          rw [← hnumber, ← hresult]
          rfl
        constructor
        · rintro ⟨final, rfl, rfl⟩
          exact hclosing
        · intro houtcome
          exact ⟨found, rfl, hclosing.trans houtcome.symm⟩
  rw [feeds_iff hwhole]
  constructor
  · rintro ⟨final, hfinal, hclosing⟩
    obtain ⟨found, hfound, hlast⟩ := (ends_append hsplits).mp hfinal
    exact ⟨_, (hfed _).mpr ⟨found, hfound, rfl⟩, (hafter found hfound).mp ⟨final, hlast, hclosing⟩⟩
  · rintro ⟨middle, hmiddle, hlast⟩
    obtain ⟨found, hfound, rfl⟩ := (hfed middle).mp hmiddle
    obtain ⟨final, hfinal, hclosing⟩ := (hafter found hfound).mpr hlast
    exact ⟨final, (ends_append hsplits).mpr ⟨found, hfound, hfinal⟩, hclosing⟩

/-- Feeding two lists of lines that nest, one after the other or at once, ends in the same way and
leaves the same behind. Outside strict mode no error ends a feed; in any mode an error that ends the
first feed ends the feed of both, which only counts more lines. -/
theorem feed_append (interpreter : Interpreter) {firstNumber lastNumber : Nat}
    {firstMap lastMap : BlockMap} (hfirst : BlockMap.build first firstNumber = .ok firstMap)
    (hlast : BlockMap.build last lastNumber = .ok lastMap) :
    (interpreter.options.strict = false →
      (∀ outcome, interpreter.Feeds (first ++ last) outcome ↔
        ∃ middle, interpreter.Feeds first middle ∧ middle.interpreter.Feeds last outcome) ∧
      (∀ middle, interpreter.Feeds first middle → middle.result = .ok ()) ∧
      ∀ outcome, interpreter.Feeds (first ++ last) outcome → outcome.result = .ok ()) ∧
    ∀ middle, interpreter.Feeds first middle →
      match middle.result with
      | .ok () => ∀ outcome,
          interpreter.Feeds (first ++ last) outcome ↔ middle.interpreter.Feeds last outcome
      | .error error => ∀ outcome,
          interpreter.Feeds (first ++ last) outcome ↔
            outcome = ⟨.error error, { middle.interpreter with
              nextLine := interpreter.nextLine + (first ++ last).length }⟩ := by
  obtain ⟨_, start, _, hwhole, hstart, -, -⟩ :=
    splits_of_accepted hfirst hlast interpreter.nextLine
  constructor
  · intro hstrict
    have hok : ∀ middle, interpreter.Feeds first middle → middle.result = .ok () :=
      fun middle hmiddle ↦ hmiddle.ok_of_not_strict hstart hstrict
    refine ⟨fun outcome ↦ ?_, hok, fun outcome h ↦ h.ok_of_not_strict hwhole hstrict⟩
    rw [feeds_append hfirst hlast]
    constructor
    · rintro ⟨middle, hmiddle, hafter⟩
      rw [hok middle hmiddle] at hafter
      exact ⟨middle, hmiddle, hafter⟩
    · rintro ⟨middle, hmiddle, hafter⟩
      refine ⟨middle, hmiddle, ?_⟩
      rw [hok middle hmiddle]
      exact hafter
  · intro middle hmiddle
    have hwhole : ∀ outcome, interpreter.Feeds (first ++ last) outcome ↔
        match middle.result with
        | .ok () => middle.interpreter.Feeds last outcome
        | .error error => outcome = ⟨.error error, { middle.interpreter with
            nextLine := interpreter.nextLine + (first ++ last).length }⟩ := by
      intro outcome
      rw [feeds_append hfirst hlast]
      constructor
      · rintro ⟨found, hfound, hafter⟩
        obtain rfl := hmiddle.unique hstart hfound
        exact hafter
      · exact fun hafter ↦ ⟨middle, hmiddle, hafter⟩
    cases hresult : middle.result with
    | ok value =>
        rw [hresult] at hwhole
        exact hwhole
    | error error =>
        rw [hresult] at hwhole
        exact hwhole

/-- A loop and the line after it can be fed apart. -/
theorem feed_append_loop :
    BlockMap.build ["while n < 3".toList, "n = n + 1".toList, "endwhile".toList] 1 =
      .ok ⟨#[some 2, none, some 0], #[none, none, none]⟩ ∧
    BlockMap.build ["circle n".toList] 4 = .ok ⟨#[none], #[none]⟩ ∧
    ∀ outcome,
      (Interpreter.new {} .standard).Feeds (["while n < 3".toList, "n = n + 1".toList,
          "endwhile".toList] ++ ["circle n".toList]) outcome ↔
        ∃ middle, (Interpreter.new {} .standard).Feeds ["while n < 3".toList, "n = n + 1".toList,
            "endwhile".toList] middle ∧
          middle.interpreter.Feeds ["circle n".toList] outcome :=
  have hloop : BlockMap.build ["while n < 3".toList, "n = n + 1".toList, "endwhile".toList] 1 =
      .ok ⟨#[some 2, none, some 0], #[none, none, none]⟩ := rfl
  have hline : BlockMap.build ["circle n".toList] 4 = .ok ⟨#[none], #[none]⟩ := rfl
  ⟨hloop, hline, ((feed_append (.new {} .standard) hloop hline).1 rfl).1⟩

end Interpreter

end PenScript
