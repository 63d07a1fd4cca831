import PenScript.Proofs.Arithmetic.Progression
import PenScript.Proofs.Block.Open
import PenScript.Proofs.Expression.Arithmetic
import PenScript.Proofs.Machine.Reach
import PenScript.Proofs.Real.Sign
import PenScript.Proofs.Scope.Lookup

/-!
# Counting loops over integers

A counting loop whose start, limit and step are integers goes through a `Progression`. What its
header and its closer do is one step of the machine each (`ForLoop.step_header`,
`ForLoop.step_closer`). `ForLoop.Enters` chains the passes of the body by these steps, and by
induction on the passes each of them finds its term in the counter (`ForLoop.Enters.entry`). The
first step, the passes and the last step together are the loop (`counting_loop_goes_through`).

The direction of a loop is decided on the real number nearest to its step, which has the same sign
(`Real.of_integer_pos_iff`).
-/

namespace PenScript

open Integer

section Bounds

variable {range : Progression} {world : World} {header counter : Text}

/-- Whether an integer is in range is decided exactly. -/
theorem Loop.in_range_integer (range : Progression) (number : Int64) :
    Loop.inRange (.integer number) (.integer range.limit) (.integer range.step) =
      .ok (decide (range.InRange number.toInt)) := by
  have horder : Loop.inRange (.integer number) (.integer range.limit) (.integer range.step) =
      .ok (if 0 < Real.ofInteger range.step then (compare number.toInt range.limit.toInt).isLE
        else (compare number.toInt range.limit.toInt).isGE) := rfl
  rw [horder, Except.ok.injEq, Bool.eq_iff_iff, decide_eq_true_iff]
  unfold Progression.InRange
  by_cases hstep : 0 < range.step.toInt
  · rw [if_pos hstep, if_pos ((Real.of_integer_pos_iff _).mpr hstep), Int.isLE_compare]
  · rw [if_neg hstep, if_neg (mt (Real.of_integer_pos_iff _).mp hstep), Int.isGE_compare]

/-- An expression that denotes an integer is a number. -/
theorem Loop.number_integer {scope : Scope} {text : Text} {number : Int64}
    (h : Expression.evaluate scope text = .ok (.integer number)) :
    Loop.number scope text = .ok (.integer number) := by
  rw [Loop.number, h]
  rfl

/-- The parts of a header denote the numbers of a progression. The step is one if there is none. -/
structure Loop.Header.Denotes (parts : Loop.Header) (scope : Scope) (range : Progression) :
    Prop where
  start : Expression.evaluate scope parts.start = .ok (.integer range.start)
  limit : Expression.evaluate scope parts.limit = .ok (.integer range.limit)
  step : match parts.step with
    | none => range.step = 1
    | some text => Expression.evaluate scope text = .ok (.integer range.step)

/-- Such parts are evaluated without an error, because the step is not zero. -/
theorem Loop.Header.Denotes.bounds {parts : Loop.Header} {scope : Scope}
    (h : parts.Denotes scope range) :
    Loop.bounds scope parts =
      .ok ⟨.integer range.start, .integer range.limit, .integer range.step⟩ := by
  have hdirection : ¬ (Real.ofInteger range.step == 0) = true :=
    mt (Real.of_integer_eq_zero_iff _).mp range.step_ne_zero
  have hstep := h.step
  rw [Loop.bounds, Loop.number_integer h.start, Loop.number_integer h.limit]
  cases hwritten : parts.step with
  | none =>
      rw [hwritten] at hstep
      rw [hstep] at hdirection ⊢
      exact if_neg (t := Except.error (Error.argument .zeroStep)) hdirection
  | some text =>
      rw [hwritten] at hstep
      dsimp only [Bind.bind, Except.bind]
      rw [Loop.number_integer hstep]
      exact if_neg (t := Except.error (Error.argument .zeroStep)) hdirection

/-- The header of a counting loop says to go through a progression. -/
def World.Counts (world : World) (header counter : Text) (range : Progression) : Prop :=
  ∃ parts, Loop.Header.parse? (Line.splitWord header).2 = some parts ∧ parts.counter = counter ∧
    parts.Denotes world.scope range

theorem World.Counts.count (h : world.Counts header counter range) :
    world.count header =
      .ok ⟨counter, ⟨.integer range.start, .integer range.limit, .integer range.step⟩,
        decide (range.InRange range.start.toInt)⟩ := by
  obtain ⟨parts, hparse, rfl, hparts⟩ := h
  rw [World.count, hparse]
  simp only [hparts.bounds, Loop.in_range_integer, Bind.bind, Except.bind]
  rfl

/-- The counter moves from a term to the next one, or it fails because that is not
representable. -/
theorem World.advance_term {current : Int64} {index : Nat}
    (hcounter : world.scope.get? counter = some (.integer current))
    (hterm : current.toInt = range.term index) :
    world.advance counter (.integer range.limit) (.integer range.step) =
      match ofInt? (range.term (index + 1)) with
      | some next => .ok (.integer next, decide (range.InRange (range.term (index + 1))))
      | none => .error (.argument .counterOverflow) := by
  have hsum : add? current range.step = ofInt? (range.term (index + 1)) := by
    rw [add?, hterm, range.term_succ]
  unfold World.advance Command.variableOf Loop.advance
  simp only [hcounter, hsum, Bind.bind, Except.bind]
  cases hnext : ofInt? (range.term (index + 1)) with
  | none => rfl
  | some next =>
      simp only [Loop.in_range_integer, of_int_eq_some_iff.mp hnext]
      rfl

/-- The variable is the integer of this value. -/
def World.Binds (world : World) (name : Text) (number : Int) : Prop :=
  ∃ exact : Int64, exact.toInt = number ∧ world.scope.get? name = some (.integer exact)

theorem World.bind_binds (world : World) (name : Text) (number : Int64) :
    (world.bind name (.integer number)).Binds name number.toInt :=
  ⟨number, rfl, NameMap.get_insert.trans (if_pos rfl)⟩

/-- A line that fails in a run that is neither strict nor halted is passed over, and its error is
recorded. -/
theorem World.fail_of_lenient (hlenient : world.interpreter.Lenient) {error : Error}
    (hharmless : error.isFatal = false) {number : Nat} {text : Text} :
    world.fail number text error =
      .onward ⟨world.scope, world.interpreter.record ⟨number, Text.trim text, error⟩⟩ := by
  rw [World.fail, hharmless, hlenient.not_halted]
  exact if_neg (Bool.eq_false_iff.mp hlenient.not_strict)

end Bounds

/-- A counting loop in a block. -/
structure ForLoop (block : Block) where
  index : Nat
  header : Text
  opens : Line.kind header = .opener .forLoop
  body : Program
  closing : Text
  closes : Line.kind closing = .closer .forLoop
  holds : block.Holds index (.block .forLoop header opens body closing closes .empty)

/-- Every header of a counting loop in a block has its body and its closer. -/
theorem ForLoop.exists_of_header {block : Block} {index : Nat} {header : Text}
    (hheader : block.lines[index]? = some header) (opens : Line.kind header = .opener .forLoop) :
    ∃ loop : ForLoop block, loop.index = index ∧ loop.header = header := by
  have hopener : (block.lines.toList.map Line.kind)[index]? = some (.opener .forLoop) := by
    rw [List.getElem?_map, Array.getElem?_toList, hheader, Option.map_some, opens]
  obtain ⟨_, _, before, kind, offset, inner, after, hkinds, hinner, rfl, -, -⟩ :=
    block.well_nested.encloses hopener
  obtain ⟨first, others, hlines, hbefore, hothers⟩ := List.map_eq_append_iff.mp hkinds
  obtain ⟨found, others, rfl, hfound, hothers⟩ := List.map_eq_cons_iff.mp hothers
  obtain ⟨texts, others, rfl, htexts, hothers⟩ := List.map_eq_append_iff.mp hothers
  obtain ⟨closing, rest, rfl, hclosing, hrest⟩ := List.map_eq_cons_iff.mp hothers
  have hlength : first.length = before.length := by rw [← hbefore, List.length_map]
  obtain rfl : found = header := by
    rw [← Array.getElem?_toList, hlines, ← hlength] at hheader
    simpa using hheader
  obtain rfl : kind = .forLoop := LineKind.opener.inj (hfound.symm.trans opens)
  -- Only a conditional has an `else`, so what is between the two lines nests by itself.
  cases hinner with
  | body hbody =>
      obtain ⟨body, rfl⟩ := Program.exists_of_well_nested hbody htexts
      exact ⟨⟨before.length, found, opens, body, closing, hclosing,
        first, rest, by rw [hlines, Program.lines]; simp [Program.lines], hlength⟩, rfl, rfl⟩

namespace ForLoop

variable {block : Block} (loop : ForLoop block) (counter : Text) (range : Progression)
  (frames : List Frame)

/-- The index of the closer. -/
def closer : Nat :=
  loop.index + 1 + loop.body.size

/-- The frames under which the body is run. -/
def inner : List Frame :=
  .forLoop counter (.integer range.limit) (.integer range.step) (loop.index + 1) loop.closer ::
    frames

/-- The machine in front of the header. -/
def before (world : World) : State :=
  world.place loop.index frames

/-- The machine in front of the first line of the body. -/
def inside (world : World) : State :=
  world.place (loop.index + 1) (loop.inner counter range frames)

/-- The machine in front of the closer, after a pass. -/
def around (world : World) : State :=
  world.place loop.closer (loop.inner counter range frames)

/-- The machine after the loop. -/
def after (world : World) : State :=
  world.place (loop.closer + 1) frames

/-- The body, run by itself in a world, ends with an outcome. -/
def Pass (entered : World) (outcome : Outcome) : Prop :=
  loop.body.Ends (block.lineNumber (loop.index + 1)) entered outcome

/-- The error of a counter that cannot be moved, on the line of the closer. -/
def overflow : LineError :=
  ⟨block.lineNumber loop.closer, Text.trim loop.closing, .argument .counterOverflow⟩

/-- The machine in front of the last step of the loop: that is the step of the header if no term is
in range, and otherwise a step of the closer. -/
def ending (world : World) : State :=
  if range.count = 0 then loop.before frames world else loop.around counter range frames world

/-- The worlds in which the body is entered, pass by pass: at first by a step of the header, and once
more by a step of the closer after each pass. -/
inductive Enters (world : World) : Nat → World → Prop where
  | first {entered : World} :
      Steps block (loop.before frames world) (loop.inside counter range frames entered) →
      Enters world 0 entered
  | again {pass : Nat} {entered next : World} {outcome : Outcome} :
      Enters world pass entered → loop.Pass entered outcome →
      Steps block (loop.around counter range frames outcome.world)
        (loop.inside counter range frames next) →
      Enters world (pass + 1) next

section Steps

variable {loop counter range frames} {world : World}

/-- Inside the body the machine is not after the loop. -/
theorem inside_ne_after (entered left : World) :
    loop.inside counter range frames entered ≠ loop.after frames left := by
  intro h
  have hcursor := congrArg State.cursor h
  simp only [inside, after, World.place, closer] at hcursor
  omega

/-- Different worlds are different places in the body. -/
theorem inside_injective {entered other : World}
    (h : loop.inside counter range frames entered = loop.inside counter range frames other) :
    entered = other := by
  simp only [inside, World.place, State.mk.injEq, true_and] at h
  obtain ⟨hscope, hinterpreter⟩ := h
  cases entered
  cases other
  simp only at hscope hinterpreter
  rw [hscope, hinterpreter]

/-- The header sets the counter to the start, and goes on in the body if that is in range. -/
theorem step_header (h : world.Counts loop.header counter range) (frames : List Frame) :
    Steps block (loop.before frames world)
      (if range.InRange range.start.toInt then
        loop.inside counter range frames (world.bind counter (.integer range.start))
      else loop.after frames (world.bind counter (.integer range.start))) := by
  have hplace := loop.holds.enclosed
  refine .of_execute hplace.header_at fun calls ↦ ?_
  rw [before, State.execute, decide_for loop.opens hplace.partner, h.count]
  by_cases hrange : range.InRange range.start.toInt
  · simp only [Except.map, hrange, decide_true, if_true]
    rfl
  · simp only [Except.map, hrange, decide_false, if_false]
    rfl

/-- Where the closer leads after the pass of a term: it moves the counter to the next term and goes
on in the body if that is in range. If the term is not representable then the counter stays, and the
error is recorded. -/
def moved (loop : ForLoop block) (counter : Text) (range : Progression) (frames : List Frame)
    (world : World) (pass : Nat) : State :=
  match ofInt? (range.term (pass + 1)) with
  | some next =>
      if range.InRange (range.term (pass + 1)) then
        loop.inside counter range frames (world.bind counter (.integer next))
      else loop.after frames (world.bind counter (.integer next))
  | none => loop.after frames ⟨world.scope, world.interpreter.record loop.overflow⟩

/-- The closer starts another pass if there is another term in range. -/
theorem moved_of_lt (loop : ForLoop block) {pass : Nat} (h : pass + 1 < range.count) :
    ∃ exact : Int64, exact.toInt = range.term (pass + 1) ∧
      loop.moved counter range frames world pass =
        loop.inside counter range frames (world.bind counter (.integer exact)) := by
  obtain ⟨exact, hexact⟩ := range.representable_term h
  refine ⟨exact, hexact, ?_⟩
  rw [moved, of_int_eq_some_iff.mpr hexact]
  exact if_pos ((range.in_range_term_iff _).mpr h)

/-- The closer leaves the loop if there is no other term in range. -/
theorem moved_of_not_lt (loop : ForLoop block) {pass : Nat} (h : ¬ pass + 1 < range.count) :
    (∃ exact : Int64, exact.toInt = range.term (pass + 1) ∧
      loop.moved counter range frames world pass =
        loop.after frames (world.bind counter (.integer exact))) ∨
    ¬ Representable (range.term (pass + 1)) ∧
      loop.moved counter range frames world pass =
        loop.after frames ⟨world.scope, world.interpreter.record loop.overflow⟩ := by
  unfold moved
  cases hnext : ofInt? (range.term (pass + 1)) with
  | some exact =>
      exact .inl ⟨exact, of_int_eq_some_iff.mp hnext,
        if_neg (mt (range.in_range_term_iff _).mp h)⟩
  | none => exact .inr ⟨of_int_eq_none_iff.mp hnext, rfl⟩

/-- Where the closer leads into the body, it has moved the counter to the next term and changed
nothing else. -/
theorem moved_eq_inside {pass : Nat} {next : World}
    (h : loop.moved counter range frames world pass = loop.inside counter range frames next) :
    pass + 1 < range.count ∧
      ∃ exact : Int64, exact.toInt = range.term (pass + 1) ∧
        next = world.bind counter (.integer exact) := by
  by_cases hcount : pass + 1 < range.count
  · obtain ⟨exact, hexact, hmoved⟩ := moved_of_lt loop hcount
    exact ⟨hcount, exact, hexact, inside_injective (h.symm.trans hmoved)⟩
  · rcases moved_of_not_lt loop hcount with ⟨exact, -, hmoved⟩ | ⟨-, hmoved⟩
    · exact absurd (h.symm.trans hmoved) (inside_ne_after _ _)
    · exact absurd (h.symm.trans hmoved) (inside_ne_after _ _)

/-- The step of the closer. -/
theorem step_closer (hlenient : world.interpreter.Lenient) {pass : Nat}
    (hcounter : world.Binds counter (range.term pass)) :
    Steps block (loop.around counter range frames world)
      (loop.moved counter range frames world pass) := by
  obtain ⟨current, hterm, hfound⟩ := hcounter
  refine .of_execute loop.holds.enclosed.closer_at fun calls ↦ ?_
  rw [around, inner, closer, execute_end_for loop.closes, World.advance_term hfound hterm, moved]
  cases ofInt? (range.term (pass + 1)) with
  | none =>
      dsimp only
      rw [World.fail_of_lenient hlenient rfl]
      rfl
  | some next =>
      by_cases hrange : range.InRange (range.term (pass + 1))
      · simp only [hrange, decide_true, if_true]
        rfl
      · simp only [hrange, decide_false, if_false]
        rfl

/-- A pass goes from the first line of the body to the closer. -/
theorem Pass.reaches {entered : World} {outcome : Outcome} (hpass : loop.Pass entered outcome)
    (hlenient : entered.interpreter.Lenient) :
    Reaches block (loop.inside counter range frames entered)
      (loop.around counter range frames outcome.world) :=
  Program.Ends.reaches loop.holds.enclosed.body_at hlenient
    (outside_cons (Nat.lt_succ_self loop.index) frames) hpass

/-- What holds at the beginning of a pass. -/
structure Entry (loop : ForLoop block) (counter : Text) (range : Progression)
    (frames : List Frame) (world : World) (pass : Nat) (entered : World) : Prop where
  in_count : pass < range.count
  binds : entered.Binds counter (range.term pass)
  reached : Reaches block (loop.before frames world) (loop.inside counter range frames entered)

/-- What holds at the end of a pass that keeps the counter, and the step after it. -/
theorem Entry.ends {pass : Nat} {entered : World}
    (h : loop.Entry counter range frames world pass entered) (hlenient : world.interpreter.Lenient)
    {outcome : Outcome} (hpass : loop.Pass entered outcome)
    (hkept : outcome.scope.get? counter = entered.scope.get? counter) :
    outcome.world.Binds counter (range.term pass) ∧
      Reaches block (loop.before frames world) (loop.around counter range frames outcome.world) ∧
      Steps block (loop.around counter range frames outcome.world)
        (loop.moved counter range frames outcome.world pass) := by
  have hreaches : Reaches block (loop.before frames world)
      (loop.around counter range frames outcome.world) :=
    h.reached.trans (hpass.reaches (h.reached.lenient hlenient))
  obtain ⟨exact, hterm, hfound⟩ := h.binds
  have hbinds : outcome.world.Binds counter (range.term pass) :=
    ⟨exact, hterm, hkept.trans hfound⟩
  exact ⟨hbinds, hreaches, step_closer (hreaches.lenient hlenient) hbinds⟩

end Steps

section Passes

variable {loop counter range frames} {world : World} (hlenient : world.interpreter.Lenient)
  (hheader : world.Counts loop.header counter range)
  (hbody : ∀ pass entered, loop.Enters counter range frames world pass entered →
    ∃ outcome, loop.Pass entered outcome ∧
      outcome.scope.get? counter = entered.scope.get? counter)

include hlenient hheader hbody

/-- Every pass finds its term in the counter, by induction on the passes before it. -/
theorem Enters.entry {pass : Nat} {entered : World}
    (h : loop.Enters counter range frames world pass entered) :
    loop.Entry counter range frames world pass entered := by
  induction h with
  | first hstep =>
      have hsame := hstep.unique (step_header hheader frames)
      by_cases hrange : range.InRange range.start.toInt
      · rw [if_pos hrange] at hsame
        obtain rfl := inside_injective hsame
        refine ⟨(range.in_range_term_iff 0).mp (range.term_zero ▸ hrange), ?_, .single hstep⟩
        exact range.term_zero ▸ World.bind_binds world counter range.start
      · rw [if_neg hrange] at hsame
        exact absurd hsame (inside_ne_after _ _)
  | again hentered hpass hstep ih =>
      obtain ⟨_, hagain, hkept⟩ := hbody _ _ hentered
      obtain rfl := hpass.unique hagain
      obtain ⟨-, hreaches, hmoves⟩ := ih.ends hlenient hpass hkept
      obtain ⟨hcount, exact, hexact, rfl⟩ := moved_eq_inside (hmoves.unique hstep)
      exact ⟨hcount, hexact ▸ World.bind_binds _ counter exact, hreaches.tail hstep⟩

/-- Every term in range has its pass, by induction on the terms before it. -/
theorem exists_enters {pass : Nat} (h : pass < range.count) :
    ∃ entered, loop.Enters counter range frames world pass entered := by
  induction pass with
  | zero =>
      have hrange : range.InRange range.start.toInt :=
        range.term_zero ▸ (range.in_range_term_iff 0).mpr h
      have hstep := step_header hheader frames
      rw [if_pos hrange] at hstep
      exact ⟨_, .first hstep⟩
  | succ pass ih =>
      obtain ⟨entered, hentered⟩ := ih (by omega)
      obtain ⟨outcome, hpass, hkept⟩ := hbody pass entered hentered
      obtain ⟨-, -, hstep⟩ := (hentered.entry hlenient hheader hbody).ends hlenient hpass hkept
      obtain ⟨_, -, hmoved⟩ := moved_of_lt loop h
      exact ⟨_, .again hentered hpass (hmoved ▸ hstep)⟩

/-- The loop is left, at the header if no term is in range and else at the closer, after the pass of
the last term. -/
theorem exists_left :
    ∃ last final, Reaches block (loop.before frames world)
        (loop.ending counter range frames last) ∧
      Steps block (loop.ending counter range frames last) (loop.after frames final) ∧
      ((∃ exact : Int64, exact.toInt = range.term range.count ∧
          final = last.bind counter (.integer exact)) ∨
        ¬ Representable (range.term range.count) ∧
          last.Binds counter (range.term (range.count - 1)) ∧
          final = ⟨last.scope, last.interpreter.record loop.overflow⟩) := by
  unfold ending
  cases hcount : range.count with
  | zero =>
      have hrange : ¬ range.InRange range.start.toInt := by
        rw [← range.term_zero, range.in_range_term_iff, hcount]
        exact Nat.not_lt_zero 0
      have hstep := step_header hheader frames
      rw [if_neg hrange] at hstep
      exact ⟨world, _, .refl, hstep, .inl ⟨range.start, range.term_zero.symm, rfl⟩⟩
  | succ pass =>
      obtain ⟨entered, hentered⟩ :=
        exists_enters hlenient hheader hbody (by omega : pass < range.count)
      obtain ⟨outcome, hpass, hkept⟩ := hbody pass entered hentered
      obtain ⟨hbinds, hreaches, hstep⟩ :=
        (hentered.entry hlenient hheader hbody).ends hlenient hpass hkept
      rcases moved_of_not_lt loop (by omega : ¬ pass + 1 < range.count) with
        ⟨exact, hexact, hmoved⟩ | ⟨hlarge, hmoved⟩
      · exact ⟨outcome.world, _, hreaches, hmoved ▸ hstep, .inl ⟨exact, hexact, rfl⟩⟩
      · exact ⟨outcome.world, _, hreaches, hmoved ▸ hstep, .inr ⟨hlarge, hbinds, rfl⟩⟩

end Passes

end ForLoop

/-- A counting loop over integers goes through its progression, in a run that is neither strict nor
halted, if each pass of the body ends and leaves the counter as it found it. The body is entered once
for each term in range, which are the first ones, and each pass finds its term in the counter. A pass
gets from the first line of the body to the closer, and between two passes the closer records
nothing. The last step leaves the loop, with the first term out of range in the counter and nothing
recorded. But if that term is not representable, then the counter keeps the last term in range, and
one error is recorded, on the line of the closer. -/
theorem counting_loop_goes_through {block : Block} (loop : ForLoop block) {world : World}
    (hlenient : world.interpreter.Lenient) {counter : Text} {range : Progression}
    (hheader : world.Counts loop.header counter range) (frames : List Frame)
    (hbody : ∀ pass entered, loop.Enters counter range frames world pass entered →
      ∃ outcome, loop.Pass entered outcome ∧
        outcome.scope.get? counter = entered.scope.get? counter) :
    (∀ pass, (∃ entered, loop.Enters counter range frames world pass entered) ↔
      range.InRange (range.term pass)) ∧
    (∀ pass, range.InRange (range.term pass) ↔ pass < range.count) ∧
    (∀ pass entered, loop.Enters counter range frames world pass entered →
      Reaches block (loop.before frames world) (loop.inside counter range frames entered) ∧
        entered.Binds counter (range.term pass)) ∧
    (∀ pass entered outcome, loop.Enters counter range frames world pass entered →
      loop.Pass entered outcome →
      Reaches block (loop.inside counter range frames entered)
        (loop.around counter range frames outcome.world) ∧
      ∀ next, Steps block (loop.around counter range frames outcome.world)
          (loop.inside counter range frames next) →
        next.interpreter = outcome.interpreter) ∧
    ∃ last final, Reaches block (loop.before frames world)
        (loop.ending counter range frames last) ∧
      Steps block (loop.ending counter range frames last) (loop.after frames final) ∧
      ((∃ exact : Int64, exact.toInt = range.term range.count ∧
          final = last.bind counter (.integer exact)) ∨
        ¬ Representable (range.term range.count) ∧
          last.Binds counter (range.term (range.count - 1)) ∧
          final = ⟨last.scope, last.interpreter.record loop.overflow⟩) := by
  have hentry := fun pass entered ↦
    @ForLoop.Enters.entry block loop counter range frames world hlenient hheader hbody pass entered
  refine ⟨fun pass ↦ ⟨?_, ?_⟩, range.in_range_term_iff, ?_, ?_,
    ForLoop.exists_left hlenient hheader hbody⟩
  · rintro ⟨entered, hentered⟩
    exact (range.in_range_term_iff pass).mpr (hentry pass entered hentered).in_count
  · intro hrange
    exact ForLoop.exists_enters hlenient hheader hbody ((range.in_range_term_iff pass).mp hrange)
  · intro pass entered hentered
    exact ⟨(hentry pass entered hentered).reached, (hentry pass entered hentered).binds⟩
  · intro pass entered outcome hentered hpass
    have hrunning := (hentry pass entered hentered).reached.lenient hlenient
    refine ⟨hpass.reaches hrunning, fun next hstep ↦ ?_⟩
    obtain ⟨_, hagain, hkept⟩ := hbody pass entered hentered
    obtain rfl := hpass.unique hagain
    obtain ⟨-, -, hmoves⟩ := (hentry pass entered hentered).ends hlenient hpass hkept
    obtain ⟨-, exact, -, rfl⟩ := ForLoop.moved_eq_inside (hmoves.unique hstep)
    rfl

/-- A loop up to the largest integer ends with an overflow of its counter. -/
theorem counting_loop_goes_through_overflow :
    ∃ (block : Block) (final : World) (interpreter : Interpreter),
      Block.ofLines ["for v = 9223372036854775806 to 9223372036854775807".toList,
        "# nothing".toList, "endfor".toList].toArray 1 = .ok block ∧
      Reaches block (.start .empty (.new {} .standard)) (final.place 3 []) ∧
      final.scope.get? "v".toList = some (.integer 9223372036854775807) ∧
      final.interpreter = interpreter.record
        ⟨3, "endfor".toList, .argument .counterOverflow⟩ := by
  let block : Block :=
    ⟨["for v = 9223372036854775806 to 9223372036854775807".toList, "# nothing".toList,
      "endfor".toList].toArray, 1, ⟨#[some 2, none, some 0], #[none, none, none]⟩, rfl⟩
  let loop : ForLoop block :=
    ⟨0, _, rfl, .line "# nothing".toList (.inl rfl) .empty, _, rfl, [], [], rfl, rfl⟩
  let range : Progression := ⟨9223372036854775806, 9223372036854775807, 1, by decide⟩
  have hnumeral {digits : Text} {number : Int64} (hsome : digits ≠ [])
      (hdigits : Token.Digits digits) (hnumber : number.toInt = Text.toNat digits) :
      Expression.evaluate NameMap.empty digits = .ok (.integer number) := by
    have hword := @Token.Spelled.word [] digits [] _ _ (by decide)
      (.integer hsome hdigits hnumber) (by decide) (.nil (by decide))
    rw [List.nil_append, List.append_nil] at hword
    exact @Arithmetic.evaluate_spelled _ (.atom (.integer number)) hword NameMap.empty
  have hheader : World.Counts ⟨.empty, .new {} .standard⟩ loop.header "v".toList range :=
    ⟨⟨"v".toList, "9223372036854775806".toList, "9223372036854775807".toList, none⟩, rfl, rfl,
      hnumeral (by decide) (by decide) (by decide),
      hnumeral (by decide) (by decide) (by decide), rfl⟩
  -- The body is a comment, which changes nothing.
  have hbody : ∀ pass entered,
      loop.Enters "v".toList range [] ⟨.empty, .new {} .standard⟩ pass entered →
      ∃ outcome, loop.Pass entered outcome ∧
        outcome.scope.get? "v".toList = entered.scope.get? "v".toList :=
    fun _ entered _ ↦ ⟨⟨.ok (), entered.scope, entered.interpreter⟩, ⟨_, rfl, 2, rfl⟩, rfl⟩
  obtain ⟨-, -, -, -, last, final, hreaches, hstep, hfinal⟩ :=
    counting_loop_goes_through loop ⟨rfl, rfl⟩ hheader [] hbody
  have hlarge : range.term range.count = 9223372036854775808 ∧
      range.term (range.count - 1) = (9223372036854775807 : Int64).toInt := by
    subst range
    decide
  rcases hfinal with ⟨exact, hexact, -⟩ | ⟨-, ⟨exact, hexact, hfound⟩, rfl⟩
  · have := exact.toInt_lt
    omega
  · obtain rfl : exact = 9223372036854775807 := Int64.toInt_inj.mp (hexact.trans hlarge.2)
    exact ⟨block, _, _, rfl, hreaches.tail hstep, hfound, rfl⟩

end PenScript
