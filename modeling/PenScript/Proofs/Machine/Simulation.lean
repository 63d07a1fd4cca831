import PenScript.Proofs.Machine.Induction

/-!
# The machine and the structured execution

The machine that jumps between lines and the recursion on the nesting tree are the same execution.
Both directions are a `Simulation`.

`Flow.Reached` says that a run of the machine from the first line of a piece of a program follows
the flow of the piece: it gets to the line after the piece, under the same frames and with no more
fuel, or it ends where the piece ends. `Flow.Realized` says that whatever the machine ends with
after the piece, it ends with when it is started at the first line of the piece.
-/

namespace PenScript

/-- The machine ends with an outcome. -/
def Ends (block : Block) (state : State) (outcome : Outcome) : Prop :=
  ∃ fuel, run fuel block state = some outcome

/-- A machine ends with one outcome at most. -/
theorem Ends.unique {block : Block} {state : State} {outcome other : Outcome}
    (h : Ends block state outcome) (hother : Ends block state other) : outcome = other := by
  obtain ⟨fuel, hrun⟩ := h
  obtain ⟨more, hmore⟩ := hother
  have hboth := run_mono hrun (Nat.le_max_left fuel more)
  rw [run_mono hmore (Nat.le_max_right fuel more)] at hboth
  exact (Option.some.inj hboth).symm

section Calls

/-- A line makes one call of a method or none. -/
theorem World.line_calls (world : World) (number : Nat) (text : Text) :
    (∃ flow, ∀ calls, world.line calls number text = flow) ∨
      ∃ prepared, ∀ calls, world.line calls number text =
        world.call calls number text prepared := by
  unfold World.line World.statement
  by_cases hkind : Line.kind text = .statement
  · simp only [if_pos hkind]
    cases world.interpreter.registry.statement world.scope text with
    | error error => exact .inl ⟨_, fun _ ↦ rfl⟩
    | ok effect =>
        cases effect with
        | draw action => exact .inl ⟨_, fun _ ↦ rfl⟩
        | bind name value => exact .inl ⟨_, fun _ ↦ rfl⟩
        | call name arguments =>
            dsimp only
            cases world.interpreter.prepare name arguments world.scope with
            | error error => exact .inl ⟨_, fun _ ↦ rfl⟩
            | ok prepared => exact .inr ⟨prepared, fun _ ↦ rfl⟩
  · simp only [if_neg hkind]
    exact .inl ⟨_, fun _ ↦ rfl⟩

/-- A line that does not run out of fuel does the same when more calls end. -/
theorem World.line_within {calls more : Calls} (h : calls.Within more) (world : World)
    (number : Nat) (text : Text) (hends : world.line calls number text ≠ .unfinished) :
    world.line more number text = world.line calls number text := by
  rcases world.line_calls number text with ⟨flow, hflow⟩ | ⟨prepared, hcall⟩
  · rw [hflow, hflow]
  · rw [hcall] at hends
    rw [hcall, hcall]
    unfold World.call at hends ⊢
    cases hfound : calls prepared.method.block prepared.locals world.interpreter.enter with
    | none =>
        rw [hfound] at hends
        exact absurd rfl hends
    | some callee => rw [h _ _ _ _ hfound]

/-- A line that does not run out of fuel is carried out by the machine with some fuel, if the
machine ends as the calls do. -/
theorem World.line_of_ends {calls : Calls}
    (h : ∀ block scope interpreter outcome, calls block scope interpreter = some outcome →
      Ends block (.start scope interpreter) outcome)
    (world : World) (number : Nat) (text : Text)
    (hends : world.line calls number text ≠ .unfinished) :
    ∃ fuel, world.line (runCalls fuel) number text = world.line calls number text := by
  rcases world.line_calls number text with ⟨flow, hflow⟩ | ⟨prepared, hcall⟩
  · exact ⟨0, by rw [hflow, hflow]⟩
  · rw [hcall] at hends
    unfold World.call at hends
    cases hfound : calls prepared.method.block prepared.locals world.interpreter.enter with
    | none =>
        rw [hfound] at hends
        exact absurd rfl hends
    | some callee =>
        obtain ⟨fuel, hrun⟩ := h _ _ _ _ hfound
        refine ⟨fuel, ?_⟩
        rw [hcall, hcall]
        unfold World.call runCalls
        rw [hfound, hrun]

end Calls

namespace Flow

variable {block : Block} {target next fuel : Nat} {frames others : List Frame} {outcome : Outcome}
  {state : State}

/-- The flow is where a run of the machine has got to: at the target with fuel left, or at the same
end. -/
def Reached (block : Block) (target : Nat) (frames : List Frame) (fuel : Nat) (outcome : Outcome) :
    Flow World → Prop
  | .unfinished => False
  | .onward world =>
      ∃ less, less ≤ fuel ∧ run less block (world.place target frames) = some outcome
  | .ended last => last = outcome

/-- Fuel that is not used does no harm. -/
theorem Reached.mono {flow : Flow World} {more : Nat}
    (h : flow.Reached block target frames fuel outcome) (hle : fuel ≤ more) :
    flow.Reached block target frames more outcome := by
  cases flow with
  | unfinished => exact h
  | onward world =>
      obtain ⟨less, hless, hrun⟩ := h
      exact ⟨less, Nat.le_trans hless hle, hrun⟩
  | ended last => exact h

/-- One piece after another. -/
theorem Reached.and_then {flow : Flow World} {rest : World → Flow World}
    (h : flow.Reached block target frames fuel outcome)
    (hrest : ∀ (world : World) less, less ≤ fuel →
      run less block (world.place target frames) = some outcome →
      (rest world).Reached block next others less outcome) :
    (flow.andThen rest).Reached block next others fuel outcome := by
  cases flow with
  | unfinished => exact h
  | onward world =>
      obtain ⟨less, hless, hrun⟩ := h
      exact (hrest world less hless hrun).mono hless
  | ended last => exact h

/-- A step that ends with a flow, after which the machine runs on. -/
theorem Reached.of_finish {flow : Flow World}
    (h : (flow.map (·.place target frames)).finish (run fuel block) = some outcome) :
    flow.Reached block target frames fuel outcome := by
  cases flow with
  | unfinished => cases h
  | onward world => exact ⟨fuel, Nat.le_refl fuel, h⟩
  | ended last => exact Option.some.inj h

/-- The machine at a state realizes the flow: it ends where the flow ends, or where the machine
ends that is at the target. -/
def Realized (block : Block) (state : State) (target : Nat) (frames : List Frame) :
    Flow World → Prop
  | .unfinished => True
  | .onward world =>
      ∀ outcome, Ends block (world.place target frames) outcome → Ends block state outcome
  | .ended last => Ends block state last

/-- One piece after another. -/
theorem Realized.and_then {flow : Flow World} {rest : World → Flow World}
    (h : flow.Realized block state target frames)
    (hrest : ∀ world, (rest world).Realized block (world.place target frames) next others) :
    (flow.andThen rest).Realized block state next others := by
  cases flow with
  | unfinished => exact h
  | onward world =>
      have hworld := hrest world
      rw [onward_and_then]
      cases hflow : rest world with
      | unfinished => exact trivial
      | onward last =>
          rw [hflow] at hworld
          exact fun outcome hlast ↦ h outcome (hworld outcome hlast)
      | ended last =>
          rw [hflow] at hworld
          exact h last hworld
  | ended last => exact h

/-- What the machine realizes after a step, it realizes before it. -/
theorem Realized.of_ends {flow : Flow World} {later : State}
    (h : flow.Realized block later target frames)
    (hlater : ∀ outcome, Ends block later outcome → Ends block state outcome) :
    flow.Realized block state target frames := by
  cases flow with
  | unfinished => exact h
  | onward world => exact fun outcome hworld ↦ hlater outcome (h outcome hworld)
  | ended last => exact hlater last h

end Flow

section Steps

variable {block : Block} {state : State} {line : Text}

/-- A run that ends and that starts at a line takes a step. -/
theorem step_of_run {fuel : Nat} {outcome : Outcome}
    (hline : block.lines[state.cursor]? = some line) (hrun : run fuel block state = some outcome) :
    ∃ less, fuel = less + 1 ∧
      (state.execute (runCalls less) block line).finish (run less block) = some outcome := by
  cases fuel with
  | zero => cases hrun
  | succ less =>
      rw [run_succ hline] at hrun
      exact ⟨less, rfl, hrun⟩

/-- More fuel is within less in what it runs. -/
theorem runCalls_within {fuel more : Nat} (h : fuel ≤ more) :
    (runCalls fuel).Within (runCalls more) := by
  intro callee scope interpreter last hcall
  exact run_mono hcall h

/-- A step that ends with a flow realizes it. -/
theorem realized_of_execute {flow : Flow World} {fuel target : Nat} {frames : List Frame}
    (hline : block.lines[state.cursor]? = some line)
    (hstep : state.execute (runCalls fuel) block line = flow.map (·.place target frames)) :
    flow.Realized block state target frames := by
  cases flow with
  | unfinished => exact trivial
  | onward world =>
      rintro outcome ⟨more, hrun⟩
      have hends : (Flow.onward world).map (·.place target frames) ≠ .unfinished := by
        intro h
        cases h
      refine ⟨max fuel more + 1, ?_⟩
      rw [run_succ hline,
        execute_within (runCalls_within (Nat.le_max_left fuel more)) hstep hends]
      exact run_mono hrun (Nat.le_max_right fuel more)
  | ended last =>
      refine ⟨fuel + 1, ?_⟩
      rw [run_succ hline, hstep]
      rfl

/-- Where a step leads, the machine ends as it did before the step. -/
theorem ends_of_execute {next : State} {outcome : Outcome}
    (hline : block.lines[state.cursor]? = some line)
    (hstep : ∀ calls, state.execute calls block line = .onward next)
    (h : Ends block next outcome) : Ends block state outcome := by
  obtain ⟨fuel, hrun⟩ := h
  refine ⟨fuel + 1, ?_⟩
  rw [run_succ hline, hstep]
  exact hrun

end Steps

/-- The runs of the machine follow the flows, when the calls in them cover the runs of methods with
less fuel. -/
theorem reached_simulation (block : Block) {calls : Calls} {limit : Nat}
    (hcalls : ∀ fuel, fuel < limit → (runCalls fuel).Within calls) :
    Simulation block calls fun bound state flow target frames ↦
      ∀ fuel outcome, fuel ≤ bound → fuel ≤ limit → run fuel block state = some outcome →
        flow.Reached block target frames fuel outcome where
  arrived bound world target frames fuel outcome _ _ hrun := ⟨fuel, Nat.le_refl fuel, hrun⟩
  exhausted state target frames fuel outcome hfuel _ hrun := by
    obtain rfl : fuel = 0 := by omega
    cases hrun
  lower h fuel outcome hfuel hlimit hrun := h fuel outcome (by omega) hlimit hrun
  step hline hstep hnext fuel outcome hfuel hlimit hrun := by
    obtain ⟨less, rfl, hfinish⟩ := step_of_run hline hrun
    rw [hstep] at hfinish
    exact (hnext less outcome (by omega) (by omega) hfinish).mono (by omega)
  failed hline hstep _ fuel outcome hfuel hlimit hrun := by
    obtain ⟨less, rfl, hfinish⟩ := step_of_run hline hrun
    rw [hstep] at hfinish
    exact (Flow.Reached.of_finish hfinish).mono (by omega)
  plain {bound index line frames} world hline hplain fuel outcome hfuel hlimit hrun := by
    obtain ⟨less, rfl, hfinish⟩ := step_of_run hline hrun
    rw [execute_plain hplain] at hfinish
    have hreached := Flow.Reached.of_finish hfinish
    have hends : world.line (runCalls less) (block.lineNumber index) line ≠ .unfinished := by
      intro hflow
      rw [hflow] at hreached
      exact hreached
    rw [World.line_within (hcalls less (by omega)) world _ line hends]
    exact hreached.mono (by omega)
  and_then hpiece hrest fuel outcome hfuel hlimit hrun :=
    (hpiece fuel outcome hfuel hlimit hrun).and_then fun world less hless hworld ↦
      hrest world less outcome (by omega) (by omega) hworld

/-- The machine realizes the flows, when it ends as the calls in them do. -/
theorem realized_simulation (block : Block) {calls : Calls}
    (hcalls : ∀ block scope interpreter outcome, calls block scope interpreter = some outcome →
      Ends block (.start scope interpreter) outcome) :
    Simulation block calls fun _ state flow target frames ↦
      flow.Realized block state target frames where
  arrived bound world target frames outcome hworld := hworld
  exhausted state target frames := trivial
  lower h := h
  step hline hstep hnext := hnext.of_ends fun _ ↦ ends_of_execute hline hstep
  failed hline hstep _ := realized_of_execute hline (hstep (runCalls 0))
  plain {bound index line frames} world hline hplain := by
    by_cases hends : world.line calls (block.lineNumber index) line = .unfinished
    · rw [hends]
      exact trivial
    · obtain ⟨fuel, hsame⟩ := World.line_of_ends hcalls world _ line hends
      rw [← hsame]
      exact realized_of_execute hline (execute_plain hplain (runCalls fuel) world)
  and_then hpiece hrest := hpiece.and_then hrest

/-- The nesting tree of a block has its number of lines. -/
theorem Block.size_program (block : Block) : block.program.size = block.lines.size := by
  rw [← Program.length_lines, block.lines_program, Array.length_toList]

/-- The machine past the last line ends. -/
theorem run_end (block : Block) (world : World) (frames : List Frame) (fuel : Nat) :
    run (fuel + 1) block (world.place (0 + block.program.size) frames) =
      some ⟨.ok (), world.scope, world.interpreter⟩ := by
  apply run_past
  rw [Nat.zero_add, block.size_program]
  exact Array.getElem?_size

/-- What the machine ends with, the structured execution ends with on the same fuel. -/
theorem structured_of_run {fuel : Nat} {block : Block} {scope : Scope} {interpreter : Interpreter}
    {outcome : Outcome} (h : run fuel block (.start scope interpreter) = some outcome) :
    runStructured fuel block scope interpreter = some outcome := by
  induction fuel generalizing block scope interpreter outcome with
  | zero => cases h
  | succ fuel ih =>
      -- The methods that are called have less fuel left, which the induction covers.
      have hcalls : ∀ less, less < fuel + 1 → (runCalls less).Within (runStructured fuel) := by
        intro less hless callee scope interpreter last hcall
        exact ih (run_mono hcall (by omega))
      have hreached : Flow.Reached block (0 + block.program.size) [] (fuel + 1) outcome
          (block.program.exec (runStructured fuel) (fuel + 1) block.firstLine
            ⟨scope, interpreter⟩) :=
        (reached_simulation block hcalls).exec block.holds_program (fuel + 1) ⟨scope, interpreter⟩
          [] (Nat.le_refl _) (.nil 0) (fuel + 1) outcome (Nat.le_refl _) (Nat.le_refl _) h
      rw [runStructured]
      cases hflow : block.program.exec (runStructured fuel) (fuel + 1) block.firstLine
        ⟨scope, interpreter⟩ with
      | unfinished =>
          rw [hflow] at hreached
          exact hreached.elim
      | onward world =>
          rw [hflow] at hreached
          obtain ⟨less, -, hrun⟩ := hreached
          rw [← run_mono hrun (Nat.le_succ less), run_end]
          rfl
      | ended last =>
          rw [hflow] at hreached
          exact congrArg some hreached

/-- What the structured execution ends with, the machine ends with. -/
theorem ends_of_structured {fuel : Nat} {block : Block} {scope : Scope} {interpreter : Interpreter}
    {outcome : Outcome} (h : runStructured fuel block scope interpreter = some outcome) :
    Ends block (.start scope interpreter) outcome := by
  induction fuel generalizing block scope interpreter outcome with
  | zero => cases h
  | succ fuel ih =>
      have hcalls : ∀ block scope interpreter outcome,
          runStructured fuel block scope interpreter = some outcome →
            Ends block (.start scope interpreter) outcome := by
        intro callee scope interpreter last hcall
        exact ih hcall
      have hrealized : Flow.Realized block (.start scope interpreter) (0 + block.program.size) []
          (block.program.exec (runStructured fuel) (fuel + 1) block.firstLine
            ⟨scope, interpreter⟩) :=
        (realized_simulation block hcalls).exec block.holds_program (fuel + 1) ⟨scope, interpreter⟩
          [] (Nat.le_refl _) (.nil 0)
      rw [runStructured] at h
      cases hflow : block.program.exec (runStructured fuel) (fuel + 1) block.firstLine
        ⟨scope, interpreter⟩ with
      | unfinished =>
          rw [hflow] at h
          cases h
      | onward world =>
          rw [hflow] at h hrealized
          obtain rfl := Option.some.inj h
          exact hrealized _ ⟨1, run_end block world [] 0⟩
      | ended last =>
          rw [hflow] at h hrealized
          obtain rfl := Option.some.inj h
          exact hrealized

/-- The machine that runs the lines of a block and the recursion on the nesting tree of the block
end in the same way, with the same variables and the same interpreter, or both run forever. The
nesting tree is the one program with the lines of the block. -/
theorem run_iff_run_structured (block : Block) (scope : Scope) (interpreter : Interpreter) :
    (∀ program : Program, program.lines = block.lines.toList ↔ program = block.program) ∧
    (∀ outcome, (∃ fuel, run fuel block (.start scope interpreter) = some outcome) ↔
      ∃ fuel, runStructured fuel block scope interpreter = some outcome) ∧
    ∀ fuel more outcome other, run fuel block (.start scope interpreter) = some outcome →
      runStructured more block scope interpreter = some other → outcome = other := by
  refine ⟨fun program ↦ ⟨fun hlines ↦ (Block.program_eq hlines).symm, ?_⟩, fun outcome ↦ ⟨?_, ?_⟩,
    fun fuel more outcome other hrun hother ↦ ?_⟩
  · rintro rfl
    exact block.lines_program
  · rintro ⟨fuel, hrun⟩
    exact ⟨fuel, structured_of_run hrun⟩
  · rintro ⟨fuel, hrun⟩
    exact ends_of_structured hrun
  · exact Ends.unique ⟨fuel, hrun⟩ (ends_of_structured hother)

end PenScript
