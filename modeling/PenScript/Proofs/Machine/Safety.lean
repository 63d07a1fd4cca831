import PenScript.CommandLine.Execution
import PenScript.Proofs.Machine.Simulation

/-!
# No structural error at run time

Some steps of the machine look up the partner of a line or the innermost frame and raise a fatal
error when they do not find what they need. `visits_harmless` says that this never happens: no
state that the machine visits, in the block that it is started in or in the body of a method that
is called, however deep, fails with a fatal error. So the structure of the lines, which is known
before they are run, decides whether a run ends with a structural error;
`structural_error_iff_rejected` says this for `Interpreter.feed` and for the two commands that check
and run a file.
-/

namespace PenScript

/-- In as many steps of the machine in the block, no line fails with a fatal error. -/
def SafeFor (block : Block) : Nat → State → Prop
  | 0, _ => True
  | count + 1, state =>
      ∀ line, block.lines[state.cursor]? = some line →
        Harmless (state.decide block line) ∧
          ∀ calls next, state.execute calls block line = .onward next → SafeFor block count next

/-- The machine gets from a state in a block to a state in the same block or in the body of a
method. -/
inductive Visits (block : Block) (state : State) : Block → State → Prop where
  | here : Visits block state block state
  | step {current : Block} {place next : State} {line : Text} {fuel : Nat} :
      Visits block state current place → current.lines[place.cursor]? = some line →
      place.execute (runCalls fuel) current line = .onward next → Visits block state current next
  | call {current : Block} {place : State} {line : Text} {call : Interpreter.Call} :
      Visits block state current place → current.lines[place.cursor]? = some line →
      place.decide current line = .ok (.call call) →
      Visits block state call.method.block (.start call.locals place.interpreter.enter)

section Steps

variable {block : Block} {state : State} {line : Text}

/-- A fatal error ends the run. -/
theorem execute_fatal {error : Error} (hdecide : state.decide block line = .error error)
    (hfatal : error.isFatal = true) (calls : Calls) :
    state.execute calls block line = .ended (state.stop error) := by
  unfold State.execute
  rw [hdecide]
  unfold State.carryOut State.failed State.settle
  simp only [hfatal, Bool.true_or, if_true]

/-- A step that goes on has not failed with a fatal error. -/
theorem harmless_of_onward {calls : Calls} {next : State}
    (h : state.execute calls block line = .onward next) : Harmless (state.decide block line) := by
  intro error hdecide
  rw [← Bool.not_eq_true]
  intro hfatal
  rw [execute_fatal hdecide hfatal] at h
  cases h

/-- A step that fails as a line does has failed with the same error. -/
theorem harmless_of_fail {calls : Calls} {world : World} {number : Nat} {text : Text}
    {error : Error} {place : World → State}
    (h : state.execute calls block line = (world.fail number text error).map place)
    (herror : error.isFatal = false) : Harmless (state.decide block line) := by
  intro other hdecide
  rw [← Bool.not_eq_true]
  intro hfatal
  -- A fatal error ends the run with itself, and not with the error of the line.
  rw [execute_fatal hdecide hfatal] at h
  rcases world.fail_cases number text error with ⟨after, hflow⟩ | ⟨outcome, hflow, hresult⟩
  · rw [hflow] at h
    cases h
  · rw [hflow] at h
    obtain rfl : state.stop other = outcome := Flow.ended.inj h
    obtain rfl : other = error := Except.error.inj hresult
    rw [herror] at hfatal
    cases hfatal

/-- The error that ends a run at a line is that of the line, or that of the method that it
calls. -/
theorem error_of_ended {calls : Calls} {outcome : Outcome}
    (h : state.execute calls block line = .ended outcome) :
    ∃ error, outcome.result = .error error ∧
      (state.decide block line = .error error ∨
        ∃ call callee, state.decide block line = .ok (.call call) ∧
          calls call.method.block call.locals state.interpreter.enter = some callee ∧
          callee.result = .error error) := by
  unfold State.execute at h
  cases hdecide : state.decide block line with
  | error error =>
      rw [hdecide] at h
      exact ⟨error, (failed_ended h).1, .inl rfl⟩
  | ok decision =>
      rw [hdecide] at h
      cases decision with
      | move target frames change => cases h
      | call call =>
          simp only [State.carryOut] at h
          cases hcall : calls call.method.block call.locals state.interpreter.enter with
          | none =>
              rw [hcall] at h
              cases h
          | some callee =>
              rw [hcall] at h
              simp only [State.returned] at h
              cases hresult : callee.result with
              | ok value =>
                  rw [hresult] at h
                  cases h
              | error error =>
                  rw [hresult] at h
                  exact ⟨error, (failed_ended h).1, .inr ⟨call, callee, rfl, hcall, hresult⟩⟩

end Steps

namespace SafeFor

variable {block : Block} {state : State} {count : Nat}

/-- What is safe is safe for fewer steps. -/
theorem lower (h : SafeFor block (count + 1) state) : SafeFor block count state := by
  induction count generalizing state with
  | zero => exact trivial
  | succ count ih =>
      intro line hline
      obtain ⟨hharmless, hnext⟩ := h line hline
      exact ⟨hharmless, fun calls next hstep ↦ ih (hnext calls next hstep)⟩

/-- The line at a state says what is safe there. -/
theorem of_line {line : Text} (hline : block.lines[state.cursor]? = some line)
    (hharmless : Harmless (state.decide block line))
    (hnext : ∀ calls next, state.execute calls block line = .onward next →
      SafeFor block count next) : SafeFor block (count + 1) state := by
  intro other hother
  obtain rfl : line = other := Option.some.inj (hline.symm.trans hother)
  exact ⟨hharmless, hnext⟩

end SafeFor

/-- A piece of a program is safe when what comes after it is safe. -/
theorem safe_simulation (block : Block) (calls : Calls) :
    Simulation block calls fun bound state _ target frames ↦
      ∀ count, count ≤ bound → (∀ world : World, SafeFor block count (world.place target frames)) →
        SafeFor block count state where
  arrived bound world target frames count _ hafter := hafter world
  exhausted state target frames count hcount _ := by
    obtain rfl : count = 0 := by omega
    exact trivial
  lower h count hcount := h count (by omega)
  step {bound state next line flow target frames} hline hstep hnext count hcount hafter := by
    cases count with
    | zero => exact trivial
    | succ count =>
        refine .of_line hline (harmless_of_onward (hstep (runCalls 0))) fun calls last hlast ↦ ?_
        obtain rfl : next = last := Flow.onward.inj ((hstep calls).symm.trans hlast)
        exact hnext count (by omega) fun world ↦ (hafter world).lower
  failed {bound state line world error target frames} hline hstep herror count hcount hafter := by
    cases count with
    | zero => exact trivial
    | succ count =>
        have hharmless := harmless_of_fail (hstep (runCalls 0)) herror
        refine .of_line hline hharmless fun calls last hlast ↦ ?_
        rw [hstep] at hlast
        obtain ⟨after, -, rfl⟩ := Flow.map_onward hlast
        exact (hafter after).lower
  plain {bound index line frames} world hline hplain count hcount hafter := by
    cases count with
    | zero => exact trivial
    | succ count =>
        refine .of_line hline ?_ fun calls last hlast ↦ ?_
        · unfold State.decide
          rcases hplain with hkind | hkind
          · rw [hkind]
            exact .ok _
          · rw [hkind]
            exact State.decide_statement_harmless _ _
        · rw [execute_plain hplain] at hlast
          obtain ⟨after, -, rfl⟩ := Flow.map_onward hlast
          exact (hafter after).lower
  and_then hpiece hrest count hcount hafter :=
    hpiece count hcount fun world ↦ hrest world count hcount hafter

/-- A block is safe from its first line on, for any number of steps. -/
theorem safe_start (block : Block) (scope : Scope) (interpreter : Interpreter) (count : Nat) :
    SafeFor block count (.start scope interpreter) := by
  have hend : ∀ world : World,
      SafeFor block count (world.place (0 + block.program.size) []) := by
    intro world
    cases count with
    | zero => exact trivial
    | succ count =>
        intro line hline
        rw [World.place, Nat.zero_add, block.size_program, Array.getElem?_size] at hline
        cases hline
  exact (safe_simulation block (runCalls 0)).exec block.holds_program count ⟨scope, interpreter⟩ []
    (Nat.le_refl count) (.nil 0) count (Nat.le_refl count) hend

/-- No state that the machine visits fails with a fatal error. -/
theorem visits_harmless {block current : Block} {scope : Scope} {interpreter : Interpreter}
    {state : State} {line : Text} (h : Visits block (.start scope interpreter) current state)
    (hline : current.lines[state.cursor]? = some line) : Harmless (state.decide current line) := by
  have hsafe : ∀ count, SafeFor current count state := by
    clear hline
    induction h with
    | here => exact safe_start block scope interpreter
    | step _ hplace hstep ih =>
        intro count
        obtain ⟨-, hnext⟩ := ih (count + 1) _ hplace
        exact hnext _ _ hstep
    -- The body of a method is a block of its own, and its run starts at its first line.
    | call _ _ _ _ => exact safe_start _ _ _
  exact (hsafe 1 line hline).1

/-- No run ends with a fatal error. -/
theorem run_harmless {fuel : Nat} {block : Block} {state : State} {outcome : Outcome}
    (hsafe : ∀ count, SafeFor block count state) (h : run fuel block state = some outcome) :
    Harmless outcome.result := by
  induction fuel generalizing block state outcome with
  | zero => cases h
  | succ fuel ih =>
      cases hline : block.lines[state.cursor]? with
      | none =>
          rw [run_past hline] at h
          obtain rfl := Option.some.inj h
          exact .ok ()
      | some line =>
          rw [run_succ hline] at h
          cases hflow : state.execute (runCalls fuel) block line with
          | unfinished =>
              rw [hflow] at h
              cases h
          | onward next =>
              rw [hflow] at h
              exact ih (fun count ↦ (hsafe (count + 1) line hline).2 _ _ hflow) h
          | ended last =>
              rw [hflow] at h
              obtain rfl : last = outcome := Option.some.inj h
              obtain ⟨error, hresult, hdecide | ⟨call, callee, -, hcall, hcallee⟩⟩ :=
                error_of_ended hflow
              · rw [hresult]
                exact .error ((hsafe 1 line hline).1 error hdecide)
              · have hharmless := ih (safe_start _ _ _) hcall
                rw [hcallee] at hharmless
                rw [hresult]
                exact hharmless

namespace Interpreter

variable {interpreter : Interpreter} {lines : List Text}

/-- The interpreter that runs some more lines: their numbers are taken, and it is not halted. -/
def ready (interpreter : Interpreter) (count : Nat) : Interpreter :=
  { interpreter with nextLine := interpreter.nextLine + count, halted := false }

/-- A run against the global variables ends with what is left of them. -/
def closing (outcome : Outcome) : RunOutcome :=
  ⟨outcome.result, { outcome.interpreter with globals := outcome.scope }⟩

/-- Lines that do not nest are refused, and nothing else happens. -/
theorem feed_rejected {cause : BlockError}
    (h : BlockMap.build lines interpreter.nextLine = .error cause) (fuel : Nat) :
    interpreter.feed fuel lines =
      some ⟨.error (.unmatchedBlock cause), interpreter.ready lines.length⟩ := by
  unfold feed executeBlock
  rw [@Block.of_lines_error lines.toArray _ _ h]
  rfl

/-- Lines that nest are run from the first to the last. -/
theorem feed_accepted {block : Block}
    (h : Block.ofLines lines.toArray interpreter.nextLine = .ok block) (fuel : Nat) :
    interpreter.feed fuel lines =
      (run fuel block (.start interpreter.globals (interpreter.ready lines.length))).map
        closing := by
  unfold feed executeBlock
  rw [h]
  rfl

/-- No run of lines that nest ends with a structural error. -/
theorem feed_harmless {map : BlockMap} (h : BlockMap.build lines interpreter.nextLine = .ok map)
    {fuel : Nat} {outcome : RunOutcome} (hfeed : interpreter.feed fuel lines = some outcome) :
    Harmless outcome.result := by
  obtain ⟨block, hblock, -, -⟩ := @Block.of_lines_ok lines.toArray _ _ h
  rw [feed_accepted hblock, Option.map_eq_some_iff] at hfeed
  obtain ⟨last, hrun, rfl⟩ := hfeed
  exact run_harmless (safe_start _ _ _) hrun

end Interpreter

/-- The result is not a structural error. -/
theorem Harmless.ne_unmatched {α : Type} {result : Except Error α} (h : Harmless result)
    (cause : BlockError) : result ≠ .error (.unmatchedBlock cause) := by
  intro hresult
  cases h _ hresult

/-- Lines are refused with a structural error, before anything is run, exactly when they do not
nest. When they nest, no state that the machine visits raises one, in any method that is called. So
a file passes its check exactly when running it does not end with a structural error. -/
theorem structural_error_iff_rejected :
    (∀ (interpreter : Interpreter) (lines : List Text),
      match BlockMap.build lines interpreter.nextLine with
      | .error cause => ∀ fuel, interpreter.feed fuel lines =
          some ⟨.error (.unmatchedBlock cause),
            { interpreter with
              nextLine := interpreter.nextLine + lines.length
              halted := false }⟩
      | .ok _ =>
          (∀ fuel outcome cause, interpreter.feed fuel lines = some outcome →
            outcome.result ≠ .error (.unmatchedBlock cause)) ∧
          ∀ block current state line cause,
            Block.ofLines lines.toArray interpreter.nextLine = .ok block →
            Visits block (.start interpreter.globals (interpreter.ready lines.length))
              current state →
            current.lines[state.cursor]? = some line →
            state.decide current line ≠ .error (.unmatchedBlock cause)) ∧
    ∀ (options : Options) (file source : Text),
      (CommandLine.checkProgram file source).exit = 0 ↔
        ∀ fuel outcome cause,
          (Interpreter.new options .standard).runSource fuel source = some outcome →
          outcome.result ≠ .error (.unmatchedBlock cause) := by
  refine ⟨fun interpreter lines ↦ ?_, fun options file source ↦ ?_⟩
  · cases hbuild : BlockMap.build lines interpreter.nextLine with
    | error cause => exact Interpreter.feed_rejected hbuild
    | ok map =>
        refine ⟨fun fuel outcome cause hfeed ↦ ?_,
          fun block current state line cause _ hvisits hline ↦ ?_⟩
        · exact (Interpreter.feed_harmless hbuild hfeed).ne_unmatched cause
        · exact (visits_harmless hvisits hline).ne_unmatched cause
  · unfold CommandLine.checkProgram Interpreter.runSource Interpreter.runLines
    have hfirst : (Interpreter.new options .standard).reset.nextLine = 1 := rfl
    rw [← hfirst]
    cases hbuild : BlockMap.build (Text.lines source)
        (Interpreter.new options .standard).reset.nextLine with
    | error cause =>
        have hexit : (1 : UInt8) ≠ 0 := by decide
        refine ⟨fun h ↦ absurd h hexit, fun hnone ↦ ?_⟩
        exact absurd rfl (hnone 0 _ cause (Interpreter.feed_rejected hbuild 0))
    | ok map =>
        refine ⟨fun _ fuel outcome cause hrun ↦ ?_, fun _ ↦ rfl⟩
        exact (Interpreter.feed_harmless hbuild hrun).ne_unmatched cause

end PenScript
