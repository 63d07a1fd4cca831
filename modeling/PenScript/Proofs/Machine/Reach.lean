import Mathlib.Logic.Relation
import PenScript.Proofs.Machine.Failure

/-!
# Where the machine gets to

`Steps` is one step of the machine in a block and `Reaches` is any number of them. The machine in
front of a piece of a program, under whatever frames, reaches the line after the piece with the
world that the piece leads to (`reach_simulation`). So a piece that ends when it is run as a block by
itself is gone through in the same way where it stands (`Program.Ends.reaches`).
-/

namespace PenScript

/-- The machine takes a step in a block. -/
def Steps (block : Block) (state next : State) : Prop :=
  ∃ line fuel, block.lines[state.cursor]? = some line ∧
    state.execute (runCalls fuel) block line = .onward next

/-- The machine gets from one state to another. -/
abbrev Reaches (block : Block) : State → State → Prop :=
  Relation.ReflTransGen (Steps block)

section Reach

variable {block : Block} {state next : State}

/-- A step that does not depend on the calls of methods. -/
theorem Steps.of_execute {line : Text} (hline : block.lines[state.cursor]? = some line)
    (hstep : ∀ calls, state.execute calls block line = .onward next) : Steps block state next :=
  ⟨line, 0, hline, hstep _⟩

/-- The machine takes one step at most. -/
theorem Steps.unique {other : State} (h : Steps block state next)
    (hother : Steps block state other) : next = other := by
  obtain ⟨line, fuel, hline, hstep⟩ := h
  obtain ⟨_, more, hagain, hmore⟩ := hother
  obtain rfl := Option.some.inj (hline.symm.trans hagain)
  have hboth := execute_within (runCalls_within (Nat.le_max_left fuel more)) hstep (by simp)
  rw [execute_within (runCalls_within (Nat.le_max_right fuel more)) hmore (by simp)] at hboth
  exact (Flow.onward.inj hboth).symm

/-- A run that is neither strict nor halted stays so. -/
theorem Reaches.lenient (h : Reaches block state next) (hstart : state.interpreter.Lenient) :
    next.interpreter.Lenient := by
  induction h with
  | refl => exact hstart
  | tail _ hstep ih =>
      obtain ⟨line, fuel, -, hstep⟩ := hstep
      exact ih.step hstep

/-- The machine reaches the target with the world that a flow goes on with, if it goes on. -/
def Flow.Leads (block : Block) (state : State) (target : Nat) (frames : List Frame) :
    Flow World → Prop
  | .onward world => Reaches block state (world.place target frames)
  | _ => True

/-- A step leads where its flow does. -/
theorem Flow.Leads.of_execute {line : Text} {fuel target : Nat} {frames : List Frame}
    {flow : Flow World} (hline : block.lines[state.cursor]? = some line)
    (hstep : state.execute (runCalls fuel) block line = flow.map (·.place target frames)) :
    flow.Leads block state target frames := by
  cases flow with
  | unfinished => trivial
  | onward world => exact .single ⟨line, fuel, hline, hstep⟩
  | ended outcome => trivial

end Reach

/-- The machine reaches the end of every piece whose flow goes on, when it ends as the calls in the
flow do. -/
theorem reach_simulation (block : Block) {calls : Calls}
    (hcalls : ∀ block scope interpreter outcome, calls block scope interpreter = some outcome →
      Ends block (.start scope interpreter) outcome) :
    Simulation block calls fun _ state flow target frames ↦
      flow.Leads block state target frames where
  arrived bound world target frames := .refl
  exhausted state target frames := trivial
  lower h := h
  step {bound state next line flow target frames} hline hstep hnext := by
    cases flow with
    | unfinished => trivial
    | onward world => exact .head (.of_execute hline hstep) hnext
    | ended outcome => trivial
  failed hline hstep _ := .of_execute hline (hstep (runCalls 0))
  plain {bound index line frames} world hline hplain := by
    by_cases hends : world.line calls (block.lineNumber index) line = .unfinished
    · rw [hends]
      trivial
    · obtain ⟨fuel, hsame⟩ := World.line_of_ends hcalls world _ line hends
      rw [← hsame]
      exact .of_execute hline (execute_plain hplain (runCalls fuel) world)
  and_then {bound state flow rest target next frames others} hpiece hrest := by
    cases flow with
    | unfinished => trivial
    | onward world =>
        have hworld := hrest world
        rw [Flow.onward_and_then]
        cases hflow : rest world with
        | unfinished => trivial
        | onward last =>
            rw [hflow] at hworld
            exact hpiece.trans hworld
        | ended outcome => trivial
    | ended outcome => trivial

/-- The world in which a run ends. -/
def Outcome.world (outcome : Outcome) : World :=
  ⟨outcome.scope, outcome.interpreter⟩

namespace Program

variable {program : Program} {number : Nat} {world : World} {outcome : Outcome}

/-- A program whose first line has the given number ends when it is run as a block by itself. -/
def Ends (program : Program) (number : Nat) (world : World) (outcome : Outcome) : Prop :=
  ∃ inside, Block.ofLines program.lines.toArray number = .ok inside ∧
    PenScript.Ends inside (.start world.scope world.interpreter) outcome

/-- A program ends with one outcome at most. -/
theorem Ends.unique {other : Outcome} (h : program.Ends number world outcome)
    (hother : program.Ends number world other) : outcome = other := by
  obtain ⟨inside, hinside, hends⟩ := h
  obtain ⟨_, hagain, hother⟩ := hother
  obtain rfl := Except.ok.inj (hinside.symm.trans hagain)
  exact PenScript.Ends.unique hends hother

/-- A program that ends by itself, in a run that is neither strict nor halted, is gone through by
the machine where it stands in a block. -/
theorem Ends.reaches {block : Block} {index : Nat} (hplace : block.Holds index program)
    (hlenient : world.interpreter.Lenient) {frames : List Frame} (houtside : Outside frames index)
    (h : program.Ends (block.lineNumber index) world outcome) :
    Reaches block (world.place index frames)
      (outcome.world.place (index + program.size) frames) := by
  obtain ⟨inside, hinside, hends⟩ := h
  obtain ⟨other, hother, hprogram, hfirst⟩ :=
    Block.exists_of_program program (block.lineNumber index)
  obtain rfl : other = inside := Except.ok.inj (hother.symm.trans hinside)
  obtain ⟨fuel, hrun⟩ := hends
  have hstructured := structured_of_run hrun
  cases fuel with
  | zero => cases hrun
  | succ fuel =>
      have hleads : Flow.Leads block (world.place index frames) (index + program.size) frames
          (program.exec (runStructured fuel) (fuel + 1) (block.lineNumber index) world) :=
        (reach_simulation block fun _ _ _ _ hcall ↦ ends_of_structured hcall).exec hplace
          (fuel + 1) world frames (Nat.le_refl _) houtside
      rw [runStructured] at hstructured
      cases hflow : other.program.exec (runStructured fuel) (fuel + 1) other.firstLine
          ⟨world.scope, world.interpreter⟩ with
      | unfinished =>
          rw [hflow] at hstructured
          cases hstructured
      | onward last =>
          rw [hflow] at hstructured
          rw [hprogram, hfirst] at hflow
          obtain rfl := Option.some.inj hstructured
          rw [hflow] at hleads
          exact hleads
      | ended last =>
          -- Only an error ends a run before its last line, and none comes out of this one.
          rw [hflow] at hstructured
          obtain rfl : last = outcome := Option.some.inj hstructured
          obtain ⟨error, herror⟩ := exec_ended hflow
          rw [hlenient.result_ok ⟨fuel + 1, hrun⟩] at herror
          cases herror

end Program

end PenScript
