import PenScript.Proofs.Machine.Call
import PenScript.Proofs.Machine.Feeding

/-!
# Programs without loops end

Without loops a run can only be long by calling methods, and calls are nested as deep as the options
allow and no deeper. `Interpreter.Bounded` keeps account of this: no method that is defined has a
loop, and there is room for a given number of bodies inside each other. A piece of a program ends
when the methods that it can call end, which have less room (`exec_bounded`), so the structured
execution ends as soon as its fuel exceeds the room (`run_structured_bounded`), and the machine ends
with it. Neither a method that is defined anew nor an error makes more room.
-/

namespace PenScript

/-- The line opens a loop. -/
def Line.OpensLoop (line : Text) : Prop :=
  Line.kind line = .opener .whileLoop ∨ Line.kind line = .opener .forLoop

instance (line : Text) : Decidable (Line.OpensLoop line) :=
  inferInstanceAs (Decidable (_ ∨ _))

/-- None of the lines opens a loop. -/
def LoopFree (lines : List Text) : Prop :=
  ∀ line ∈ lines, ¬ Line.OpensLoop line

instance (lines : List Text) : Decidable (LoopFree lines) :=
  inferInstanceAs (Decidable (∀ line ∈ lines, _))

/-- Lines are without loops when all parts of them are. -/
theorem loop_free_append {first last : List Text} :
    LoopFree (first ++ last) ↔ LoopFree first ∧ LoopFree last :=
  List.forall_mem_append

/-- The first line opens no loop, and neither do the others. -/
theorem loop_free_cons {line : Text} {rest : List Text} :
    LoopFree (line :: rest) ↔ ¬ Line.OpensLoop line ∧ LoopFree rest :=
  List.forall_mem_cons

/-- No method that is defined has a loop, and at most so many more bodies fit inside those that are
being run. -/
structure Interpreter.Bounded (interpreter : Interpreter) (room : Nat) : Prop where
  methods : ∀ entry ∈ interpreter.methods.methods.entries, LoopFree entry.2.block.lines.toList
  depth : interpreter.options.maxCallDepth ≤ interpreter.callDepth + room

/-- A piece of a program does not run out of fuel, and leaves the interpreter as bounded as it
was. -/
def Flow.Bounded (room : Nat) : Flow World → Prop
  | .unfinished => False
  | .onward world => world.interpreter.Bounded room
  | .ended outcome => outcome.interpreter.Bounded room

/-- Bodies without loops end when there is room for so many inside them. -/
def Calls.EndWithin (calls : Calls) (room : Nat) : Prop :=
  ∀ block scope interpreter, LoopFree block.lines.toList → interpreter.Bounded room →
    ∃ outcome, calls block scope interpreter = some outcome ∧ outcome.interpreter.Bounded room

namespace Interpreter.Bounded

variable {interpreter : Interpreter} {room : Nat}

/-- A body is entered when there is room for it. -/
theorem enter (h : interpreter.Bounded (room + 1)) : interpreter.enter.Bounded room where
  methods := h.methods
  depth := by
    have hroom := h.depth
    show interpreter.options.maxCallDepth ≤ interpreter.callDepth + 1 + room
    omega

/-- A body that is left makes room for another one. -/
theorem leave (h : interpreter.Bounded room) : interpreter.leave.Bounded (room + 1) where
  methods := h.methods
  depth := by
    have hroom := h.depth
    show interpreter.options.maxCallDepth ≤ interpreter.callDepth - 1 + (room + 1)
    omega

/-- A method without loops is defined. -/
theorem define (h : interpreter.Bounded room) {method : Method}
    (hmethod : LoopFree method.block.lines.toList) : (interpreter.define method).Bounded room where
  methods entry hentry := by
    rcases NameMap.mem_insert_entry hentry with rfl | hold
    · exact hmethod
    · exact h.methods entry hold
  depth := h.depth

/-- A call that can be made is one of a method without loops, and there is room for its body. -/
theorem prepare (h : interpreter.Bounded room) {name : Text} {arguments : List Text}
    {caller : Scope} {call : Call} (hcall : interpreter.prepare name arguments caller = .ok call) :
    LoopFree call.method.block.lines.toList ∧
      ∃ less, room = less + 1 ∧ interpreter.enter.Bounded less := by
  obtain ⟨hmethod, -, hdepth, -⟩ := prepare_ok hcall
  have hroom := h.depth
  obtain ⟨less, rfl⟩ : ∃ less, room = less + 1 := ⟨room - 1, by omega⟩
  exact ⟨h.methods _ (NameMap.mem_entries_iff.mpr hmethod), less, rfl, h.enter⟩

end Interpreter.Bounded

section Pieces

variable {room : Nat} {world : World} {calls : Calls}

/-- One piece of a program after another. -/
theorem Flow.Bounded.and_then {flow : Flow World} {rest : World → Flow World}
    (h : flow.Bounded room)
    (hrest : ∀ world : World, world.interpreter.Bounded room → (rest world).Bounded room) :
    (flow.andThen rest).Bounded room := by
  cases flow with
  | unfinished => exact h.elim
  | onward world => exact hrest world h
  | ended outcome => exact h

/-- A line that fails is done with, whatever is recorded. -/
theorem fail_bounded (h : world.interpreter.Bounded room) (number : Nat) (text : Text)
    (error : Error) : (world.fail number text error).Bounded room := by
  unfold World.fail
  split
  · exact h
  · dsimp only
    split
    · exact ⟨h.methods, h.depth⟩
    · exact ⟨h.methods, h.depth⟩

/-- A call that can be made ends. -/
theorem call_bounded (h : world.interpreter.Bounded room)
    (hcalls : ∀ less, less < room → calls.EndWithin less) (number : Nat) (text : Text)
    {name : Text} {arguments : List Text} {call : Interpreter.Call}
    (hcall : world.interpreter.prepare name arguments world.scope = .ok call) :
    (world.call calls number text call).Bounded room := by
  obtain ⟨hbody, less, rfl, henter⟩ := h.prepare hcall
  obtain ⟨callee, hcallee, hend⟩ := hcalls less (Nat.lt_succ_self less) _ call.locals _ hbody henter
  unfold World.call World.returned
  rw [hcallee]
  dsimp only
  cases callee.result with
  | ok finished => exact hend.leave
  | error error => exact fail_bounded hend.leave number text error

/-- A line ends, when the methods that it can call do. -/
theorem line_bounded (h : world.interpreter.Bounded room)
    (hcalls : ∀ less, less < room → calls.EndWithin less) (number : Nat) (text : Text) :
    (world.line calls number text).Bounded room := by
  unfold World.line
  split
  · unfold World.statement
    cases world.interpreter.registry.statement world.scope text with
    | error error => exact fail_bounded h number text error
    | ok effect =>
        cases effect with
        | draw action => exact ⟨h.methods, h.depth⟩
        | bind name value => exact h
        | call name arguments =>
            dsimp only
            cases hcall : world.interpreter.prepare name arguments world.scope with
            | error error => exact fail_bounded h number text error
            | ok call => exact call_bounded h hcalls number text hcall
  · exact h

/-- A conditional ends when both its parts do. -/
theorem conditional_bounded (h : world.interpreter.Bounded room) (number : Nat) (header : Text)
    {yes no : World → Flow World} (hyes : (yes world).Bounded room)
    (hno : (no world).Bounded room) : (world.conditional number header yes no).Bounded room := by
  unfold World.conditional
  cases world.test "if condition".toList header with
  | error error => exact fail_bounded h number header error
  | ok taken =>
      cases taken with
      | true => exact hyes
      | false => exact hno

/-- The definition of a method without loops ends. -/
theorem define_bounded (h : world.interpreter.Bounded room) (number : Nat) (header : Text)
    {body : List Text} (hbody : LoopFree body) :
    (world.define number header body.toArray).Bounded room := by
  unfold World.define
  cases hdefine : Method.define (Line.splitWord header).2 body.toArray (number + 1) with
  | error error => exact fail_bounded h number header error
  | ok method =>
      obtain ⟨hlines, -⟩ := Method.block_of_define hdefine
      refine h.define ?_
      rw [hlines]
      exact hbody

/-- A program without loops ends, when the methods that it can call do. -/
theorem exec_bounded (hcalls : ∀ less, less < room → calls.EndWithin less) (passes : Nat)
    {program : Program} (hlines : LoopFree program.lines) (number : Nat)
    (h : world.interpreter.Bounded room) :
    (program.exec calls passes number world).Bounded room := by
  induction program generalizing number world with
  | empty => exact h
  | line text plain rest ih =>
      obtain ⟨-, hrest⟩ := loop_free_cons.mp hlines
      exact (line_bounded h hcalls number text).and_then fun _ ↦ ih hrest (number + 1)
  | block kind header opens body closer closes rest ihbody ihrest =>
      rw [Program.lines, loop_free_cons, loop_free_append, loop_free_cons] at hlines
      obtain ⟨hheader, hbody, -, hrest⟩ := hlines
      refine Flow.Bounded.and_then ?_ fun _ ↦ ihrest hrest _
      cases kind with
      | conditional => exact conditional_bounded h number header (ihbody hbody _ h) h
      | whileLoop => exact absurd (.inl opens) hheader
      | forLoop => exact absurd (.inr opens) hheader
      | method => exact define_bounded h number header hbody
  | branches header opens yes otherwise turns no closer closes rest ihyes ihno ihrest =>
      rw [Program.lines, loop_free_cons, loop_free_append, loop_free_cons, loop_free_append,
        loop_free_cons] at hlines
      obtain ⟨-, hyes, -, hno, -, hrest⟩ := hlines
      refine Flow.Bounded.and_then ?_ fun _ ↦ ihrest hrest _
      exact conditional_bounded h number header (ihyes hyes _ h) (ihno hno _ h)

end Pieces

/-- The structured execution of a block without loops ends on any fuel that exceeds the room for
bodies inside it. -/
theorem run_structured_bounded {fuel room : Nat} (hfuel : room < fuel) :
    (runStructured fuel).EndWithin room := by
  induction fuel generalizing room with
  | zero => omega
  | succ fuel ih =>
      intro block scope interpreter hlines h
      have hcalls : ∀ less, less < room → (runStructured fuel).EndWithin less :=
        fun less hless ↦ ih (by omega)
      have hbounded := @exec_bounded room ⟨scope, interpreter⟩ (runStructured fuel) hcalls
        (fuel + 1) block.program (by rw [block.lines_program]; exact hlines) block.firstLine h
      rw [runStructured]
      generalize block.program.exec (runStructured fuel) (fuel + 1) block.firstLine
        ⟨scope, interpreter⟩ = flow at hbounded ⊢
      cases flow with
      | unfinished => exact hbounded.elim
      | onward world => exact ⟨_, rfl, hbounded⟩
      | ended outcome => exact ⟨outcome, rfl, hbounded⟩

/-- The machine ends in a block without loops, when no method has one. -/
theorem exists_ends_of_loop_free {block : Block} {interpreter : Interpreter}
    (hlines : LoopFree block.lines.toList)
    (hmethods : ∀ entry ∈ interpreter.methods.methods.entries, LoopFree entry.2.block.lines.toList)
    (scope : Scope) : ∃ outcome, Ends block (.start scope interpreter) outcome := by
  have hbounded : interpreter.Bounded interpreter.options.maxCallDepth :=
    ⟨hmethods, Nat.le_add_left _ _⟩
  obtain ⟨outcome, houtcome, -⟩ :=
    run_structured_bounded (Nat.lt_succ_self _) block scope interpreter hlines hbounded
  exact ⟨outcome, ends_of_structured houtcome⟩

/-- Every run of a program without `while` and `for` ends, whatever the mode and however deep calls
may be nested. The program may define methods inside methods, define them anew, and call them before
and after, and its methods may call themselves and each other. -/
theorem loop_free_runs_end (interpreter : Interpreter) {lines : List Text} (h : LoopFree lines) :
    ∃ fuel outcome, interpreter.runLines fuel lines = some outcome := by
  cases hbuild : BlockMap.build lines interpreter.reset.nextLine with
  | error cause => exact ⟨0, _, Interpreter.feed_rejected hbuild 0⟩
  | ok map =>
      obtain ⟨block, hblock, hlines, -⟩ := @Block.of_lines_ok lines.toArray _ _ hbuild
      have hloops : LoopFree block.lines.toList := by
        rw [hlines]
        exact h
      -- The run starts from a reset, so there is no method that could have a loop yet.
      have hmethods : ∀ entry ∈ interpreter.reset.methods.methods.entries,
          LoopFree entry.2.block.lines.toList := by
        intro entry hentry
        cases hentry
      obtain ⟨last, hends⟩ := @exists_ends_of_loop_free block
        (interpreter.reset.ready lines.length) hloops hmethods interpreter.reset.globals
      obtain ⟨fuel, hfeed⟩ := (Interpreter.feeds_iff hblock).mpr ⟨last, hends, rfl⟩
      exact ⟨fuel, _, hfeed⟩

/-- A method that calls itself twice and defines itself anew in between ends, after more calls than
could ever be made. -/
theorem loop_free_runs_end_of_recursion :
    let program := ["method m".toList, "call m".toList, "method n".toList, "call m".toList,
      "call n".toList, "endmethod".toList, "if 1 > 0".toList, "call n".toList, "endif".toList,
      "endmethod".toList, "call m".toList]
    LoopFree program ∧
      ∃ fuel outcome, (Interpreter.new ⟨false, 256⟩ .standard).runLines fuel program =
        some outcome :=
  ⟨by decide, loop_free_runs_end _ (by decide)⟩

end PenScript
