import PenScript.Proofs.Machine.Call
import PenScript.Proofs.Program.Padding

/-!
# Blank lines and comments do nothing

A padded program is run like the program without the lines that were put in. This is an argument on
the nesting trees, where the two executions go side by side: what they have reached is the same but
for the numbers of the lines, which show in the recorded errors and in the bodies of the methods
that have been defined (`Interpreter.Padded`). Every function of the structured execution keeps this
relation, so `exec_padded` carries it through a whole program, and `run_structured_padded` through
the calls of methods.
-/

namespace PenScript

/-- The error on a line with another number. -/
def LineError.renumber (renumber : Nat → Nat) (failure : LineError) : LineError :=
  { failure with line := renumber failure.line }

section Padded

variable (renumber : Nat → Nat)

/-- The second block is the first one with more lines that are skipped. -/
def Block.Padded (block padded : Block) : Prop :=
  Program.Padded renumber block.firstLine block.program padded.firstLine padded.program

/-- The second method is the first one with more lines that are skipped in its body. -/
structure Method.Padded (method padded : Method) : Prop where
  name : padded.name = method.name
  parameters : padded.parameters = method.parameters
  body : method.block.Padded renumber padded.block

/-- The two interpreters differ in the numbers of lines only, and have methods with padded
bodies. -/
structure Interpreter.Padded (first second : Interpreter) : Prop where
  canvas : second.canvas = first.canvas
  registry : second.registry = first.registry
  options : second.options = first.options
  call_depth : second.callDepth = first.callDepth
  halted : second.halted = first.halted
  methods : first.methods.methods.Related (Method.Padded renumber) second.methods.methods
  errors : second.errors.toList = first.errors.toList.map (LineError.renumber renumber)

/-- The two worlds have the same variables, and interpreters that differ in line numbers only. -/
structure World.Padded (first second : World) : Prop where
  scope : second.scope = first.scope
  interpreter : first.interpreter.Padded renumber second.interpreter

/-- The two runs end alike, with interpreters that differ in line numbers only. -/
structure Outcome.Padded (first second : Outcome) : Prop where
  result : second.result = first.result
  scope : second.scope = first.scope
  interpreter : first.interpreter.Padded renumber second.interpreter

/-- Two pieces of a program lead to worlds or ends that differ in line numbers only. -/
abbrev Flow.Padded : Flow World → Flow World → Prop :=
  Flow.Related (World.Padded renumber) (Outcome.Padded renumber)

/-- Calls run padded bodies alike. -/
def Calls.KeepPadding (calls : Calls) : Prop :=
  ∀ block padded scope first second, Block.Padded renumber block padded →
    Interpreter.Padded renumber first second →
    Option.Rel (Outcome.Padded renumber) (calls block scope first) (calls padded scope second)

end Padded

variable {renumber : Nat → Nat}

namespace Interpreter.Padded

variable {first second : Interpreter}

/-- An action is drawn on both canvases. -/
theorem draw (h : first.Padded renumber second) (action : Canvas.Action) :
    (first.draw action).Padded renumber (second.draw action) :=
  { h with canvas := congrArg (·.perform action) h.canvas }

/-- An error is recorded with the two numbers of its line. -/
theorem record (h : first.Padded renumber second) (number : Nat) (text : Text) (error : Error) :
    (first.record ⟨number, text, error⟩).Padded renumber
      (second.record ⟨renumber number, text, error⟩) := by
  refine { h with errors := ?_ }
  show (second.errors.push _).toList = (first.errors.push _).toList.map _
  rw [Array.toList_push, Array.toList_push, List.map_append, h.errors]
  rfl

/-- Both runs are marked as ended. -/
theorem halt (h : first.Padded renumber second) : first.halt.Padded renumber second.halt :=
  { h with halted := rfl }

/-- A method body is entered in both runs. -/
theorem enter (h : first.Padded renumber second) : first.enter.Padded renumber second.enter :=
  { h with call_depth := congrArg (· + 1) h.call_depth }

/-- A method body is left in both runs. -/
theorem leave (h : first.Padded renumber second) : first.leave.Padded renumber second.leave :=
  { h with call_depth := congrArg (· - 1) h.call_depth }

/-- A method is defined with a padded body. -/
theorem define (h : first.Padded renumber second) {method padded : Method}
    (hmethod : method.Padded renumber padded) :
    (first.define method).Padded renumber (second.define padded) := by
  refine { h with methods := ?_ }
  show (first.methods.methods.insert _ method).Related _ (second.methods.methods.insert _ padded)
  rw [hmethod.name]
  exact h.methods.insert _ hmethod

/-- A call fails in both runs with the same error, or is one of a method and its padded form with
the same variables. -/
theorem prepare (h : first.Padded renumber second) (name : Text) (arguments : List Text)
    (caller : Scope) :
    (∃ error, first.prepare name arguments caller = .error error ∧
      second.prepare name arguments caller = .error error) ∨
    ∃ method padded locals, first.prepare name arguments caller = .ok ⟨method, locals⟩ ∧
      second.prepare name arguments caller = .ok ⟨padded, locals⟩ ∧
      method.Padded renumber padded :=
  prepare_related h.methods (fun _ _ hbody ↦ ⟨hbody.name, hbody.parameters⟩) h.call_depth h.options
    name arguments caller

end Interpreter.Padded

namespace World.Padded

variable {first second : World} {calls : Calls}

/-- A variable is set in both worlds. -/
theorem bind (h : first.Padded renumber second) (name : Text) (value : Value) :
    (first.bind name value).Padded renumber (second.bind name value) :=
  ⟨congrArg (·.insert name value) h.scope, h.interpreter⟩

/-- A failure is dealt with alike on the two numbers of its line. -/
theorem fail (h : first.Padded renumber second) (number : Nat) (text : Text) (error : Error) :
    Flow.Padded renumber (first.fail number text error)
      (second.fail (renumber number) text error) := by
  have hrecorded := h.interpreter.record number (Text.trim text) error
  unfold World.fail
  rw [h.interpreter.halted, h.scope]
  by_cases hstop : (error.isFatal || first.interpreter.halted) = true
  · rw [if_pos hstop, if_pos hstop]
    exact .ended ⟨rfl, rfl, h.interpreter⟩
  · rw [if_neg hstop, if_neg hstop]
    dsimp only
    rw [hrecorded.options]
    by_cases hstrict : (first.interpreter.record
        ⟨number, Text.trim text, error⟩).options.strict = true
    · rw [if_pos hstrict, if_pos hstrict]
      exact .ended ⟨rfl, rfl, hrecorded.halt⟩
    · rw [if_neg hstrict, if_neg hstrict]
      exact .onward ⟨rfl, hrecorded⟩

/-- A call of a method and of its padded form leads to the same. -/
theorem call (h : first.Padded renumber second) (hcalls : calls.KeepPadding renumber) (number : Nat)
    (text : Text) {method padded : Method} (hmethod : method.Padded renumber padded)
    (locals : Scope) :
    Flow.Padded renumber (first.call calls number text ⟨method, locals⟩)
      (second.call calls (renumber number) text ⟨padded, locals⟩) := by
  have hcallee := hcalls method.block padded.block locals _ _ hmethod.body h.interpreter.enter
  unfold World.call
  dsimp only
  generalize calls method.block locals first.interpreter.enter = mine,
    calls padded.block locals second.interpreter.enter = other at hcallee ⊢
  cases hcallee with
  | none => exact .unfinished
  | @some callee twin hcallee =>
      have hleft := hcallee.interpreter.leave
      simp only [World.returned]
      rw [hcallee.result, h.scope]
      cases callee.result with
      | ok finished =>
          refine .onward ⟨?_, hleft⟩
          rw [hmethod.name, hcallee.scope]
          unfold Method.result
          rw [hmethod.name]
      | error error =>
          have hafter : World.Padded renumber ⟨first.scope, callee.interpreter.leave⟩
            ⟨first.scope, twin.interpreter.leave⟩ := ⟨rfl, hleft⟩
          exact hafter.fail number text error

/-- A line does the same. -/
theorem line (h : first.Padded renumber second) (hcalls : calls.KeepPadding renumber) (number : Nat)
    (text : Text) :
    Flow.Padded renumber (first.line calls number text)
      (second.line calls (renumber number) text) := by
  unfold World.line
  by_cases hkind : Line.kind text = .statement
  · rw [if_pos hkind, if_pos hkind]
    unfold World.statement
    rw [h.interpreter.registry, h.scope]
    cases first.interpreter.registry.statement first.scope text with
    | error error => exact h.fail number text error
    | ok effect =>
        cases effect with
        | draw action => exact .onward ⟨rfl, h.interpreter.draw action⟩
        | bind name value => exact .onward (h.bind name value)
        | call name arguments =>
            dsimp only
            rcases h.interpreter.prepare name arguments first.scope with
              ⟨error, hfirst, hsecond⟩ | ⟨method, padded, locals, hfirst, hsecond, hmethod⟩
            · rw [hfirst, hsecond]
              exact h.fail number text error
            · rw [hfirst, hsecond]
              exact h.call hcalls number text hmethod locals
  · rw [if_neg hkind, if_neg hkind]
    exact .onward h

/-- A condition has the same truth value. -/
theorem test (h : first.Padded renumber second) (shape header : Text) :
    second.test shape header = first.test shape header := by
  unfold World.test
  rw [h.scope]

/-- The header of a counting loop has the same values. -/
theorem count (h : first.Padded renumber second) (header : Text) :
    second.count header = first.count header := by
  unfold World.count
  rw [h.scope]

/-- A counter moves in the same way. -/
theorem advance (h : first.Padded renumber second) (counter : Text) (limit step : Value) :
    second.advance counter limit step = first.advance counter limit step := by
  unfold World.advance
  rw [h.scope]

end World.Padded

/-- Pieces that lead alike from worlds that differ in line numbers only. -/
def LeadAlike (renumber : Nat → Nat) (body inside : World → Flow World) : Prop :=
  ∀ first second, World.Padded renumber first second →
    Flow.Padded renumber (body first) (inside second)

/-- Going on alike after pieces that lead alike. -/
theorem Flow.Related.and_then {flow other : Flow World} (h : Flow.Padded renumber flow other)
    {rest others : World → Flow World} (hrest : LeadAlike renumber rest others) :
    Flow.Padded renumber (flow.andThen rest) (other.andThen others) := by
  cases h with
  | unfinished => exact .unfinished
  | onward hworld => exact hrest _ _ hworld
  | ended hlast => exact .ended hlast

section Blocks

variable {first second : World} {body inside : World → Flow World}

/-- A conditional runs the same one of its two parts. -/
theorem conditional_padded (h : first.Padded renumber second) {other outside : World → Flow World}
    (hyes : LeadAlike renumber body inside) (hno : LeadAlike renumber other outside) (number : Nat)
    (header : Text) :
    Flow.Padded renumber (first.conditional number header body other)
      (second.conditional (renumber number) header inside outside) := by
  unfold World.conditional
  rw [h.test]
  cases first.test "if condition".toList header with
  | error error => exact h.fail number header error
  | ok taken =>
      cases taken with
      | true => exact hyes _ _ h
      | false => exact hno _ _ h

/-- A loop makes the same passes. -/
theorem while_loop_padded (hbody : LeadAlike renumber body inside) (number : Nat) (header : Text)
    (passes : Nat) :
    LeadAlike renumber (World.whileLoop number header body passes)
      (World.whileLoop (renumber number) header inside passes) := by
  induction passes with
  | zero => exact fun _ _ _ ↦ .unfinished
  | succ passes ih =>
      intro first second h
      unfold World.whileLoop
      rw [h.test]
      cases first.test "while condition".toList header with
      | error error => exact h.fail number header error
      | ok again =>
          cases again with
          | true => exact (hbody _ _ h).and_then ih
          | false => exact .onward h

/-- A counting loop makes the same passes. Its counter may fail at its closer. -/
theorem for_passes_padded (hbody : LeadAlike renumber body inside) (counter : Text)
    (limit step : Value) (number : Nat) (closer : Text) (passes : Nat) :
    LeadAlike renumber (World.forPasses counter limit step number closer body passes)
      (World.forPasses counter limit step (renumber number) closer inside passes) := by
  induction passes with
  | zero => exact fun _ _ _ ↦ .unfinished
  | succ passes ih =>
      intro first second h
      refine (hbody first second h).and_then fun first second h ↦ ?_
      rw [h.advance]
      cases first.advance counter limit step with
      | error error => exact h.fail number closer error
      | ok next =>
          obtain ⟨value, again⟩ := next
          cases again with
          | true => exact ih _ _ (h.bind counter value)
          | false => exact .onward (h.bind counter value)

/-- A counting loop starts with the same bounds. -/
theorem for_loop_padded (h : first.Padded renumber second) (hbody : LeadAlike renumber body inside)
    (passes number : Nat) (header : Text) (closerNumber : Nat) (closer : Text) :
    Flow.Padded renumber (first.forLoop passes number header closerNumber closer body)
      (second.forLoop passes (renumber number) header (renumber closerNumber) closer inside) := by
  unfold World.forLoop
  rw [h.count]
  cases first.count header with
  | error error => exact h.fail number header error
  | ok counting =>
      obtain ⟨counter, bounds, enters⟩ := counting
      have hbound := h.bind counter bounds.start
      cases enters with
      | true =>
          exact for_passes_padded hbody counter bounds.limit bounds.step closerNumber closer passes
            _ _ hbound
      | false => exact .onward hbound

/-- A method is stored with its body. -/
theorem define_padded (h : first.Padded renumber second) (number : Nat) (header : Text)
    {program padded : Program}
    (hpadded : Program.Padded renumber (number + 1) program (renumber number + 1) padded) :
    Flow.Padded renumber (first.define number header program.lines.toArray)
      (second.define (renumber number) header padded.lines.toArray) := by
  obtain ⟨block, hblock, hprogram, hfirst⟩ := Block.exists_of_program program (number + 1)
  obtain ⟨other, hother, hothers, hnumber⟩ := Block.exists_of_program padded (renumber number + 1)
  unfold World.define Method.define
  rw [hblock, hother]
  cases Method.signature (Line.splitWord header).2 with
  | error problem => exact h.fail number header _
  | ok signature =>
      have hbody : block.Padded renumber other := by
        unfold Block.Padded
        rw [hprogram, hfirst, hothers, hnumber]
        exact hpadded
      exact .onward ⟨h.scope, h.interpreter.define ⟨rfl, rfl, hbody⟩⟩

/-- A block does the same when its body does. -/
theorem block_padded (h : first.Padded renumber second) (passes : Nat) (kind : BlockKind)
    {number closerNumber : Nat} (header closer : Text) {program padded : Program}
    (hpadded : Program.Padded renumber (number + 1) program (renumber number + 1) padded)
    (hbody : LeadAlike renumber body inside) :
    Flow.Padded renumber
      (first.block passes kind number header closerNumber closer program.lines body)
      (second.block passes kind (renumber number) header (renumber closerNumber) closer
        padded.lines inside) := by
  cases kind with
  | conditional => exact conditional_padded h hbody (fun _ _ h ↦ .onward h) number header
  | whileLoop => exact while_loop_padded hbody number header passes _ _ h
  | forLoop => exact for_loop_padded h hbody passes number header closerNumber closer
  | method => exact define_padded h number header hpadded

end Blocks

/-- A padded program is run like the program without the lines that were put in. -/
theorem exec_padded {calls : Calls} (hcalls : calls.KeepPadding renumber) (passes : Nat)
    {number other : Nat} {program padded : Program}
    (hpadded : Program.Padded renumber number program other padded) :
    LeadAlike renumber (program.exec calls passes number) (padded.exec calls passes other) := by
  induction hpadded with
  | empty => exact fun _ _ h ↦ .onward h
  | @skip number other program padded text skipped _ ih =>
      -- The line that was put in changes nothing, and only the padded program moves on.
      intro first second h
      have hline : second.line calls other text = .onward second := by
        unfold World.line
        rw [skipped, if_neg LineKind.noConfusion]
      rw [Program.exec, hline]
      exact ih first second h
  | @line number other text plain rest others hnumber _ ih =>
      intro first second h
      subst hnumber
      exact (h.line hcalls number text).and_then ih
  | @block number other kind header closer opens closes body inside rest others hnumber hbody
      hcloser _ ihbody ihrest =>
      intro first second h
      subst hnumber
      rw [Program.exec, Program.exec, hcloser]
      exact (block_padded h passes kind header closer hbody ihbody).and_then (hcloser ▸ ihrest)
  | @branches number other header otherwise closer opens turns closes yes inside no outside rest
      others hnumber _ _ _ ihyes ihno ihrest =>
      intro first second h
      subst hnumber
      exact (conditional_padded h ihyes ihno number header).and_then ihrest

/-- The structured execution runs padded blocks alike, on the same fuel. -/
theorem run_structured_padded (fuel : Nat) : (runStructured fuel).KeepPadding renumber := by
  induction fuel with
  | zero => exact fun _ _ _ _ _ _ _ ↦ .none
  | succ fuel ih =>
      intro block padded scope first second hpadded h
      have hstart : World.Padded renumber ⟨scope, first⟩ ⟨scope, second⟩ := ⟨rfl, h⟩
      refine (exec_padded ih (fuel + 1) hpadded _ _ hstart).finish fun mine other hworld ↦ ?_
      exact .some ⟨rfl, hworld.scope, hworld.interpreter⟩

/-- The machine runs padded blocks alike: when one run ends, so does the other one. -/
theorem ends_padded {block padded : Block} {scope : Scope} {first second : Interpreter}
    (hpadded : block.Padded renumber padded) (h : first.Padded renumber second) :
    (∀ outcome, Ends block (.start scope first) outcome →
      ∃ other, Ends padded (.start scope second) other ∧ outcome.Padded renumber other) ∧
    ∀ other, Ends padded (.start scope second) other →
      ∃ outcome, Ends block (.start scope first) outcome ∧ outcome.Padded renumber other := by
  refine ⟨fun outcome ⟨fuel, hrun⟩ ↦ ?_, fun other ⟨fuel, hrun⟩ ↦ ?_⟩
  · have hstructured := structured_of_run hrun
    have hrelated := run_structured_padded fuel block padded scope first second hpadded h
    rw [hstructured] at hrelated
    generalize hother : runStructured fuel padded scope second = found at hrelated
    cases hrelated with
    | some houtcome => exact ⟨_, ends_of_structured hother, houtcome⟩
  · have hstructured := structured_of_run hrun
    have hrelated := run_structured_padded fuel block padded scope first second hpadded h
    rw [hstructured] at hrelated
    generalize houtcome : runStructured fuel block scope first = found at hrelated
    cases hrelated with
    | some hother => exact ⟨_, ends_of_structured houtcome, hother⟩

/-- Methods with padded bodies have the same names and parameters. -/
theorem NameMap.Related.signatures {methods others : NameMap Method}
    (h : methods.Related (Method.Padded renumber) others) :
    others.entries.map (fun entry ↦ (entry.1, entry.2.name, entry.2.parameters)) =
      methods.entries.map fun entry ↦ (entry.1, entry.2.name, entry.2.parameters) := by
  unfold NameMap.Related at h
  generalize methods.entries = mine, others.entries = twins at h ⊢
  induction h with
  | nil => rfl
  | cons hfirst _ ih =>
      rw [List.map_cons, List.map_cons, ih, hfirst.1, hfirst.2.name, hfirst.2.parameters]

/-- A run of a program that nests is a run of its block from its first line, with nothing defined. -/
theorem Interpreter.run_lines_iff {interpreter : Interpreter} {lines : List Text} {block : Block}
    (hblock : Block.ofLines lines.toArray 1 = .ok block) {outcome : Interpreter.RunOutcome} :
    (∃ fuel, interpreter.runLines fuel lines = some outcome) ↔
      ∃ last, Ends block (.start .empty (interpreter.reset.ready lines.length)) last ∧
        Interpreter.closing last = outcome :=
  @Interpreter.feeds_iff interpreter.reset lines block hblock outcome

/-- A program that nests and the same program with one more line that is skipped are a block and a
padded one. -/
theorem exists_padded_blocks {before after : List Text} {map : BlockMap} {text : Text}
    (hbuild : BlockMap.build (before ++ after) 1 = .ok map)
    (hskipped : Line.isSkipped text = true) :
    ∃ block padded, Block.ofLines (before ++ after).toArray 1 = .ok block ∧
      Block.ofLines (before ++ text :: after).toArray 1 = .ok padded ∧
      block.Padded (movedAfter before.length) padded := by
  obtain ⟨program, hprogram⟩ :=
    Program.exists_of_well_nested (BlockMap.build_ok_iff.mp ⟨map, hbuild⟩) rfl
  obtain ⟨longer, hlonger, hpadded⟩ := @Program.exists_padded before.length text
    (Line.kind_skipped_iff.mpr hskipped) program 1 before after hprogram (Nat.add_comm _ _)
  obtain ⟨block, hblock, hmine, hfirst⟩ := Block.exists_of_program program 1
  obtain ⟨padded, hother, hothers, hnumber⟩ := Block.exists_of_program longer 1
  refine ⟨block, padded, hprogram ▸ hblock, hlonger ▸ hother, ?_⟩
  unfold Block.Padded
  rw [hmine, hfirst, hothers, hnumber]
  exact hpadded

/-- A blank line or a comment that is put in at any place of a program, before a line, inside a block
or inside the body of a method, does nothing. The run of the program ends when the run with the line
ends, with the same result, variables and drawing and with methods of the same names and parameters.
The same errors are recorded in the same order, and only the numbers of the lines behind the one
that was put in are higher by one. -/
theorem blank_lines_and_comments_are_inert (interpreter : Interpreter) {before after : List Text}
    {map : BlockMap} {text : Text} (hbuild : BlockMap.build (before ++ after) 1 = .ok map)
    (hskipped : Line.isSkipped text = true) :
    ((∃ fuel outcome, interpreter.runLines fuel (before ++ after) = some outcome) ↔
      ∃ fuel outcome, interpreter.runLines fuel (before ++ text :: after) = some outcome) ∧
    ∀ fuel more outcome other, interpreter.runLines fuel (before ++ after) = some outcome →
      interpreter.runLines more (before ++ text :: after) = some other →
      other.result = outcome.result ∧
      other.interpreter.globals = outcome.interpreter.globals ∧
      other.interpreter.canvas = outcome.interpreter.canvas ∧
      other.interpreter.methods.methods.entries.map
          (fun entry ↦ (entry.1, entry.2.name, entry.2.parameters)) =
        outcome.interpreter.methods.methods.entries.map
          (fun entry ↦ (entry.1, entry.2.name, entry.2.parameters)) ∧
      other.interpreter.errors.toList = outcome.interpreter.errors.toList.map fun failure ↦
        { failure with
          line := if before.length < failure.line then failure.line + 1 else failure.line } := by
  obtain ⟨block, padded, hblock, hpadded, hbody⟩ := exists_padded_blocks hbuild hskipped
  have hstart : Interpreter.Padded (movedAfter before.length)
      (interpreter.reset.ready (before ++ after).length)
      (interpreter.reset.ready (before ++ text :: after).length) :=
    ⟨rfl, rfl, rfl, rfl, rfl, .nil, rfl⟩
  obtain ⟨hforth, hback⟩ := @ends_padded _ _ _ .empty _ _ hbody hstart
  refine ⟨⟨?_, ?_⟩, fun fuel more outcome other hrun hother ↦ ?_⟩
  · rintro ⟨fuel, outcome, hrun⟩
    obtain ⟨last, hlast, -⟩ := (Interpreter.run_lines_iff hblock).mp ⟨fuel, hrun⟩
    obtain ⟨final, hfinal, -⟩ := hforth last hlast
    obtain ⟨more, hmore⟩ := (Interpreter.run_lines_iff hpadded).mpr ⟨final, hfinal, rfl⟩
    exact ⟨more, _, hmore⟩
  · rintro ⟨fuel, outcome, hrun⟩
    obtain ⟨last, hlast, -⟩ := (Interpreter.run_lines_iff hpadded).mp ⟨fuel, hrun⟩
    obtain ⟨final, hfinal, -⟩ := hback last hlast
    obtain ⟨more, hmore⟩ := (Interpreter.run_lines_iff hblock).mpr ⟨final, hfinal, rfl⟩
    exact ⟨more, _, hmore⟩
  · obtain ⟨last, hlast, rfl⟩ := (Interpreter.run_lines_iff hblock).mp ⟨fuel, hrun⟩
    obtain ⟨final, hfinal, rfl⟩ := (Interpreter.run_lines_iff hpadded).mp ⟨more, hother⟩
    obtain ⟨twin, htwin, halike⟩ := hforth last hlast
    obtain rfl := hfinal.unique htwin
    exact ⟨halike.result, halike.scope, halike.interpreter.canvas,
      halike.interpreter.methods.signatures, halike.interpreter.errors⟩

/-- A comment between the header of a method and its body moves the error in the body. -/
theorem blank_lines_and_comments_are_inert_in_method :
    let before := ["clear".toList, "method m".toList]
    let after := ["jump".toList, "endmethod".toList, "call m".toList]
    ∃ outcome other,
      (Interpreter.new {} .standard).runLines 8 (before ++ after) = some outcome ∧
      (Interpreter.new {} .standard).runLines 8 (before ++ " # note".toList :: after) =
        some other ∧
      outcome.interpreter.errors.toList.map LineError.line = [3] ∧
      other.interpreter.errors.toList.map LineError.line = [4] ∧
      other.result = outcome.result ∧
      other.interpreter.canvas = outcome.interpreter.canvas := by
  intro before after
  obtain ⟨outcome, other, hrun, hother, hlines⟩ : ∃ outcome other,
      (Interpreter.new {} .standard).runLines 8 ["clear".toList, "method m".toList, "jump".toList,
        "endmethod".toList, "call m".toList] = some outcome ∧
      (Interpreter.new {} .standard).runLines 8 ["clear".toList, "method m".toList,
        " # note".toList, "jump".toList, "endmethod".toList, "call m".toList] = some other ∧
      outcome.interpreter.errors.toList.map LineError.line = [3] := ⟨_, _, rfl, rfl, rfl⟩
  obtain ⟨map, hbuild⟩ : ∃ map, BlockMap.build (before ++ after) 1 = .ok map := ⟨_, rfl⟩
  obtain ⟨-, hinert⟩ := @blank_lines_and_comments_are_inert (.new {} .standard) before after map
    " # note".toList hbuild (by decide)
  obtain ⟨hresult, -, hcanvas, -, herrors⟩ := hinert 8 8 outcome other hrun hother
  refine ⟨outcome, other, hrun, hother, hlines, ?_, hresult, hcanvas⟩
  have hmoved : other.interpreter.errors.toList.map LineError.line =
      (outcome.interpreter.errors.toList.map LineError.line).map fun line ↦
        if before.length < line then line + 1 else line := by
    rw [herrors, List.map_map, List.map_map]
    rfl
  rw [hmoved, hlines]
  rfl

end PenScript
