import PenScript.Proofs.Machine.Call
import PenScript.Proofs.Machine.Feeding
import PenScript.Proofs.Machine.Runs
import PenScript.Proofs.Program.Spelling

/-!
# Indentation and the letter case of keywords do not matter

Two spellings of a program are run in lockstep. The two machines are always at the same line, under
the same frames and with the same variables; they differ in the bodies of the methods that have been
defined, which are again two spellings of the same lines, and in the letter case of the texts that
were recorded with errors (`Interpreter.Respelled`). A line of such machines is decided alike
(`State.Respelled.decide`), since all that is asked of a line is its kind, what follows its keyword,
and its statement. So one step keeps the relation (`State.Respelled.execute`), and `run_respelled`
carries it through a run and the calls in it.
-/

namespace PenScript

/-- Two computations fail with the same error or end with values that are alike. -/
inductive Except.Related {ε α β : Type} (near : α → β → Prop) : Except ε α → Except ε β → Prop where
  | error (error : ε) : Related near (.error error) (.error error)
  | ok {value : α} {twin : β} : near value twin → Related near (.ok value) (.ok twin)

section Respelled

variable (registry : Registry)

/-- The lines of the second block are spellings of the lines of the first one. -/
structure Block.Respelled (block other : Block) : Prop where
  lines : List.Forall₂ (Line.Respelled registry) block.lines.toList other.lines.toList
  first_line : other.firstLine = block.firstLine

/-- The second method is the first one with another spelling of its body. -/
structure Method.Respelled (method other : Method) : Prop where
  name : other.name = method.name
  parameters : other.parameters = method.parameters
  body : method.block.Respelled registry other.block

/-- The same error on the same line, whose recorded text may be in another letter case. -/
structure LineError.Respelled (failure other : LineError) : Prop where
  line : other.line = failure.line
  error : other.error = failure.error
  text : Text.toLower other.text = Text.toLower failure.text

/-- The two interpreters know the commands of the registry and differ in spellings only: in the
bodies of their methods and in the texts of the errors. -/
structure Interpreter.Respelled (first second : Interpreter) : Prop where
  canvas : second.canvas = first.canvas
  commands : first.registry = registry
  same_commands : second.registry = first.registry
  options : second.options = first.options
  call_depth : second.callDepth = first.callDepth
  halted : second.halted = first.halted
  methods : first.methods.methods.Related (Method.Respelled registry) second.methods.methods
  errors : List.Forall₂ LineError.Respelled first.errors.toList second.errors.toList

/-- The two machines are at the same place with the same variables, and their interpreters differ in
spellings only. -/
structure State.Respelled (first second : State) : Prop where
  cursor : second.cursor = first.cursor
  frames : second.frames = first.frames
  scope : second.scope = first.scope
  interpreter : first.interpreter.Respelled registry second.interpreter

/-- The two runs end alike, with interpreters that differ in spellings only. -/
structure Outcome.Respelled (first second : Outcome) : Prop where
  result : second.result = first.result
  scope : second.scope = first.scope
  interpreter : first.interpreter.Respelled registry second.interpreter

/-- The two decisions are the same but for the spelling of the method that is defined or called. -/
inductive Decision.Respelled : Decision → Decision → Prop where
  | same (target : Nat) (frames : List Frame) (change : Change) :
      Respelled (.move target frames change) (.move target frames change)
  | define (target : Nat) (frames : List Frame) {method other : Method}
      (hmethod : method.Respelled registry other) :
      Respelled (.move target frames (.define method)) (.move target frames (.define other))
  | call (locals : Scope) {method other : Method} (hmethod : method.Respelled registry other) :
      Respelled (.call ⟨method, locals⟩) (.call ⟨other, locals⟩)

/-- Two pieces of a run lead to machines or ends that differ in spellings only. -/
abbrev Flow.Respelled : Flow State → Flow State → Prop :=
  Flow.Related (State.Respelled registry) (Outcome.Respelled registry)

/-- Calls run two spellings of a body alike. -/
def Calls.KeepSpelling (calls : Calls) : Prop :=
  ∀ block other scope first second, Block.Respelled registry block other →
    Interpreter.Respelled registry first second →
    Option.Rel (Outcome.Respelled registry) (calls block scope first) (calls other scope second)

end Respelled

variable {registry : Registry}

section Blocks

variable {lines others : List Text} {block other : Block}

/-- Two spellings of some lines are of the same kinds. -/
theorem kinds_respelled (h : List.Forall₂ (Line.Respelled registry) lines others) :
    others.map Line.kind = lines.map Line.kind := by
  induction h with
  | nil => rfl
  | cons hline _ ih => rw [List.map_cons, List.map_cons, hline.kind, ih]

/-- Blocks are matched by the kinds of the lines, so two spellings of some lines have one map. -/
theorem build_respelled (h : List.Forall₂ (Line.Respelled registry) lines others)
    (firstLine : Nat) : BlockMap.build others firstLine = BlockMap.build lines firstLine := by
  unfold BlockMap.build
  rw [kinds_respelled h, h.length_eq]

/-- Two spellings of some lines are two spellings of a block, or no block for the same reason. -/
theorem of_lines_respelled (h : List.Forall₂ (Line.Respelled registry) lines others)
    (firstLine : Nat) :
    Except.Related (Block.Respelled registry) (Block.ofLines lines.toArray firstLine)
      (Block.ofLines others.toArray firstLine) := by
  cases hbuild : BlockMap.build lines firstLine with
  | error cause =>
      rw [@Block.of_lines_error lines.toArray _ _ hbuild,
        @Block.of_lines_error others.toArray _ _ ((build_respelled h firstLine).trans hbuild)]
      exact .error cause
  | ok map =>
      obtain ⟨block, hblock, hlines, hfirst⟩ := @Block.of_lines_ok lines.toArray _ _ hbuild
      obtain ⟨other, hother, hothers, hnumber⟩ :=
        @Block.of_lines_ok others.toArray _ _ ((build_respelled h firstLine).trans hbuild)
      rw [hblock, hother]
      refine .ok ⟨?_, hnumber.trans hfirst.symm⟩
      rw [hlines, hothers]
      exact h

/-- A method is defined with two spellings of its body. -/
theorem define_respelled (h : List.Forall₂ (Line.Respelled registry) lines others) (header : Text)
    (firstLine : Nat) :
    Except.Related (Method.Respelled registry) (Method.define header lines.toArray firstLine)
      (Method.define header others.toArray firstLine) := by
  unfold Method.define
  cases Method.signature header with
  | error problem => exact .error _
  | ok signature =>
      have hblocks := of_lines_respelled h firstLine
      simp only [bind, Except.bind, Except.mapError]
      generalize Block.ofLines lines.toArray firstLine = mine,
        Block.ofLines others.toArray firstLine = twin at hblocks
      cases hblocks with
      | error cause => exact .error _
      | ok hbody => exact .ok ⟨rfl, rfl, hbody⟩

/-- Every block is a spelling of itself. -/
theorem Block.Respelled.refl (block : Block) : block.Respelled registry block :=
  ⟨List.forall₂_same.mpr fun line _ ↦ .refl line, rfl⟩

/-- Every method is a spelling of itself. -/
theorem Method.Respelled.refl (method : Method) : method.Respelled registry method :=
  ⟨rfl, rfl, .refl method.block⟩

namespace Block.Respelled

/-- Two spellings of a block have one map. -/
theorem map (h : block.Respelled registry other) : other.map = block.map := by
  have hbuild := build_respelled h.lines block.firstLine
  rw [block.nested, ← h.first_line, other.nested] at hbuild
  exact Except.ok.inj hbuild

/-- Two spellings of a block have the same numbers of lines. -/
theorem line_number (h : block.Respelled registry other) (index : Nat) :
    other.lineNumber index = block.lineNumber index := by
  unfold Block.lineNumber
  rw [h.first_line]

/-- Two spellings of a block have the same closers. -/
theorem closer (h : block.Respelled registry other) (index : Nat) :
    other.closer index = block.closer index := by
  unfold Block.closer
  rw [h.map, h.line_number]

/-- Two spellings of a block have two spellings of each line. -/
theorem line (h : block.Respelled registry other) (index : Nat) :
    Option.Rel (Line.Respelled registry) block.lines[index]? other.lines[index]? := by
  have hlines := h.lines
  rw [← Array.getElem?_toList, ← Array.getElem?_toList]
  generalize block.lines.toList = lines, other.lines.toList = others at hlines
  induction hlines generalizing index with
  | nil => exact .none
  | cons hline _ ih =>
      cases index with
      | zero => exact .some hline
      | succ index => exact ih index

/-- Two spellings of a block have two spellings of each piece. -/
theorem extract (h : block.Respelled registry other) (start stop : Nat) :
    List.Forall₂ (Line.Respelled registry) (block.lines.extract start stop).toList
      (other.lines.extract start stop).toList := by
  rw [Array.toList_extract, Array.toList_extract, List.extract_eq_take_drop,
    List.extract_eq_take_drop]
  exact List.forall₂_take _ (List.forall₂_drop _ h.lines)

end Block.Respelled

end Blocks

namespace Interpreter.Respelled

variable {first second : Interpreter}

/-- An action is drawn on both canvases. -/
theorem draw (h : first.Respelled registry second) (action : Canvas.Action) :
    (first.draw action).Respelled registry (second.draw action) :=
  { h with canvas := congrArg (·.perform action) h.canvas }

/-- An error is recorded with the two spellings of its line. -/
theorem record (h : first.Respelled registry second) {failure other : LineError}
    (hfailure : failure.Respelled other) :
    (first.record failure).Respelled registry (second.record other) := by
  refine { h with errors := ?_ }
  show List.Forall₂ _ (first.errors.push failure).toList (second.errors.push other).toList
  rw [Array.toList_push, Array.toList_push]
  exact List.rel_append h.errors (.cons hfailure .nil)

/-- Both runs are marked as ended. -/
theorem halt (h : first.Respelled registry second) : first.halt.Respelled registry second.halt :=
  { h with halted := rfl }

/-- A method body is entered in both runs. -/
theorem enter (h : first.Respelled registry second) :
    first.enter.Respelled registry second.enter :=
  { h with call_depth := congrArg (· + 1) h.call_depth }

/-- A method body is left in both runs. -/
theorem leave (h : first.Respelled registry second) :
    first.leave.Respelled registry second.leave :=
  { h with call_depth := congrArg (· - 1) h.call_depth }

/-- A method is defined with two spellings of its body. -/
theorem define (h : first.Respelled registry second) {method other : Method}
    (hmethod : method.Respelled registry other) :
    (first.define method).Respelled registry (second.define other) := by
  refine { h with methods := ?_ }
  show (first.methods.methods.insert _ method).Related _ (second.methods.methods.insert _ other)
  rw [hmethod.name]
  exact h.methods.insert _ hmethod

end Interpreter.Respelled

section Steps

variable {first second : State} {block otherBlock : Block} {line other : Text}

namespace State.Respelled

/-- A statement draws, binds or calls the same, on the line after which both machines are. -/
theorem decide_statement (h : first.Respelled registry second)
    (hline : Line.Respelled registry line other) (hkind : Line.kind line = .statement) :
    Except.Related (Decision.Respelled registry) (first.decideStatement line)
      (second.decideStatement other) := by
  unfold State.decideStatement
  rw [h.interpreter.same_commands, h.interpreter.commands, h.scope, h.cursor, h.frames,
    hline.statement hkind]
  cases registry.statement first.scope line with
  | error error => exact .error error
  | ok effect =>
      cases effect with
      | draw action => exact .ok (.same _ _ _)
      | bind name value => exact .ok (.same _ _ _)
      | call name arguments =>
          simp only [bind, Except.bind]
          rcases Interpreter.prepare_related h.interpreter.methods
              (fun _ _ hbody ↦ ⟨hbody.name, hbody.parameters⟩) h.interpreter.call_depth
              h.interpreter.options name arguments first.scope with
            ⟨error, hfirst, hsecond⟩ | ⟨method, twin, locals, hfirst, hsecond, hmethod⟩
          · rw [hfirst, hsecond]
            exact .error error
          · rw [hfirst, hsecond]
            exact .ok (.call locals hmethod)

/-- The header of a method defines it with two spellings of its body. -/
theorem decide_method (h : first.Respelled registry second)
    (hblock : block.Respelled registry otherBlock) (header : Text) :
    Except.Related (Decision.Respelled registry) (first.decideMethod block header)
      (second.decideMethod otherBlock header) := by
  unfold State.decideMethod
  rw [h.cursor, h.frames, hblock.closer, hblock.line_number]
  cases block.closer first.cursor with
  | error error => exact .error error
  | ok closer =>
      have hmethods := define_respelled (hblock.extract (first.cursor + 1) closer) header
        (block.lineNumber (first.cursor + 1))
      simp only [Array.toArray_toList] at hmethods
      simp only [bind, Except.bind]
      generalize Method.define header (block.lines.extract (first.cursor + 1) closer)
          (block.lineNumber (first.cursor + 1)) = mine,
        Method.define header (otherBlock.lines.extract (first.cursor + 1) closer)
          (block.lineNumber (first.cursor + 1)) = twin at hmethods
      cases hmethods with
      | error error => exact .error error
      | ok hmethod => exact .ok (.define _ _ hmethod)

/-- The lines of the block structure that define no method are decided by the place of the machine
and its variables. -/
theorem decide_eq (h : first.Respelled registry second)
    (hblock : block.Respelled registry otherBlock) (hline : Line.Respelled registry line other)
    (hstatement : Line.kind line ≠ .statement) (hmethod : Line.kind line ≠ .opener .method) :
    second.decide otherBlock other = first.decide block line := by
  have hcloser := hblock.closer
  have hnumber := hblock.line_number
  have hmap := hblock.map
  obtain ⟨cursor, frames, scope, interpreter⟩ := first
  obtain ⟨_, _, _, twin⟩ := second
  obtain ⟨rfl, rfl, rfl, -⟩ := h
  unfold State.decide
  rw [hline.kind, hline.rest]
  cases hkind : Line.kind line with
  | skipped => rfl
  | statement => exact absurd hkind hstatement
  | otherwise => simp only [State.decideElse, State.next, hnumber]
  | closer kind => simp only [State.decideCloser, State.decideEndFor, State.next, hnumber]
  | opener kind =>
      cases kind with
      | conditional => simp only [State.decideConditional, hcloser, hmap]
      | whileLoop =>
          simp only [State.decideWhile, hcloser]
          rfl
      | forLoop => simp only [State.decideFor, hcloser]
      | method => exact absurd hkind hmethod

/-- Two spellings of a line are decided alike. -/
theorem decide (h : first.Respelled registry second)
    (hblock : block.Respelled registry otherBlock) (hline : Line.Respelled registry line other) :
    Except.Related (Decision.Respelled registry) (first.decide block line)
      (second.decide otherBlock other) := by
  -- Only these two kinds of lines look at more than the place of the machine and its variables.
  by_cases hstatement : Line.kind line = .statement
  · have hdecided := h.decide_statement hline hstatement
    unfold State.decide
    rw [hline.kind, hstatement]
    exact hdecided
  · by_cases hmethod : Line.kind line = .opener .method
    · have hdecided := h.decide_method hblock (Line.splitWord line).2
      unfold State.decide
      rw [hline.kind, hline.rest, hmethod]
      exact hdecided
    · rw [h.decide_eq hblock hline hstatement hmethod]
      cases hdecide : first.decide block line with
      | error error => exact .error error
      | ok decision =>
          cases decide_is_move hstatement hmethod hdecide with
          | nothing target frames => exact .ok (.same _ _ _)
          | bind target frames name value => exact .ok (.same _ _ _)

/-- The line of a failure is left in the same way. -/
theorem recover (h : first.Respelled registry second)
    (hblock : block.Respelled registry otherBlock) (hline : Line.Respelled registry line other) :
    (first.recover block line).Respelled registry (second.recover otherBlock other) := by
  have hmap := hblock.map
  obtain ⟨cursor, frames, scope, interpreter⟩ := first
  obtain ⟨_, _, _, twin⟩ := second
  obtain ⟨rfl, rfl, rfl, hinterpreter⟩ := h
  unfold State.recover
  rw [hline.kind, hmap]
  cases Line.kind line <;> exact ⟨rfl, rfl, rfl, hinterpreter⟩

/-- A failure is dealt with alike. -/
theorem failed (h : first.Respelled registry second)
    (hblock : block.Respelled registry otherBlock) (hline : Line.Respelled registry line other)
    (error : Error) :
    Flow.Respelled registry (first.failed block line error)
      (second.failed otherBlock other error) := by
  have hfailure : LineError.Respelled ⟨block.lineNumber first.cursor, Text.trim line, error⟩
      ⟨otherBlock.lineNumber second.cursor, Text.trim other, error⟩ :=
    ⟨by rw [h.cursor, hblock.line_number], rfl, hline.same_case⟩
  have hnoted : State.Respelled registry (first.noted block line error)
      (second.noted otherBlock other error) :=
    ⟨h.cursor, h.frames, h.scope, h.interpreter.record hfailure⟩
  have hhalted := h.interpreter.halted
  have hmode : second.interpreter.options.strict = first.interpreter.options.strict :=
    congrArg Options.strict h.interpreter.options
  rcases failed_cases first block line error with
    ⟨hstop, hflow⟩ | ⟨⟨hharmless, hrunning⟩, ⟨hstrict, hflow⟩ | ⟨hlenient, hflow⟩⟩
  · rw [hflow, failed_of_stop (hstop.imp_right hhalted.trans)]
    exact .ended ⟨rfl, h.scope, h.interpreter⟩
  · rw [hflow, failed_of_strict hharmless (hhalted.trans hrunning) (hmode.trans hstrict)]
    exact .ended ⟨rfl, h.scope, hnoted.interpreter.halt⟩
  · rw [hflow, failed_of_lenient hharmless (hhalted.trans hrunning) (hmode.trans hlenient)]
    exact .onward (hnoted.recover hblock hline)

/-- The machine goes on alike after the call of a method in two spellings. -/
theorem returned (h : first.Respelled registry second)
    (hblock : block.Respelled registry otherBlock) (hline : Line.Respelled registry line other)
    {method twin : Method} (hmethod : method.Respelled registry twin) {callee last : Outcome}
    (hcallee : callee.Respelled registry last) :
    Flow.Respelled registry (first.returned block line method callee)
      (second.returned otherBlock other twin last) := by
  have hleft := hcallee.interpreter.leave
  unfold State.returned
  rw [hcallee.result]
  cases callee.result with
  | ok finished =>
      refine .onward ⟨congrArg (· + 1) h.cursor, h.frames, ?_, hleft⟩
      simp only [State.resume, Method.result]
      rw [h.scope, hmethod.name, hcallee.scope]
  | error error =>
      have hafter : State.Respelled registry
          { first with interpreter := callee.interpreter.leave }
          { second with interpreter := last.interpreter.leave } :=
        ⟨h.cursor, h.frames, h.scope, hleft⟩
      exact hafter.failed hblock hline error

/-- A line is carried out alike, with the calls that it makes. -/
theorem execute {calls : Calls} (hcalls : calls.KeepSpelling registry)
    (h : first.Respelled registry second) (hblock : block.Respelled registry otherBlock)
    (hline : Line.Respelled registry line other) :
    Flow.Respelled registry (first.execute calls block line)
      (second.execute calls otherBlock other) := by
  have hdecided := h.decide hblock hline
  unfold State.execute
  generalize first.decide block line = mine, second.decide otherBlock other = twin at hdecided
  cases hdecided with
  | error error => exact h.failed hblock hline error
  | ok hdecision =>
      cases hdecision with
      | same target frames change =>
          refine .onward ?_
          cases change with
          | nothing => exact ⟨rfl, rfl, h.scope, h.interpreter⟩
          | draw action => exact ⟨rfl, rfl, h.scope, h.interpreter.draw action⟩
          | bind name value =>
              exact ⟨rfl, rfl, congrArg (·.insert name value) h.scope, h.interpreter⟩
          | define method => exact ⟨rfl, rfl, h.scope, h.interpreter.define (.refl method)⟩
      | define target frames hmethod =>
          exact .onward ⟨rfl, rfl, h.scope, h.interpreter.define hmethod⟩
      | @call locals method twin hmethod =>
          have hcallee := hcalls method.block twin.block locals _ _ hmethod.body
            h.interpreter.enter
          simp only [State.carryOut]
          generalize calls method.block locals first.interpreter.enter = callee,
            calls twin.block locals second.interpreter.enter = last at hcallee ⊢
          cases hcallee with
          | none => exact .unfinished
          | some hcallee => exact h.returned hblock hline hmethod hcallee

end State.Respelled

end Steps

/-- The runs of two spellings of a block go step for step alike. They both end or both go on
forever. -/
theorem run_respelled {block other : Block} {first second : State} (fuel : Nat)
    (hblock : block.Respelled registry other) (h : first.Respelled registry second) :
    Option.Rel (Outcome.Respelled registry) (run fuel block first) (run fuel other second) := by
  induction fuel generalizing block other first second with
  | zero => exact .none
  | succ fuel ih =>
      -- A method that is called is run on less fuel, from the first line of two spellings.
      have hcalls : (runCalls fuel).KeepSpelling registry :=
        fun callee twin scope mine others hbody hinterpreter ↦
          ih hbody ⟨rfl, rfl, rfl, hinterpreter⟩
      have hlines := hblock.line first.cursor
      generalize hmine : block.lines[first.cursor]? = line,
        hothers : other.lines[first.cursor]? = twin at hlines
      rw [← h.cursor] at hothers
      cases hlines with
      | none =>
          rw [run_past hmine, run_past hothers]
          exact .some ⟨rfl, h.scope, h.interpreter⟩
      | some hline =>
          rw [run_succ hmine, run_succ hothers]
          exact (h.execute hcalls hblock hline).finish fun _ _ hnext ↦ ih hblock hnext

/-- Methods in two spellings have the same names, parameters and first lines. -/
theorem NameMap.Related.headers {methods others : NameMap Method}
    (h : methods.Related (Method.Respelled registry) others) :
    others.entries.map (fun entry ↦
        (entry.1, entry.2.name, entry.2.parameters, entry.2.block.firstLine)) =
      methods.entries.map fun entry ↦
        (entry.1, entry.2.name, entry.2.parameters, entry.2.block.firstLine) := by
  unfold NameMap.Related at h
  generalize methods.entries = mine, others.entries = twins at h ⊢
  induction h with
  | nil => rfl
  | cons hfirst _ ih =>
      rw [List.map_cons, List.map_cons, ih, hfirst.1, hfirst.2.name, hfirst.2.parameters,
        hfirst.2.body.first_line]

/-- Indentation and the letter case of keywords do not matter. When the blanks around any lines of a
program are changed, and the letter case of keywords at the start of lines, then for any options
both programs run forever or both end. They end with the same result, variables and drawing, and
with methods of the same names, parameters and first lines. The same errors are recorded for the
same lines in the same order, and the texts of these lines differ in letter case only. -/
theorem spelling_does_not_matter (interpreter : Interpreter) {lines others : List Text}
    (h : List.Forall₂ (Line.Respelled interpreter.registry) lines others) (fuel : Nat) :
    Option.Rel
      (fun mine other : Interpreter.RunOutcome ↦
        other.result = mine.result ∧
        other.interpreter.globals = mine.interpreter.globals ∧
        other.interpreter.canvas = mine.interpreter.canvas ∧
        other.interpreter.methods.methods.entries.map (fun entry ↦
            (entry.1, entry.2.name, entry.2.parameters, entry.2.block.firstLine)) =
          mine.interpreter.methods.methods.entries.map (fun entry ↦
            (entry.1, entry.2.name, entry.2.parameters, entry.2.block.firstLine)) ∧
        List.Forall₂ LineError.Respelled mine.interpreter.errors.toList
          other.interpreter.errors.toList)
      (interpreter.runLines fuel lines) (interpreter.runLines fuel others) := by
  unfold Interpreter.runLines
  cases hbuild : BlockMap.build lines 1 with
  | error cause =>
      rw [Interpreter.feed_rejected hbuild,
        Interpreter.feed_rejected ((build_respelled h 1).trans hbuild)]
      exact .some ⟨rfl, rfl, rfl, rfl, .nil⟩
  | ok map =>
      obtain ⟨block, hblock, -, -⟩ := @Block.of_lines_ok lines.toArray _ _ hbuild
      obtain ⟨other, hother, -, -⟩ :=
        @Block.of_lines_ok others.toArray _ _ ((build_respelled h 1).trans hbuild)
      have hblocks := of_lines_respelled h 1
      rw [hblock, hother] at hblocks
      cases hblocks with
      | ok hbody =>
          have hstart : State.Respelled interpreter.registry
              (.start interpreter.reset.globals (interpreter.reset.ready lines.length))
              (.start interpreter.reset.globals (interpreter.reset.ready others.length)) :=
            ⟨rfl, rfl, rfl, ⟨rfl, rfl, rfl, rfl, rfl, rfl, .nil, .nil⟩⟩
          have hruns := run_respelled fuel hbody hstart
          rw [Interpreter.feed_accepted hblock, Interpreter.feed_accepted hother]
          generalize run fuel block
              (.start interpreter.reset.globals (interpreter.reset.ready lines.length)) = mine,
            run fuel other
              (.start interpreter.reset.globals (interpreter.reset.ready others.length)) = last
            at hruns ⊢
          cases hruns with
          | none => exact .none
          | some hlast =>
              exact .some ⟨hlast.result, hlast.scope, hlast.interpreter.canvas,
                hlast.interpreter.methods.headers, hlast.interpreter.errors⟩

/-- A method that is written in capitals, without its indentation and with a closer of two words, is
called and fails in the same way, and so does a command after it. -/
theorem spelling_does_not_matter_in_method :
    let lines := ["method m a".toList, "  moveto a a".toList, "  jump".toList, "end method".toList,
      "call m 3".toList, "circle".toList]
    let others := ["METHOD m a".toList, "MoveTo a a".toList, "jump ".toList, "END method".toList,
      " Call m 3".toList, "CIRCLE".toList]
    ∃ outcome other,
      (Interpreter.new {} .standard).runLines 16 lines = some outcome ∧
      (Interpreter.new {} .standard).runLines 16 others = some other ∧
      outcome.interpreter.errors.toList.map (fun failure ↦ (failure.line, failure.text)) =
        [(3, "jump".toList), (6, "circle".toList)] ∧
      other.interpreter.errors.toList.map (fun failure ↦ (failure.line, failure.text)) =
        [(3, "jump".toList), (6, "CIRCLE".toList)] ∧
      other.result = outcome.result ∧
      other.interpreter.globals = outcome.interpreter.globals ∧
      other.interpreter.canvas = outcome.interpreter.canvas := by
  intro lines others
  have hspellings : List.Forall₂ (Line.Respelled (Interpreter.new {} .standard).registry) lines
      others := by
    decide +kernel
  have hmine : ((Interpreter.new {} .standard).runLines 16 lines).map (fun outcome ↦
      outcome.interpreter.errors.toList.map fun failure ↦ (failure.line, failure.text)) =
        some [(3, "jump".toList), (6, "circle".toList)] := by decide +kernel
  have htwin : ((Interpreter.new {} .standard).runLines 16 others).map (fun outcome ↦
      outcome.interpreter.errors.toList.map fun failure ↦ (failure.line, failure.text)) =
        some [(3, "jump".toList), (6, "CIRCLE".toList)] := by decide +kernel
  obtain ⟨outcome, houtcome, herrors⟩ := Option.map_eq_some_iff.mp hmine
  obtain ⟨other, hother, hothers⟩ := Option.map_eq_some_iff.mp htwin
  have hsame := spelling_does_not_matter (.new {} .standard) hspellings 16
  rw [houtcome, hother] at hsame
  cases hsame with
  | some hsame =>
      obtain ⟨hresult, hglobals, hcanvas, -⟩ := hsame
      exact ⟨outcome, other, houtcome, hother, herrors, hothers, hresult, hglobals, hcanvas⟩

end PenScript
