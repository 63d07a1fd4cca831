import PenScript.Proofs.Machine.Drawing
import PenScript.Proofs.Machine.Failure

/-!
# Strict runs

A strict run does what the run does that is not strict, up to the first error, and there it ends.
The two runs take the same steps as long as no line fails, because no decision looks at the mode.
The first line that fails is recorded in both, and halts the strict one: its error goes out through
every method that is being run and through the lines that called them, and none of these records it
again. `StrictRun` says what becomes of a strict run in terms of the errors and the operations that
the other run adds, and `Runs.strict` proves it rule by rule.
-/

namespace PenScript

/-- The machine in strict mode or out of it. -/
def State.setStrict (state : State) (strict : Bool) : State :=
  { state with interpreter := state.interpreter.setStrict strict }

/-- The end of a run in strict mode or out of it. -/
def Outcome.setStrict (outcome : Outcome) (strict : Bool) : Outcome :=
  { outcome with interpreter := outcome.interpreter.setStrict strict }

/-- The last interpreter has the errors and the operations of the first, and then some more. -/
structure Interpreter.Adds (first last : Interpreter) (failures : List LineError)
    (drawn : List Canvas.Operation) : Prop where
  errors : last.errors.toList = first.errors.toList ++ failures
  operations : last.canvas.operations.toList = first.canvas.operations.toList ++ drawn

namespace Interpreter.Adds

/-- What has the same errors and the same canvas adds nothing. -/
theorem nothing {first last : Interpreter} (herrors : last.errors = first.errors)
    (hcanvas : last.canvas = first.canvas) : first.Adds last [] [] := by
  constructor
  · rw [herrors, List.append_nil]
  · rw [hcanvas, List.append_nil]

/-- What is added in two parts is added in order. -/
theorem trans {first middle last : Interpreter} {failures more : List LineError}
    {drawn others : List Canvas.Operation} (h : first.Adds middle failures drawn)
    (hlast : middle.Adds last more others) :
    first.Adds last (failures ++ more) (drawn ++ others) := by
  constructor
  · rw [hlast.errors, h.errors, List.append_assoc]
  · rw [hlast.operations, h.operations, List.append_assoc]

/-- An error that is recorded is added. -/
theorem record (interpreter : Interpreter) (failure : LineError) :
    interpreter.Adds (interpreter.record failure) [failure] [] := by
  constructor
  · exact Array.toList_push
  · exact (List.append_nil _).symm

end Interpreter.Adds

/-- A change adds no error. -/
theorem apply_adds (state : State) (target : Nat) (frames : List Frame) (change : Change) :
    ∃ drawn, state.interpreter.Adds (state.apply target frames change).interpreter [] drawn := by
  cases change with
  | nothing => exact ⟨[], .nothing rfl rfl⟩
  | draw action =>
      refine ⟨[state.interpreter.canvas.record action], ?_, ?_⟩
      · exact (List.append_nil _).symm
      · show (state.interpreter.canvas.perform action).operations.toList = _
        rw [Canvas.operations_perform, Array.toList_push]
  | bind name value => exact ⟨[], .nothing rfl rfl⟩
  | define method => exact ⟨[], .nothing rfl rfl⟩

/-- What becomes of a strict run, when the run that is not strict ends with the outcome and adds the
errors and the operations. Without errors the two end alike. Otherwise the strict run ends with the
first of the errors, which is the only one that it adds, and it adds some of the operations, from
the first one on. -/
def StrictRun (block : Block) (state : State) (outcome : Outcome) (failures : List LineError)
    (drawn : List Canvas.Operation) : Prop :=
  match failures with
  | [] => Runs block (state.setStrict true) (outcome.setStrict true)
  | failure :: _ => ∃ cut before, Runs block (state.setStrict true) cut ∧
      cut.result = .error failure.error ∧ cut.interpreter.halted = true ∧
      state.interpreter.Adds cut.interpreter [failure] before ∧ before <+: drawn

section Steps

variable {block : Block} {state : State} {line : Text} {error : Error}

/-- A strict run that takes a step without an error goes on as the strict run after it. -/
theorem StrictRun.after {next : State} {outcome : Outcome} {failures : List LineError}
    {first drawn : List Canvas.Operation}
    (h : StrictRun block next outcome failures drawn)
    (hadds : state.interpreter.Adds next.interpreter [] first)
    (hstep : ∀ last, Runs block (next.setStrict true) last →
      Runs block (state.setStrict true) last) :
    StrictRun block state outcome failures (first ++ drawn) := by
  cases failures with
  | nil => exact hstep _ h
  | cons failure rest =>
      obtain ⟨cut, before, hruns, hresult, hhalted, hcut, hbefore⟩ := h
      refine ⟨cut, first ++ before, hstep _ hruns, hresult, hhalted, hadds.trans hcut, ?_⟩
      exact List.prefix_append_right_inj first |>.mpr hbefore

/-- A strict run ends at a call when the method that is called is cut, and the error of the method
is not recorded again. -/
theorem StrictRun.of_callee {call : Interpreter.Call} {callee outcome : Outcome}
    {failure : LineError} {rest more : List LineError} {first drawn : List Canvas.Operation}
    (hline : block.lines[state.cursor]? = some line)
    (hdecide : state.decide block line = .ok (.call call))
    (h : StrictRun call.method.block (.start call.locals state.interpreter.enter) callee
      (failure :: rest) first) :
    StrictRun block state outcome (failure :: more) (first ++ drawn) := by
  obtain ⟨cut, before, hruns, hresult, hhalted, hcut, hbefore⟩ := h
  exact ⟨_, before, .stopCall hline hdecide hruns hresult (failed_of_halted hhalted), rfl,
    hhalted, ⟨hcut.errors, hcut.operations⟩, hbefore.trans (List.prefix_append first drawn)⟩

/-- A strict run ends at the first line that fails. -/
theorem StrictRun.of_failed {next : State} {outcome : Outcome} {rest : List LineError}
    {drawn : List Canvas.Operation} (hlenient : state.interpreter.Lenient)
    (hline : block.lines[state.cursor]? = some line)
    (hdecide : state.decide block line = .error error)
    (hfailed : state.failed block line error = .onward next) :
    StrictRun block state outcome
      (⟨block.lineNumber state.cursor, Text.trim line, error⟩ :: rest) drawn := by
  obtain ⟨hharmless, -, -⟩ := recovered_of_failed hfailed
  have hcut := @failed_of_strict (state.setStrict true) block line error hharmless
    hlenient.not_halted rfl
  obtain ⟨herrors, hoperations⟩ := Interpreter.Adds.record state.interpreter
    ⟨block.lineNumber state.cursor, Text.trim line, error⟩
  exact ⟨_, [], .stop hline hdecide hcut, rfl, rfl, ⟨herrors, hoperations⟩, List.nil_prefix⟩

end Steps

section Lenient

variable {block : Block} {state : State} {line : Text}

/-- A change does not touch the mode. -/
theorem Interpreter.Lenient.apply (h : state.interpreter.Lenient) (target : Nat)
    (frames : List Frame) (change : Change) :
    (state.apply target frames change).interpreter.Lenient := by
  cases change <;> exact ⟨h.not_strict, h.not_halted⟩

/-- A run that ends without an error does not touch the mode. -/
theorem Interpreter.Lenient.of_ok {interpreter : Interpreter} {scope : Scope} {outcome : Outcome}
    (h : interpreter.Lenient) (hends : Ends block (.start scope interpreter) outcome)
    (hresult : outcome.result = .ok ()) :
    outcome.interpreter.Lenient := by
  have hregular := hends.regular
  exact ⟨(congrArg Options.strict hregular.options).trans h.not_strict,
    hregular.running h.not_halted hresult⟩

/-- A line that is passed over does not touch the mode. -/
theorem Interpreter.Lenient.of_failed {next : State} {error : Error}
    (h : state.interpreter.Lenient) (hfailed : state.failed block line error = .onward next) :
    next.interpreter.Lenient := by
  obtain ⟨hoptions, hhalted⟩ := failed_onward hfailed
  exact ⟨(congrArg Options.strict hoptions).trans h.not_strict, hhalted⟩

end Lenient

/-- A line that is passed over adds its error. -/
theorem adds_of_failed {block : Block} {state next : State} {line : Text} {error : Error}
    (hfailed : state.failed block line error = .onward next) :
    state.interpreter.Adds next.interpreter
      [⟨block.lineNumber state.cursor, Text.trim line, error⟩] [] := by
  obtain ⟨-, -, rfl⟩ := recovered_of_failed hfailed
  rw [recover_interpreter]
  exact .record state.interpreter _

/-- A run that is not strict and ends without an error adds errors and operations, and they say what
becomes of the strict run. -/
theorem Runs.strict {block : Block} {state : State} {outcome : Outcome}
    (h : Runs block state outcome) (hlenient : state.interpreter.Lenient)
    (hresult : outcome.result = .ok ()) :
    ∃ failures drawn, state.interpreter.Adds outcome.interpreter failures drawn ∧
      StrictRun block state outcome failures drawn := by
  induction h with
  | past hline => exact ⟨[], [], .nothing rfl rfl, .past hline⟩
  | @move block state line target frames change outcome hline hdecide _ ih =>
      obtain ⟨failures, drawn, hadds, hstrict⟩ := ih (hlenient.apply target frames change) hresult
      obtain ⟨first, hfirst⟩ := apply_adds state target frames change
      have hsame : (state.apply target frames change).setStrict true =
          (state.setStrict true).apply target frames change := by cases change <;> rfl
      refine ⟨failures, first ++ drawn, hfirst.trans hadds, hstrict.after hfirst ?_⟩
      intro last hlast
      exact .move hline hdecide (hsame ▸ hlast)
  | @call block state line call callee outcome hline hdecide hcallee hreturned _ ihcallee ih =>
      have hleave := hlenient.enter.of_ok hcallee.ends hreturned
      obtain ⟨missed, first, hfirst, hbody⟩ := ihcallee hlenient.enter hreturned
      obtain ⟨failures, drawn, hadds, hstrict⟩ := ih ⟨hleave.not_strict, hleave.not_halted⟩ hresult
      have hcalled : state.interpreter.Adds callee.interpreter.leave missed first :=
        ⟨hfirst.errors, hfirst.operations⟩
      refine ⟨missed ++ failures, first ++ drawn, hcalled.trans hadds, ?_⟩
      cases missed with
      | nil =>
          refine hstrict.after hcalled fun last hlast ↦ ?_
          exact .call hline hdecide hbody hreturned hlast
      | cons failure rest => exact .of_callee hline hdecide hbody
  | recover hline hdecide hfailed _ ih =>
      obtain ⟨failures, drawn, hadds, -⟩ := ih (hlenient.of_failed hfailed) hresult
      exact ⟨_, _, (adds_of_failed hfailed).trans hadds, .of_failed hlenient hline hdecide hfailed⟩
  | stop _ _ hfailed => cases hresult.symm.trans (failed_ended hfailed).1
  | recoverCall _ _ hcallee hreturned _ _ _ _ =>
      -- No error comes back from a method.
      cases hreturned.symm.trans (hlenient.enter.result_ok hcallee.ends)
  | stopCall _ _ _ _ hfailed _ => cases hresult.symm.trans (failed_ended hfailed).1

/-- An error that ends a strict run is the last one that was recorded, unless it is fatal. -/
theorem Runs.error_recorded {block : Block} {state : State} {outcome : Outcome} {error : Error}
    (h : Runs block state outcome) (hstrict : state.interpreter.options.strict = true)
    (hrunning : state.interpreter.halted = false) (hresult : outcome.result = .error error)
    (hharmless : error.isFatal = false) :
    outcome.interpreter.halted = true ∧
      ∃ failure, outcome.interpreter.errors.back? = some failure ∧ failure.error = error := by
  induction h with
  | past => cases hresult
  | @move _ state _ target frames change _ _ _ _ ih =>
      refine ih ?_ ?_ hresult
      · cases change <;> exact hstrict
      · cases change <;> exact hrunning
  | call _ _ hcallee hreturned _ _ ih =>
      have hregular := hcallee.ends.regular
      exact ih ((congrArg Options.strict hregular.options).trans hstrict)
        (hregular.running hrunning hreturned) hresult
  | recover _ _ hfailed _ _ =>
      obtain ⟨-, hlenient, -⟩ := recovered_of_failed hfailed
      cases hlenient.symm.trans hstrict
  | @stop block state line error outcome _ _ hfailed =>
      obtain rfl := Except.error.inj ((failed_ended hfailed).1.symm.trans hresult)
      have hcut := @failed_of_strict state block line error hharmless hrunning hstrict
      obtain rfl := Flow.ended.inj (hcut.symm.trans hfailed)
      exact ⟨rfl, _, Array.back?_push, rfl⟩
  | recoverCall _ _ hcallee _ hfailed _ _ _ =>
      obtain ⟨-, hlenient, -⟩ := recovered_of_failed hfailed
      have hkept := congrArg Options.strict hcallee.ends.regular.options
      cases (hkept.symm.trans hlenient).symm.trans hstrict
  | stopCall _ _ _ hreturned hfailed ihcallee =>
      -- The method has recorded the error and halted the run, so the call only passes it on.
      obtain rfl := Except.error.inj ((failed_ended hfailed).1.symm.trans hresult)
      obtain ⟨hhalted, failure, hlast, herror⟩ := ihcallee hstrict hrunning hreturned
      obtain rfl := Flow.ended.inj ((failed_of_halted hhalted).symm.trans hfailed)
      exact ⟨hhalted, failure, hlast, herror⟩

namespace Interpreter

variable {interpreter : Interpreter} {lines : List Text}

/-- An error that ends a strict feed is the last one that was recorded, unless it is fatal. -/
theorem Feeds.error_recorded {outcome : RunOutcome} {error : Error}
    (h : interpreter.Feeds lines outcome) (hstrict : interpreter.options.strict = true)
    (hresult : outcome.result = .error error) (hharmless : error.isFatal = false) :
    ∃ failure, outcome.interpreter.errors.back? = some failure ∧ failure.error = error := by
  cases hbuild : BlockMap.build lines interpreter.nextLine with
  | error cause =>
      obtain ⟨fuel, hfeed⟩ := h
      rw [feed_rejected hbuild] at hfeed
      obtain rfl := Option.some.inj hfeed
      obtain rfl : Error.unmatchedBlock cause = error := Except.error.inj hresult
      cases hharmless
  | ok map =>
      obtain ⟨block, hblock, -, -⟩ := @Block.of_lines_ok lines.toArray _ _ hbuild
      obtain ⟨last, hends, rfl⟩ := (feeds_iff hblock).mp h
      have hruns := ends_iff_runs.mp hends
      exact (hruns.error_recorded hstrict rfl hresult hharmless).2

/-- A strict feed of lines that nest is the feed that is not strict, cut at its first error. Both
end; without an error they end alike, and otherwise the strict feed ends with the first error of the
other one, which it records once, however deep in calls of methods it was raised, and it draws some
of what the other one draws, from the first operation on. The error that ends a strict feed is the
last one that was recorded, unless the lines do not nest. -/
theorem strict_feed_cuts {map : BlockMap}
    (hbuild : BlockMap.build lines interpreter.nextLine = .ok map) :
    (∀ outcome, (interpreter.setStrict false).Feeds lines outcome →
      ∃ failures drawn strict,
        outcome.interpreter.errors.toList = interpreter.errors.toList ++ failures ∧
        outcome.interpreter.canvas.operations.toList =
          interpreter.canvas.operations.toList ++ drawn ∧
        (interpreter.setStrict true).Feeds lines strict ∧
        match failures with
        | [] => strict.result = .ok () ∧
            strict.interpreter = outcome.interpreter.setStrict true
        | failure :: _ => strict.result = .error failure.error ∧
            strict.interpreter.errors = interpreter.errors.push failure ∧
            ∃ before, before <+: drawn ∧ strict.interpreter.canvas.operations.toList =
              interpreter.canvas.operations.toList ++ before) ∧
    ∀ chunk outcome error, (interpreter.setStrict true).Feeds chunk outcome →
      outcome.result = .error error → error.isFatal = false →
      ∃ failure, outcome.interpreter.errors.back? = some failure ∧ failure.error = error := by
  refine ⟨fun outcome hfeeds ↦ ?_, fun chunk outcome error hfeeds hresult hharmless ↦ ?_⟩
  · obtain ⟨block, hblock, -, -⟩ := @Block.of_lines_ok lines.toArray _ _ hbuild
    obtain ⟨last, hends, rfl⟩ := (@feeds_iff (interpreter.setStrict false) _ _ hblock _).mp hfeeds
    have hlenient : Lenient ((interpreter.setStrict false).ready lines.length) := ⟨rfl, rfl⟩
    have hresult := hlenient.result_ok hends
    obtain ⟨failures, drawn, hadds, hstrict⟩ := (ends_iff_runs.mp hends).strict hlenient hresult
    have hfed : ∀ cut, Runs block (.start interpreter.globals
        ((interpreter.setStrict true).ready lines.length)) cut →
          (interpreter.setStrict true).Feeds lines (closing cut) := fun cut hcut ↦
      (@feeds_iff (interpreter.setStrict true) _ _ hblock _).mpr ⟨cut, hcut.ends, rfl⟩
    cases failures with
    | nil =>
        exact ⟨[], drawn, _, hadds.errors, hadds.operations, hfed _ hstrict, hresult, rfl⟩
    | cons failure rest =>
        obtain ⟨cut, before, hruns, hcut, -, hlast, hbefore⟩ := hstrict
        refine ⟨failure :: rest, drawn, _, hadds.errors, hadds.operations, hfed cut hruns, hcut, ?_,
          before, hbefore, hlast.operations⟩
        apply Array.toList_inj.mp
        rw [Array.toList_push]
        exact hlast.errors
  · exact hfeeds.error_recorded rfl hresult hharmless

/-- The first error is that of a method, and the strict feed draws what comes before it. -/
theorem strict_feed_cuts_of_method :
    let program := ["method m".toList, "clear".toList, "jump".toList, "clear".toList,
      "endmethod".toList, "call m".toList, "sing".toList]
    ∃ outcome strict, ((Interpreter.new {} .standard).setStrict false).Feeds program outcome ∧
      ((Interpreter.new {} .standard).setStrict true).Feeds program strict ∧
      outcome.interpreter.errors.toList.map LineError.line = [3, 7] ∧
      outcome.interpreter.canvas.operations.toList = [.clear, .clear] ∧
      strict.interpreter.errors.toList.map LineError.line = [3] ∧
      strict.interpreter.canvas.operations.toList <+: [.clear, .clear] := by
  intro program
  obtain ⟨map, hbuild⟩ : ∃ map, BlockMap.build program 1 = .ok map := ⟨_, rfl⟩
  have hfeed : (((Interpreter.new {} .standard).setStrict false).feed 8 program).map (fun outcome ↦
      (outcome.interpreter.errors.toList.map LineError.line,
        outcome.interpreter.canvas.operations.toList)) = some ([3, 7], [.clear, .clear]) := by
    decide +kernel
  obtain ⟨outcome, hfeed, hleft⟩ := Option.map_eq_some_iff.mp hfeed
  obtain ⟨hlines, hdrawn⟩ := Prod.mk.inj hleft
  obtain ⟨failures, drawn, strict, herrors, hoperations, hstrict, hcut⟩ :=
    (@strict_feed_cuts (.new {} .standard) _ _ hbuild).1 outcome ⟨8, hfeed⟩
  cases failures with
  | nil =>
      rw [herrors] at hlines
      cases hlines
  | cons failure rest =>
      obtain ⟨-, hpushed, before, hbefore, hbegun⟩ := hcut
      have hfirst := hlines
      rw [herrors] at hfirst
      obtain ⟨hline, -⟩ := List.cons.inj hfirst
      refine ⟨outcome, strict, ⟨8, hfeed⟩, hstrict, hlines, hdrawn, ?_, ?_⟩
      · rw [hpushed]
        exact congrArg (· :: []) hline
      · rw [hbegun, ← hdrawn, hoperations]
        exact hbefore

end Interpreter

end PenScript
