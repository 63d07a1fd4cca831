import PenScript.Proofs.Machine.Depth
import PenScript.Proofs.Machine.Recording

/-!
# Halted runs

The first error of a strict run marks the interpreter as halted, so that nobody on the way out
records the error again. The mark outlives the run: a feed and a reset take it away, and a block
that is run by itself does not. `Interpreter.Used` follows an interpreter through all that its users
may do with it and keeps what the mark stands for, whether an error has cut a strict run short
(`Interpreter.Used.halted`).

A run that starts with the mark ends at its first error, which is not recorded, in whatever mode
(`Runs.of_halted`). So a block that is run outside strict mode records every error and goes on only
if no strict run was cut short before it (`blocks_record_errors`).
-/

namespace PenScript

section Runs

variable {block current : Block} {state place : State} {line : Text} {error : Error}
  {outcome : Outcome}

/-- A run that starts halted stays so and records nothing. -/
theorem Runs.of_halted (h : Runs block state outcome) (hhalted : state.interpreter.halted = true) :
    outcome.interpreter.halted = true ∧
      outcome.interpreter.errors = state.interpreter.errors := by
  induction h with
  | past => exact ⟨hhalted, rfl⟩
  | @move _ _ _ _ _ change _ _ _ _ ih => cases change <;> exact ih hhalted
  | call _ _ _ _ _ ihcallee ih =>
      obtain ⟨hcallee, herrors⟩ := ihcallee hhalted
      obtain ⟨hlast, hsame⟩ := ih hcallee
      exact ⟨hlast, hsame.trans herrors⟩
  -- No line is passed over that fails.
  | recover _ _ hfailed _ _ => cases (failed_of_halted hhalted).symm.trans hfailed
  | stop _ _ hfailed =>
      obtain rfl := Flow.ended.inj ((failed_of_halted hhalted).symm.trans hfailed)
      exact ⟨hhalted, rfl⟩
  | recoverCall _ _ _ _ hfailed _ ihcallee _ =>
      obtain ⟨hcallee, -⟩ := ihcallee hhalted
      cases (failed_of_halted hcallee).symm.trans hfailed
  | stopCall _ _ _ _ hfailed ihcallee =>
      obtain ⟨hcallee, herrors⟩ := ihcallee hhalted
      obtain rfl := Flow.ended.inj ((failed_of_halted hcallee).symm.trans hfailed)
      exact ⟨hcallee, herrors⟩

/-- A line that is attempted in a halted run leaves it halted. -/
theorem attempt_halted (hhalted : state.interpreter.halted = true) {fuel : Nat} {attempt : Attempt}
    (h : state.attempt (runCalls fuel) block line = some attempt) :
    attempt.state.interpreter.halted = true := by
  rcases attempt_cases h with ⟨error, -, rfl⟩ | ⟨target, frames, change, -, rfl⟩ |
    ⟨call, callee, -, hcallee, ⟨-, rfl⟩ | ⟨error, -, rfl⟩⟩
  · exact hhalted
  · cases change <;> exact hhalted
  · exact ((runs_of_run hcallee).of_halted hhalted).1
  · exact ((runs_of_run hcallee).of_halted hhalted).1

/-- A line that fails in a halted run ends it. -/
theorem execute_of_halted (hhalted : state.interpreter.halted = true) {fuel : Nat} {after : State}
    (h : state.attempt (runCalls fuel) block line = some ⟨.error error, after⟩) :
    state.execute (runCalls fuel) block line = .ended (after.stop error) := by
  rw [execute_eq_attempt, h]
  exact failed_of_halted (attempt_halted hhalted h)

/-- All that a halted run visits is halted. -/
theorem Visits.halted (h : Visits block state current place)
    (hhalted : state.interpreter.halted = true) : place.interpreter.halted = true := by
  induction h with
  | here => exact hhalted
  | step _ _ hstep ih =>
      obtain ⟨⟨result, after⟩, hattempt, hsettle⟩ := attempt_of_execute hstep (by simp)
      have hafter := attempt_halted ih hattempt
      cases result with
      | ok finished =>
          obtain rfl := Flow.onward.inj hsettle
          exact hafter
      | error error => cases (failed_of_halted hafter).symm.trans hsettle
  | call _ _ _ ih => exact ih

/-! ### From a point of a run to its end -/

/-- A run that ends goes on to this end after each of its steps. -/
theorem Ends.after_step {next : State} {fuel : Nat} (h : Ends block state outcome)
    (hline : block.lines[state.cursor]? = some line)
    (hstep : state.execute (runCalls fuel) block line = .onward next) : Ends block next outcome := by
  obtain ⟨more, hrun⟩ := h
  cases more with
  | zero => cases hrun
  | succ more =>
      rw [run_succ hline] at hrun
      -- The step of the run and the given one are the same on the larger of the two fuels.
      have hsame := execute_within (runCalls_within (Nat.le_max_left fuel more)) hstep (by simp)
      rcases Flow.finish_eq_some hrun with ⟨other, hother, hrest⟩ | hended
      · rw [execute_within (runCalls_within (Nat.le_max_right fuel more)) hother (by simp)] at hsame
        obtain rfl := Flow.onward.inj hsame
        exact ⟨more, hrest⟩
      · rw [execute_within (runCalls_within (Nat.le_max_right fuel more)) hended (by simp)] at hsame
        cases hsame

/-- A run that ends at a call has ended the method, which either goes back to it without an error,
or fails it. -/
theorem Runs.of_call {call : Interpreter.Call} (h : Runs block state outcome)
    (hline : block.lines[state.cursor]? = some line)
    (hdecide : state.decide block line = .ok (.call call)) :
    ∃ callee, Runs call.method.block (.start call.locals state.interpreter.enter) callee ∧
      (callee.result = .ok () →
        Runs block (state.resume call.method callee.scope callee.interpreter.leave) outcome) := by
  cases h with
  | past hnone => cases hnone.symm.trans hline
  | move hother hmove _ =>
      obtain rfl := Option.some.inj (hother.symm.trans hline)
      cases hmove.symm.trans hdecide
  | call hother hcall hcallee _ hrest =>
      obtain rfl := Option.some.inj (hother.symm.trans hline)
      cases hcall.symm.trans hdecide
      exact ⟨_, hcallee, fun _ ↦ hrest⟩
  | recover hother herror _ _ | stop hother herror _ =>
      obtain rfl := Option.some.inj (hother.symm.trans hline)
      cases herror.symm.trans hdecide
  | recoverCall hother hcall hcallee hresult _ _ | stopCall hother hcall hcallee hresult _ =>
      obtain rfl := Option.some.inj (hother.symm.trans hline)
      cases hcall.symm.trans hdecide
      exact ⟨_, hcallee, fun hok ↦ by cases hresult.symm.trans hok⟩

/-- Wherever a run is that is neither strict nor halted, in whatever method, the block that is being
run there ends, and the errors that it has then are among those at the end of the whole run. -/
theorem Visits.ends (h : Visits block state current place) (hlenient : state.interpreter.Lenient)
    (hends : Ends block state outcome) :
    ∃ inner, Ends current place inner ∧
      inner.interpreter.errors.toList <+: outcome.interpreter.errors.toList := by
  induction h with
  | here => exact ⟨outcome, hends, List.prefix_rfl⟩
  | step _ hline hstep ih =>
      obtain ⟨inner, hinner, hprefix⟩ := ih
      exact ⟨inner, hinner.after_step hline hstep, hprefix⟩
  | @call current place line call hvisits hline hdecide ih =>
      obtain ⟨inner, hinner, hprefix⟩ := ih
      obtain ⟨callee, hcallee, hrest⟩ := (ends_iff_runs.mp hinner).of_call hline hdecide
      -- The method comes back without an error, and the caller only adds to what it has recorded.
      have henter := (hvisits.lenient hlenient).enter
      have hok := henter.result_ok hcallee.ends
      have hleave := henter.of_ok hcallee.ends hok
      obtain ⟨failures, _, hadds, -⟩ := (hrest hok).adds hleave.not_halted
      have hcalled : callee.interpreter.errors.toList <+: inner.interpreter.errors.toList :=
        ⟨failures, hadds.errors.symm⟩
      exact ⟨callee, hcallee.ends, hcalled.trans hprefix⟩

/-- What fails in a halted run, in whatever method, ends the whole run. -/
theorem Visits.fails (h : Visits block state current place)
    (hhalted : state.interpreter.halted = true) (hends : Ends block state outcome)
    (hfails : ∃ inner, Ends current place inner ∧ inner.result = .error error) :
    outcome.result = .error error := by
  induction h with
  | here =>
      obtain ⟨inner, hinner, hresult⟩ := hfails
      rwa [hends.unique hinner]
  | step _ hline hstep ih =>
      obtain ⟨inner, hinner, hresult⟩ := hfails
      exact ih ⟨inner, ends_of_onward hline hstep hinner, hresult⟩
  | @call current place line call hvisits hline hdecide ih =>
      obtain ⟨callee, ⟨fuel, hcallee⟩, hresult⟩ := hfails
      have hattempt : place.attempt (runCalls fuel) current line =
          some ⟨.error error, { place with interpreter := callee.interpreter.leave }⟩ := by
        rw [State.attempt, hdecide]
        simp only [runCalls, hcallee, Option.map_some, hresult]
      have hended := execute_of_halted (hvisits.halted hhalted) hattempt
      exact ih ⟨_, ends_of_ended hline hended, rfl⟩

/-- What is visited from a point that is visited is visited. -/
theorem Visits.trans {other : Block} {last : State} (h : Visits block state current place)
    (hlast : Visits current place other last) : Visits block state other last := by
  induction hlast with
  | here => exact h
  | step _ hline hstep ih => exact ih.step hline hstep
  | call _ hline hdecide ih => exact ih.call hline hdecide

/-- A line that fails with the error is come to from the state. -/
def Fails (block : Block) (state : State) (error : Error) : Prop :=
  ∃ current place line fuel after, Visits block state current place ∧
    current.lines[place.cursor]? = some line ∧
    place.attempt (runCalls fuel) current line = some ⟨.error error, after⟩

/-- A run that ends with an error has come to a line that fails with it. -/
theorem fails_of_error {fuel : Nat} (h : run fuel block state = some outcome)
    (hresult : outcome.result = .error error) : Fails block state error := by
  induction fuel generalizing state with
  | zero => cases h
  | succ fuel ih =>
      cases hline : block.lines[state.cursor]? with
      | none =>
          rw [run_past hline] at h
          obtain rfl := Option.some.inj h
          cases hresult
      | some line =>
          rw [run_succ hline] at h
          rcases Flow.finish_eq_some h with ⟨next, hstep, hrest⟩ | hended
          · obtain ⟨current, place, other, more, after, hvisits, hfails⟩ := ih hrest
            exact ⟨current, place, other, more, after,
              (Visits.here.step hline hstep).trans hvisits, hfails⟩
          · obtain ⟨⟨result, after⟩, hattempt, hsettle⟩ := attempt_of_execute hended (by simp)
            cases result with
            | ok finished => cases hsettle
            | error found =>
                obtain rfl := Except.error.inj ((failed_ended hsettle).1.symm.trans hresult)
                exact ⟨block, state, line, fuel, after, .here, hline, hattempt⟩

/-- A halted run ends with an error exactly when it comes to a line that fails with it. -/
theorem error_iff_fails (hhalted : state.interpreter.halted = true)
    (hends : Ends block state outcome) :
    outcome.result = .error error ↔ Fails block state error := by
  constructor
  · intro hresult
    obtain ⟨fuel, hrun⟩ := hends
    exact fails_of_error hrun hresult
  · rintro ⟨current, place, line, fuel, after, hvisits, hline, hfails⟩
    have hended := execute_of_halted (hvisits.halted hhalted) hfails
    exact hvisits.fails hhalted hends ⟨_, ends_of_ended hline hended, rfl⟩

end Runs

/-- A run that ends with the result is cut short by an error, because it is strict. -/
def Options.cuts (options : Options) : Except Error Unit → Bool
  | .ok () => false
  | .error error => options.strict && !error.isFatal

/-- A run leaves the mark that it has found, and sets it when it is cut short. -/
theorem Ends.halted {block : Block} {scope : Scope} {interpreter : Interpreter} {outcome : Outcome}
    (h : Ends block (.start scope interpreter) outcome) :
    outcome.interpreter.halted =
      (interpreter.halted || interpreter.options.cuts outcome.result) := by
  cases hhalted : interpreter.halted with
  | true => exact ((ends_iff_runs.mp h).of_halted hhalted).1
  | false =>
      rw [Bool.false_or]
      cases hresult : outcome.result with
      | ok finished => exact h.regular.running hhalted hresult
      | error error =>
          have hharmless := h.harmless error hresult
          cases hstrict : interpreter.options.strict with
          | true =>
              obtain ⟨hcut, -⟩ :=
                (ends_iff_runs.mp h).error_recorded hstrict hhalted hresult hharmless
              rw [hcut, Options.cuts, hstrict, hharmless]
              rfl
          | false =>
              have hlenient : interpreter.Lenient := ⟨hstrict, hhalted⟩
              cases hresult.symm.trans (hlenient.result_ok h)

namespace Interpreter

variable {interpreter : Interpreter} {cut : Bool}

/-- An interpreter as its users may have it, and whether an error has cut a strict run of it short
since it was new, reset or fed. -/
inductive Used : Interpreter → Bool → Prop where
  | new (options : Options) (registry : Registry) : Used (.new options registry) false
  | reset {interpreter : Interpreter} {cut : Bool} :
      Used interpreter cut → Used interpreter.reset false
  | setStrict {interpreter : Interpreter} {cut : Bool} (strict : Bool) :
      Used interpreter cut → Used (interpreter.setStrict strict) cut
  | canvas {interpreter : Interpreter} {cut : Bool} (canvas : Canvas) :
      Used interpreter cut → Used { interpreter with canvas := canvas } cut
  | feed {interpreter : Interpreter} {cut : Bool} {fuel : Nat} {lines : List Text}
      {outcome : RunOutcome} :
      Used interpreter cut → interpreter.feed fuel lines = some outcome →
      Used outcome.interpreter (interpreter.options.cuts outcome.result)
  | executeBlock {interpreter : Interpreter} {cut : Bool} {fuel firstLine : Nat}
      {lines : List Text} {scope : Scope} {outcome : Outcome} :
      Used interpreter cut →
      interpreter.executeBlock fuel lines firstLine scope = some outcome →
      Used outcome.interpreter (cut || interpreter.options.cuts outcome.result)
  /-- A call that is not refused runs the body of the method. -/
  | callMethod {interpreter : Interpreter} {cut : Bool} {fuel : Nat} {name : Text}
      {arguments : List Text} {caller : Scope} {call : Call} {callee : Outcome} :
      Used interpreter cut → interpreter.prepare name arguments caller = .ok call →
      run fuel call.method.block (.start call.locals interpreter.enter) = some callee →
      Used callee.interpreter.leave (cut || interpreter.options.cuts callee.result)

/-- The mark of a halted run is there when a strict run was cut short. -/
theorem Used.halted (h : interpreter.Used cut) : interpreter.halted = cut := by
  induction h with
  | new options registry => rfl
  | reset _ _ => rfl
  | setStrict strict _ ih => exact ih
  | canvas canvas _ ih => exact ih
  | @feed interpreter _ fuel lines outcome _ hfeed _ =>
      cases hbuild : BlockMap.build lines interpreter.nextLine with
      | error cause =>
          rw [feed_rejected hbuild] at hfeed
          obtain rfl := Option.some.inj hfeed
          exact (Bool.and_false _).symm
      | ok map =>
          obtain ⟨block, hblock, -, -⟩ := @Block.of_lines_ok lines.toArray _ _ hbuild
          obtain ⟨last, hends, rfl⟩ := (feeds_iff hblock).mp ⟨fuel, hfeed⟩
          exact hends.halted
  | @executeBlock interpreter _ fuel firstLine lines scope outcome _ hrun ih =>
      unfold Interpreter.executeBlock at hrun
      cases hblock : Block.ofLines lines.toArray firstLine with
      | error cause =>
          rw [hblock] at hrun
          obtain rfl := Option.some.inj hrun
          rw [ih]
          show _ = (_ || (interpreter.options.strict && false))
          rw [Bool.and_false, Bool.or_false]
      | ok block =>
          rw [hblock] at hrun
          rw [← ih]
          exact Ends.halted ⟨fuel, hrun⟩
  | @callMethod interpreter _ fuel _ _ _ call callee _ _ hrun ih =>
      have hends : Ends call.method.block (.start call.locals interpreter.enter) callee :=
        ⟨fuel, hrun⟩
      rw [← ih]
      exact hends.halted

/-- An interpreter that was obtained by any operations was used in one way. -/
theorem Obtained.exists_used (h : interpreter.Obtained) : ∃ cut, interpreter.Used cut := by
  induction h with
  | new options registry => exact ⟨_, .new options registry⟩
  | reset _ ih =>
      obtain ⟨cut, hused⟩ := ih
      exact ⟨_, hused.reset⟩
  | setStrict strict _ ih =>
      obtain ⟨cut, hused⟩ := ih
      exact ⟨_, hused.setStrict strict⟩
  | canvas canvas _ ih =>
      obtain ⟨cut, hused⟩ := ih
      exact ⟨_, hused.canvas canvas⟩
  | feed _ hfeed ih =>
      obtain ⟨cut, hused⟩ := ih
      exact ⟨_, hused.feed hfeed⟩
  | executeBlock _ hrun ih =>
      obtain ⟨cut, hused⟩ := ih
      exact ⟨_, hused.executeBlock hrun⟩
  | @callMethod interpreter fuel name arguments caller outcome _ hcall ih =>
      obtain ⟨cut, hused⟩ := ih
      unfold Interpreter.callMethod at hcall
      cases hprepare : interpreter.prepare name arguments caller with
      | error error =>
          rw [hprepare] at hcall
          obtain rfl := Option.some.inj hcall
          exact ⟨cut, hused⟩
      | ok call =>
          rw [hprepare] at hcall
          obtain ⟨callee, hrun, rfl⟩ := Option.map_eq_some_iff.mp hcall
          exact ⟨_, hused.callMethod hprepare hrun⟩

/-- A block that nests is run outside strict mode, by an interpreter on which anything may have been
done before. If no strict run of it was cut short since it was new, reset or fed, the block ends
without an error; each line that fails, in whatever method, is recorded, and the run goes on behind
it to its end. Otherwise nothing is recorded, and the first line that fails ends the run with its
error. -/
theorem blocks_record_errors {lines : List Text} {firstLine fuel : Nat} {block : Block}
    {scope : Scope} {outcome : Outcome} (hobtained : interpreter.Obtained)
    (hmode : interpreter.options.strict = false)
    (hblock : Block.ofLines lines.toArray firstLine = .ok block)
    (hrun : interpreter.executeBlock fuel lines firstLine scope = some outcome) :
    ∃ cut, interpreter.Used cut ∧ match cut with
      | false => outcome.result = .ok () ∧
          ∀ current place line more error after,
            Visits block (.start scope interpreter) current place →
            current.lines[place.cursor]? = some line →
            place.attempt (runCalls more) current line = some ⟨.error error, after⟩ →
            ∃ next inner, place.execute (runCalls more) current line = .onward next ∧
              next = (place.noted current line error).recover current line ∧
              Ends current next inner ∧
              next.interpreter.errors.toList = place.interpreter.errors.toList ++
                [⟨current.lineNumber place.cursor, Text.trim line, error⟩] ∧
              next.interpreter.errors.toList <+: outcome.interpreter.errors.toList
      | true => outcome.interpreter.errors = interpreter.errors ∧
          ∀ error, outcome.result = .error error ↔
            Fails block (.start scope interpreter) error := by
  obtain ⟨cut, hused⟩ := hobtained.exists_used
  unfold executeBlock at hrun
  rw [hblock] at hrun
  have hends : Ends block (.start scope interpreter) outcome := ⟨fuel, hrun⟩
  refine ⟨cut, hused, ?_⟩
  cases cut with
  | true =>
      have hhalted : interpreter.halted = true := hused.halted
      exact ⟨((ends_iff_runs.mp hends).of_halted hhalted).2, fun error ↦
        error_iff_fails hhalted hends⟩
  | false =>
      have hlenient : interpreter.Lenient := ⟨hmode, hused.halted⟩
      refine ⟨hlenient.result_ok hends, ?_⟩
      intro current place line more error after hvisits hline hfails
      have hplace : place.interpreter.Lenient := hvisits.lenient hlenient
      obtain ⟨hdecide, rfl⟩ := decide_of_attempt hplace hfails
      have hharmless := visits_harmless hvisits hline error hdecide
      have hstep : after.execute (runCalls more) current line =
          .onward ((after.noted current line error).recover current line) := by
        rw [execute_eq_attempt, hfails]
        exact failed_of_lenient hharmless hplace.not_halted hplace.not_strict
      have hnext := hplace.step hstep
      obtain ⟨inner, hinner, hprefix⟩ := (hvisits.step hline hstep).ends hlenient hends
      obtain ⟨failures, _, hadds, -⟩ := (ends_iff_runs.mp hinner).adds hnext.not_halted
      have hkept : ((after.noted current line error).recover current line).interpreter.errors.toList
          <+: inner.interpreter.errors.toList := ⟨failures, hadds.errors.symm⟩
      refine ⟨_, inner, hstep, rfl, hinner, ?_, hkept.trans hprefix⟩
      rw [recover_interpreter]
      exact Array.toList_push

/-- A block after a strict run that was cut short and another feed, even of no lines: the error is
recorded, and the line behind it is run. -/
theorem blocks_record_errors_after_feed :
    ∃ (strict fed : RunOutcome) (outcome : Outcome),
      ((new {} .standard).setStrict true).feed 2 ["jump".toList] = some strict ∧
      (strict.interpreter.setStrict false).feed 1 [] = some fed ∧
      fed.interpreter.executeBlock 3 ["jump".toList, "clear".toList] 1 .empty = some outcome ∧
      fed.interpreter.Used false ∧ outcome.result = .ok () ∧
      outcome.interpreter.errors.toList.map LineError.line = [1, 1] ∧
      outcome.interpreter.canvas.operations.toList = [.clear] := by
  obtain ⟨strict, fed, outcome, block, hstrict, hfeed, hmode, hhalted, hblock, hrun, hlines,
      hdrawn⟩ :
      ∃ (strict fed : RunOutcome) (outcome : Outcome) (block : Block),
        ((new {} .standard).setStrict true).feed 2 ["jump".toList] = some strict ∧
        (strict.interpreter.setStrict false).feed 1 [] = some fed ∧
        fed.interpreter.options.strict = false ∧ fed.interpreter.halted = false ∧
        Block.ofLines ["jump".toList, "clear".toList].toArray 1 = .ok block ∧
        fed.interpreter.executeBlock 3 ["jump".toList, "clear".toList] 1 .empty = some outcome ∧
        outcome.interpreter.errors.toList.map LineError.line = [1, 1] ∧
        outcome.interpreter.canvas.operations.toList = [.clear] :=
    ⟨_, _, _, _, rfl, rfl, rfl, rfl, rfl, rfl, rfl, rfl⟩
  have hobtained := (((Obtained.new {} .standard).setStrict true).feed hstrict).setStrict false
  obtain ⟨cut, hused, hends⟩ := blocks_record_errors (hobtained.feed hfeed) hmode hblock hrun
  obtain rfl : cut = false := hused.halted.symm.trans hhalted
  exact ⟨strict, fed, outcome, hstrict, hfeed, hrun, hused, hends.1, hlines, hdrawn⟩

/-- The same block directly after the strict run, outside strict mode: the error comes back and is
not recorded, and the line behind it is not run. -/
theorem block_stops_after_strict_run :
    ∃ (strict : RunOutcome) (outcome : Outcome) (block : Block),
      ((new {} .standard).setStrict true).feed 2 ["jump".toList] = some strict ∧
      (strict.interpreter.setStrict false).Obtained ∧
      (strict.interpreter.setStrict false).options.strict = false ∧
      Block.ofLines ["jump".toList, "clear".toList].toArray 1 = .ok block ∧
      (strict.interpreter.setStrict false).executeBlock 3 ["jump".toList, "clear".toList] 1
        .empty = some outcome ∧
      outcome.result ≠ .ok () ∧ outcome.interpreter.errors = strict.interpreter.errors ∧
      outcome.interpreter.canvas.operations.toList = [] := by
  obtain ⟨strict, outcome, block, hstrict, hmode, hblock, hrun, hresult, herrors, hdrawn⟩ :
      ∃ (strict : RunOutcome) (outcome : Outcome) (block : Block),
        ((new {} .standard).setStrict true).feed 2 ["jump".toList] = some strict ∧
        (strict.interpreter.setStrict false).options.strict = false ∧
        Block.ofLines ["jump".toList, "clear".toList].toArray 1 = .ok block ∧
        (strict.interpreter.setStrict false).executeBlock 3 ["jump".toList, "clear".toList] 1
          .empty = some outcome ∧
        outcome.result.isOk = false ∧ outcome.interpreter.errors = strict.interpreter.errors ∧
        outcome.interpreter.canvas.operations.toList = [] :=
    ⟨_, _, _, rfl, rfl, rfl, rfl, rfl, rfl, rfl⟩
  have hobtained := (((Obtained.new {} .standard).setStrict true).feed hstrict).setStrict false
  refine ⟨strict, outcome, block, hstrict, hobtained, hmode, hblock, hrun, ?_, herrors, hdrawn⟩
  intro hok
  rw [hok] at hresult
  cases hresult

end Interpreter

end PenScript
