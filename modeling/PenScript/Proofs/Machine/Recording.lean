import PenScript.Proofs.Machine.Strict

/-!
# What a run records

A run only adds to the operations of the canvas and to the recorded errors (`Runs.adds`). The error
that ends it is the last one that it recorded, unless it is fatal, and no fatal error is ever
recorded (`Reported`).
-/

namespace PenScript

/-- What is recorded of a run that ends with the result: no fatal error, and last of all the error
that ended it, if that is not fatal. -/
structure Reported (result : Except Error Unit) (failures : List LineError) : Prop where
  harmless : ∀ failure ∈ failures, failure.error.isFatal = false
  last : ∀ error, result = .error error → error.isFatal = false →
    ∃ before failure, failures = before ++ [failure] ∧ failure.error = error

namespace Reported

variable {result : Except Error Unit} {failures more : List LineError}

/-- Nothing needs to be recorded of a run that ends without an error. -/
theorem nothing : Reported (.ok ()) [] where
  harmless _ hmem := nomatch hmem
  last _ hresult := nomatch hresult

/-- What was recorded before it does not matter for the end of a run. -/
theorem after (h : Reported result more)
    (hfailures : ∀ failure ∈ failures, failure.error.isFatal = false) :
    Reported result (failures ++ more) where
  harmless failure hmem := (List.mem_append.mp hmem).elim (hfailures failure) (h.harmless failure)
  last error hresult hharmless := by
    obtain ⟨before, failure, rfl, herror⟩ := h.last error hresult hharmless
    exact ⟨failures ++ before, failure, (List.append_assoc ..).symm, herror⟩

/-- A fatal error is not recorded. -/
theorem fatal {error : Error} (h : error.isFatal = true) : Reported (.error error) [] where
  harmless _ hmem := nomatch hmem
  last found hresult hharmless := by
    obtain rfl := Except.error.inj hresult
    cases h.symm.trans hharmless

/-- An error that is not fatal is recorded. -/
theorem single {error : Error} (h : error.isFatal = false) (number : Nat) (text : Text) :
    Reported (.error error) [⟨number, text, error⟩] where
  harmless failure hmem := by
    obtain rfl := List.mem_singleton.mp hmem
    exact h
  last found hresult _ := ⟨[], _, rfl, Except.error.inj hresult⟩

end Reported

section Runs

variable {block : Block} {state : State} {line : Text} {error : Error} {outcome : Outcome}

/-- A line that ends a run adds its error, unless it is fatal or the run is halted already. -/
theorem adds_of_failed_ended (hfailed : state.failed block line error = .ended outcome) :
    (error.isFatal = true ∨ state.interpreter.halted = true) ∧
        state.interpreter.Adds outcome.interpreter [] [] ∨
      ∃ failures, state.interpreter.Adds outcome.interpreter failures [] ∧
        Reported (.error error) failures := by
  rcases failed_cases state block line error with
    ⟨hstop, hended⟩ | ⟨⟨hharmless, -⟩, ⟨-, hended⟩ | ⟨-, honward⟩⟩
  · obtain rfl := Flow.ended.inj (hended.symm.trans hfailed)
    exact .inl ⟨hstop, .nothing rfl rfl⟩
  · obtain rfl := Flow.ended.inj (hended.symm.trans hfailed)
    obtain ⟨herrors, hoperations⟩ := Interpreter.Adds.record state.interpreter
      ⟨block.lineNumber state.cursor, Text.trim line, error⟩
    exact .inr ⟨_, ⟨herrors, hoperations⟩, .single hharmless _ _⟩
  · cases honward.symm.trans hfailed

/-- A run only adds errors and operations, and it adds the error with which it ends, unless that is
fatal. -/
theorem Runs.adds (h : Runs block state outcome) (hrunning : state.interpreter.halted = false) :
    ∃ failures drawn, state.interpreter.Adds outcome.interpreter failures drawn ∧
      Reported outcome.result failures := by
  induction h with
  | past => exact ⟨[], [], .nothing rfl rfl, .nothing⟩
  | @move _ state _ target frames change _ _ _ _ ih =>
      obtain ⟨first, hfirst⟩ := apply_adds state target frames change
      have hnext : (state.apply target frames change).interpreter.halted = false := by
        cases change <;> exact hrunning
      obtain ⟨failures, drawn, hadds, hreported⟩ := ih hnext
      exact ⟨failures, first ++ drawn, hfirst.trans hadds, hreported⟩
  | @call _ state _ _ callee _ _ _ hcallee hreturned _ ihcallee ih =>
      obtain ⟨missed, first, hfirst, hmissed⟩ := ihcallee hrunning
      obtain ⟨failures, drawn, hadds, hreported⟩ :=
        ih (hcallee.ends.regular.running hrunning hreturned)
      have hcalled : state.interpreter.Adds callee.interpreter.leave missed first :=
        ⟨hfirst.errors, hfirst.operations⟩
      exact ⟨missed ++ failures, first ++ drawn, hcalled.trans hadds,
        hreported.after hmissed.harmless⟩
  | recover _ _ hfailed _ ih =>
      obtain ⟨hharmless, -, -⟩ := recovered_of_failed hfailed
      obtain ⟨failures, drawn, hadds, hreported⟩ := ih (failed_onward hfailed).2
      exact ⟨_, _, (adds_of_failed hfailed).trans hadds,
        hreported.after (Reported.single hharmless _ _).harmless⟩
  | stop _ _ hfailed =>
      rw [(failed_ended hfailed).1]
      rcases adds_of_failed_ended hfailed with ⟨hfatal | hhalted, hadds⟩ | ⟨failures, hadds, hlast⟩
      · exact ⟨[], [], hadds, .fatal hfatal⟩
      · cases hrunning.symm.trans hhalted
      · exact ⟨failures, [], hadds, hlast⟩
  | @recoverCall _ state _ _ _ callee _ _ _ _ _ _ hfailed _ ihcallee ih =>
      obtain ⟨missed, first, hfirst, hmissed⟩ := ihcallee hrunning
      obtain ⟨hharmless, -, -⟩ := recovered_of_failed hfailed
      obtain ⟨failures, drawn, hadds, hreported⟩ := ih (failed_onward hfailed).2
      have hcalled : state.interpreter.Adds callee.interpreter.leave missed first :=
        ⟨hfirst.errors, hfirst.operations⟩
      exact ⟨_, _, (hcalled.trans (adds_of_failed hfailed)).trans hadds,
        hreported.after ((Reported.single hharmless _ _).after hmissed.harmless).harmless⟩
  | @stopCall _ state _ _ callee _ _ _ _ _ hreturned hfailed ihcallee =>
      obtain ⟨missed, first, hfirst, hmissed⟩ := ihcallee hrunning
      have hcalled : state.interpreter.Adds callee.interpreter.leave missed first :=
        ⟨hfirst.errors, hfirst.operations⟩
      rw [(failed_ended hfailed).1]
      -- Either the method has recorded the error already, or it is recorded now.
      rcases adds_of_failed_ended hfailed with ⟨-, hadds⟩ | ⟨failures, hadds, hlast⟩
      · refine ⟨_, _, hcalled.trans hadds, ?_⟩
        rw [List.append_nil, ← hreturned]
        exact hmissed
      · exact ⟨_, _, hcalled.trans hadds, hlast.after hmissed.harmless⟩

end Runs

/-- A feed only adds errors and operations, and it adds the error with which it ends, unless that is
fatal. -/
theorem Interpreter.Feeds.adds {interpreter : Interpreter} {lines : List Text}
    {outcome : RunOutcome} (h : interpreter.Feeds lines outcome) :
    ∃ failures drawn, interpreter.Adds outcome.interpreter failures drawn ∧
      Reported outcome.result failures := by
  cases hbuild : BlockMap.build lines interpreter.nextLine with
  | error cause =>
      obtain ⟨fuel, hfeed⟩ := h
      rw [feed_rejected hbuild] at hfeed
      obtain rfl := Option.some.inj hfeed
      exact ⟨[], [], .nothing rfl rfl, .fatal rfl⟩
  | ok map =>
      obtain ⟨block, hblock, -, -⟩ := @Block.of_lines_ok lines.toArray _ _ hbuild
      obtain ⟨last, hends, rfl⟩ := (feeds_iff hblock).mp h
      obtain ⟨failures, drawn, hadds, hreported⟩ := (ends_iff_runs.mp hends).adds rfl
      exact ⟨failures, drawn, ⟨hadds.errors, hadds.operations⟩, hreported⟩

end PenScript
