import PenScript.Proofs.Machine.Recording
import PenScript.Proofs.Session.Batch

/-!
# What a session shows

A session remembers how many operations and errors it has shown, and shows the others after each
chunk that it runs. For this to show everything exactly once, a run may only add to the two logs
(`Runs.adds`), and the error that ends a run must either be among those that it recorded or be a
fatal one, which is never recorded (`Reported`). `Session.Settled` is what holds between two lines:
everything has been shown, and a block is open after each line that waits.
-/

namespace PenScript

/-- The line opens a block. -/
def Line.opens (line : Text) : Bool :=
  match Line.kind line with
  | .opener _ => true
  | _ => false

/-- The line closes a block. -/
def Line.closes (line : Text) : Bool :=
  match Line.kind line with
  | .closer _ => true
  | _ => false

/-- The balance of some lines is the number of the openers less that of the closers. -/
theorem balance_eq_count (lines : List Text) :
    lines.foldr (fun line total ↦ Line.balance line + total) 0 =
      (lines.countP Line.opens : Int) - lines.countP Line.closes := by
  induction lines with
  | nil => rfl
  | cons line rest ih =>
      rw [List.foldr_cons, ih, List.countP_cons, List.countP_cons]
      unfold Line.balance Line.opens Line.closes
      cases Line.kind line <;> simp only [Bool.false_eq_true, if_true, if_false] <;> omega

/-- Lines are not balanced when they have more openers than closers. -/
theorem not_balanced_iff {lines : List Text} :
    ¬ isBalanced lines = true ↔ lines.countP Line.closes < lines.countP Line.opens := by
  rw [isBalanced, balance_eq_count, decide_eq_true_eq]
  omega

namespace Session

/-- All operations and all errors have been shown, and a block is open after each line that
waits. -/
structure Settled (session : Session) : Prop where
  operations : session.shownOperations = session.interpreter.canvas.operations.size
  errors : session.shownErrors = session.interpreter.errors.size
  waits : ∀ before, before <+: session.pending → before ≠ [] →
    before.countP Line.closes < before.countP Line.opens

/-- A session in which no lines wait takes any other line for a command or for nothing. -/
theorem submit_other {session : Session} {line : Text} (hidle : session.pending = [])
    (hline : ¬ Accepts line) (fuel : Nat) :
    session.submit fuel line =
      some (if (Text.trim line).head? = some ':' then session.command (Text.trim line)
        else (.output [], session)) := by
  have hpending : (!session.isPending) = true := by rw [isPending, hidle]; rfl
  unfold submit
  by_cases hcolon : (Text.trim line).head? = some ':'
  · simp only [if_pos (And.intro hcolon hpending), if_pos hcolon]
  · have hblank : (Text.trim line).isEmpty = true :=
      List.isEmpty_iff.mpr (Classical.byContradiction fun hsome ↦ hline ⟨hsome, hcolon⟩)
    simp only [hcolon, false_and, if_false, if_pos (And.intro hblank hpending)]

namespace Settled

variable {session next : Session} {line : Text} {fuel : Nat} {reply : Reply}

/-- A session starts with nothing to show. -/
theorem new (options : Options) : (Session.new options).Settled where
  operations := rfl
  errors := rfl
  waits _ hprefix hsome := absurd (List.prefix_nil.mp hprefix) hsome

/-- After a run everything has been shown. -/
theorem shown (outcome : Interpreter.RunOutcome) : (Session.shown outcome).Settled where
  operations := rfl
  errors := rfl
  waits _ hprefix hsome := absurd (List.prefix_nil.mp hprefix) hsome

/-- A line after which a block is open waits. -/
theorem waiting (h : session.Settled) (hopen : ¬ isBalanced (session.pending ++ [line]) = true) :
    (session.waiting line).Settled where
  operations := h.operations
  errors := h.errors
  waits before hprefix hsome := by
    rcases List.prefix_concat_iff.mp hprefix with rfl | hbefore
    · exact not_balanced_iff.mp hopen
    · exact h.waits before hbefore hsome

/-- The counters are set back together with the two logs. -/
theorem clear (session : Session) : session.clear.Settled where
  operations := rfl
  errors := rfl
  waits _ hprefix hsome := absurd (List.prefix_nil.mp hprefix) hsome

/-- A command leaves nothing to show. -/
theorem command (h : session.Settled) (text : Text) : (session.command text).2.Settled := by
  unfold Session.command
  split
  all_goals first | exact h | exact .clear session

/-- What has been shown is still there after a run. -/
theorem new_lines (h : session.Settled) {outcome : Interpreter.RunOutcome}
    {failures : List LineError} {drawn : List Canvas.Operation}
    (hadds : session.interpreter.Adds outcome.interpreter failures drawn) :
    session.newLines outcome =
      drawn.map Canvas.Operation.description ++
        failures.map (fun failure ↦ errorLine failure.message) ++ fatalLines outcome.result := by
  have hoperations : session.shownOperations =
      session.interpreter.canvas.operations.toList.length := h.operations
  have herrors : session.shownErrors = session.interpreter.errors.toList.length := h.errors
  unfold newLines
  rw [hadds.operations, hadds.errors, hoperations, herrors, List.drop_left, List.drop_left]

/-- Every answer leaves nothing to show. -/
theorem submit (h : session.Settled) (hsubmit : session.submit fuel line = some (reply, next)) :
    next.Settled := by
  by_cases hline : session.pending ≠ [] ∨ Accepts line
  · rw [submit_accepted hline] at hsubmit
    split at hsubmit
    · obtain ⟨outcome, -, hshown⟩ := Option.map_eq_some_iff.mp hsubmit
      obtain ⟨-, rfl⟩ := Prod.mk.inj hshown
      exact .shown outcome
    · obtain ⟨-, rfl⟩ := Prod.mk.inj (Option.some.inj hsubmit)
      exact h.waiting ‹_›
  · obtain ⟨hidle, hother⟩ := not_or.mp hline
    rw [submit_other (Classical.not_not.mp hidle) hother] at hsubmit
    split at hsubmit
    · have hnext : (session.command (Text.trim line)).2 = next :=
        congrArg Prod.snd (Option.some.inj hsubmit)
      exact hnext ▸ h.command _
    · obtain ⟨-, rfl⟩ := Prod.mk.inj (Option.some.inj hsubmit)
      exact h

end Settled

/-- Whatever is submitted to a session, after each answer everything has been shown. -/
theorem Dialogue.settled {options : Options} {lines : List Text} {replies : List Reply}
    {session : Session} (h : Dialogue (.new options) lines replies session) : session.Settled := by
  induction h with
  | start => exact .new options
  | submit _ hsubmit ih => exact ih.submit hsubmit

/-- A session shows everything exactly once, whatever is submitted to it. After each answer its
counters are the numbers of operations and of errors, and after each line that waits more blocks
have been opened than closed. A line that completes a chunk runs it, and its answer consists of the
operations that the run has added, of the errors that it has recorded, and of one line more if it
ended with a fatal error, which is never recorded. Any other error that ends a run is the last one
that it has recorded. -/
theorem session_shows_everything_once {options : Options} {lines : List Text}
    {replies : List Reply} {session : Session}
    (h : Dialogue (.new options) lines replies session) :
    session.shownOperations = session.interpreter.canvas.operations.size ∧
    session.shownErrors = session.interpreter.errors.size ∧
    (∀ before, before <+: session.pending → before ≠ [] →
      before.countP Line.closes < before.countP Line.opens) ∧
    ∀ fuel line reply next, (session.pending ≠ [] ∨ Accepts line) →
      isBalanced (session.pending ++ [line]) = true →
      session.submit fuel line = some (reply, next) →
      ∃ outcome drawn failures last,
        session.interpreter.feed fuel (session.pending ++ [line]) = some outcome ∧
        next.interpreter = outcome.interpreter ∧
        outcome.interpreter.canvas.operations.toList =
          session.interpreter.canvas.operations.toList ++ drawn ∧
        outcome.interpreter.errors.toList = session.interpreter.errors.toList ++ failures ∧
        session.shownOperations ≤ outcome.interpreter.canvas.operations.size ∧
        session.shownErrors ≤ outcome.interpreter.errors.size ∧
        reply = .output (drawn.map Canvas.Operation.description ++
          failures.map (fun failure ↦ "error: ".toList ++ failure.message) ++ last) ∧
        (∀ failure ∈ failures, failure.error.isFatal = false) ∧
        match outcome.result with
        | .ok () => last = []
        | .error error =>
            if error.isFatal then last = ["error: ".toList ++ error.message]
            else last = [] ∧ ∃ before failure, failures = before ++ [failure] ∧
              failure.error = error := by
  have hsettled := h.settled
  refine ⟨hsettled.operations, hsettled.errors, hsettled.waits, ?_⟩
  intro fuel line reply next hline hbalanced hsubmit
  rw [submit_accepted hline, if_pos hbalanced] at hsubmit
  obtain ⟨outcome, hfeed, hshown⟩ := Option.map_eq_some_iff.mp hsubmit
  obtain ⟨rfl, rfl⟩ := Prod.mk.inj hshown
  obtain ⟨failures, drawn, hadds, hreported⟩ := Interpreter.Feeds.adds ⟨fuel, hfeed⟩
  have hlines : (session.waiting line).newLines outcome = _ :=
    hsettled.new_lines hadds
  have hdrawn := congrArg List.length hadds.operations
  have hmissed := congrArg List.length hadds.errors
  rw [List.length_append] at hdrawn hmissed
  refine ⟨outcome, drawn, failures, fatalLines outcome.result, hfeed, rfl, hadds.operations,
    hadds.errors, ?_, ?_, congrArg Reply.output hlines, hreported.harmless, ?_⟩
  · rw [hsettled.operations]
    exact Nat.le.intro hdrawn.symm
  · rw [hsettled.errors]
    exact Nat.le.intro hmissed.symm
  · cases hresult : outcome.result with
    | ok value => rfl
    | error error =>
        simp only [fatalLines]
        split
        · rfl
        · exact ⟨rfl, hreported.last error hresult (Bool.not_eq_true _ ▸ ‹_›)⟩

/-- In strict mode an operation and an error have been shown when a chunk turns out not to nest. -/
theorem session_shows_everything_once_when_strict :
    ∃ replies session reply next drawn failures last,
      Dialogue (.new ⟨true, 256⟩) ["circle 5".toList, "circle y".toList, "if x".toList] replies
        session ∧
      session.submit 0 "endwhile".toList = some (reply, next) ∧
      session.interpreter.canvas.operations.size = 1 ∧ session.interpreter.errors.size = 1 ∧
      next.interpreter.errors.toList = session.interpreter.errors.toList ++ failures ∧
      reply = .output (List.map Canvas.Operation.description drawn ++
        failures.map (fun failure ↦ "error: ".toList ++ failure.message) ++ last) := by
  have hsubmits : ((Session.new ⟨true, 256⟩).submit 4 "circle 5".toList).bind (fun first ↦
      (first.2.submit 4 "circle y".toList).bind fun second ↦
        (second.2.submit 4 "if x".toList).bind fun third ↦
          (third.2.submit 0 "endwhile".toList).map fun _ ↦
            (third.2.pending, third.2.shownOperations, third.2.shownErrors)) =
      some (["if x".toList], 1, 1) := by decide +kernel
  obtain ⟨first, hfirst, hsubmits⟩ := Option.bind_eq_some_iff.mp hsubmits
  obtain ⟨second, hsecond, hsubmits⟩ := Option.bind_eq_some_iff.mp hsubmits
  obtain ⟨third, hthird, hsubmits⟩ := Option.bind_eq_some_iff.mp hsubmits
  obtain ⟨⟨reply, next⟩, hlast, hcounts⟩ := Option.map_eq_some_iff.mp hsubmits
  obtain ⟨hpending, hcounts⟩ := Prod.mk.inj hcounts
  obtain ⟨hshownOperations, hshownErrors⟩ := Prod.mk.inj hcounts
  have hdialogue : Dialogue (.new ⟨true, 256⟩)
      ["circle 5".toList, "circle y".toList, "if x".toList] [first.1, second.1, third.1] third.2 :=
    .submit (.submit (.submit .start hfirst) hsecond) hthird
  obtain ⟨hoperations, herrors, -, hchunk⟩ := session_shows_everything_once hdialogue
  obtain ⟨outcome, drawn, failures, last, -, hnext, -, hfailures, -, -, hreply, -⟩ :=
    hchunk 0 "endwhile".toList reply next (.inl (by simp [hpending]))
      (by rw [hpending]; decide +kernel) hlast
  exact ⟨_, third.2, reply, next, drawn, failures, last, hdialogue, hlast,
    hoperations.symm.trans hshownOperations, herrors.symm.trans hshownErrors,
    hnext ▸ hfailures, hreply⟩

end Session

end PenScript
