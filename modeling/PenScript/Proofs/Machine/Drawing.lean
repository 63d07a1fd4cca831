import PenScript.Proofs.Machine.Feeding
import PenScript.Proofs.Machine.Runs

/-!
# Programs and the canvas

A program draws on the canvas and never looks at it. Two interpreters are twins when they differ in
their canvases only and these have got to where they are from two given ones by the same actions.
`run_twin` says that two runs that start with twins go step for step alike: whatever is on the two
canvases, they get the same actions. Since a run of a whole program starts with everything cleared
but the canvas, it depends on nothing that came before it (`run_starts_clean`).
-/

namespace PenScript

namespace Canvas

/-- An action adds its operation at the end of the log. -/
theorem operations_perform (canvas : Canvas) (action : Action) :
    (canvas.perform action).operations = canvas.operations.push (canvas.record action) := by
  cases action <;> rfl

/-- The canvas after some actions, one after the other. -/
def performAll (canvas : Canvas) (actions : List Action) : Canvas :=
  actions.foldl perform canvas

/-- What some actions record, one after the other. -/
def recordAll (canvas : Canvas) : List Action → List Operation
  | [] => []
  | action :: rest => canvas.record action :: (canvas.perform action).recordAll rest

/-- The log after some actions has what they record at its end. -/
theorem operations_perform_all (canvas : Canvas) (actions : List Action) :
    (canvas.performAll actions).operations.toList =
      canvas.operations.toList ++ canvas.recordAll actions := by
  induction actions generalizing canvas with
  | nil => exact (List.append_nil _).symm
  | cons action rest ih =>
      rw [performAll, List.foldl_cons, ← performAll, ih, operations_perform, Array.toList_push,
        recordAll, List.append_assoc, List.singleton_append]

/-- An operation tells the action that it records. -/
theorem record_injective (canvas : Canvas) {first second : Action}
    (h : canvas.record first = canvas.record second) : first = second := by
  cases first <;> cases second <;> simp_all [record]

/-- The log tells the actions on a canvas. -/
theorem record_all_injective {canvas : Canvas} {first second : List Action}
    (h : canvas.recordAll first = canvas.recordAll second) : first = second := by
  induction first generalizing canvas second with
  | nil =>
      cases second with
      | nil => rfl
      | cons action rest => cases h
  | cons action rest ih =>
      cases second with
      | nil => cases h
      | cons other others =>
          obtain ⟨hfirst, hrest⟩ := List.cons.inj h
          obtain rfl := record_injective canvas hfirst
          rw [ih hrest]

/-- Two lists of actions that lead from one canvas to the same one are the same. -/
theorem perform_all_injective {canvas : Canvas} {first second : List Action}
    (h : canvas.performAll first = canvas.performAll second) : first = second := by
  have hlog := congrArg (fun canvas : Canvas ↦ canvas.operations.toList) h
  simp only [operations_perform_all] at hlog
  exact record_all_injective (List.append_cancel_left hlog)

end Canvas

/-- The interpreter on another canvas. -/
def Interpreter.withCanvas (interpreter : Interpreter) (canvas : Canvas) : Interpreter :=
  { interpreter with canvas := canvas }

/-- The machine on another canvas. -/
def State.withCanvas (state : State) (canvas : Canvas) : State :=
  { state with interpreter := state.interpreter.withCanvas canvas }

/-- The end of a run on another canvas. -/
def Outcome.withCanvas (outcome : Outcome) (canvas : Canvas) : Outcome :=
  { outcome with interpreter := outcome.interpreter.withCanvas canvas }

section Twins

variable (left right : Canvas)

/-- The second interpreter is the first one on another canvas, and their two canvases come from the
given ones by the same actions. -/
def Interpreter.Twin (first second : Interpreter) : Prop :=
  ∃ actions, first.canvas = left.performAll actions ∧
    second = first.withCanvas (right.performAll actions)

/-- The same state of the machine, with twins as interpreters. -/
def State.Twin (first second : State) : Prop :=
  ∃ actions, first.interpreter.canvas = left.performAll actions ∧
    second = first.withCanvas (right.performAll actions)

/-- The same end of a run, with twins as interpreters. -/
def Outcome.Twin (first second : Outcome) : Prop :=
  ∃ actions, first.interpreter.canvas = left.performAll actions ∧
    second = first.withCanvas (right.performAll actions)

variable {left right} {block : Block} {first second : State} {line : Text}

/-- A change is made to twins alike. -/
theorem State.Twin.apply (h : State.Twin left right first second) (target : Nat)
    (frames : List Frame) (change : Change) :
    State.Twin left right (first.apply target frames change)
      (second.apply target frames change) := by
  obtain ⟨actions, hcanvas, rfl⟩ := h
  cases change with
  | nothing => exact ⟨actions, hcanvas, rfl⟩
  | draw action =>
      have hdrawn : ∀ canvas : Canvas,
          canvas.performAll (actions ++ [action]) = (canvas.performAll actions).perform action :=
        fun canvas ↦ List.foldl_append
      refine ⟨actions ++ [action], ?_, ?_⟩
      · rw [hdrawn, ← hcanvas]
        rfl
      · rw [hdrawn]
        rfl
  | bind name value => exact ⟨actions, hcanvas, rfl⟩
  | define method => exact ⟨actions, hcanvas, rfl⟩

/-- Twins deal with a failure alike. -/
theorem State.Twin.failed (h : State.Twin left right first second) (error : Error) :
    Flow.Related (State.Twin left right) (Outcome.Twin left right)
      (first.failed block line error) (second.failed block line error) := by
  obtain ⟨actions, hcanvas, rfl⟩ := h
  have hchange : (first.withCanvas (right.performAll actions)).failed block line error =
      (first.failed block line error).change (·.withCanvas (right.performAll actions)) :=
    failed_change (·.withCanvas (right.performAll actions)) (fun _ ↦ rfl) (fun _ ↦ rfl)
      (fun _ _ ↦ rfl) (fun _ ↦ rfl) first block line error
  rw [hchange]
  rcases failed_cases first block line error with ⟨-, hflow⟩ | ⟨-, ⟨-, hflow⟩ | ⟨-, hflow⟩⟩
  · rw [hflow]
    exact .ended ⟨actions, hcanvas, rfl⟩
  · rw [hflow]
    exact .ended ⟨actions, hcanvas, rfl⟩
  · rw [hflow]
    refine .onward ⟨actions, ?_, rfl⟩
    rw [recover_interpreter]
    exact hcanvas

/-- Calls that go alike for twins. -/
def Calls.KeepTwins (left right : Canvas) (calls : Calls) : Prop :=
  ∀ block scope first second, Interpreter.Twin left right first second →
    Option.Rel (Outcome.Twin left right) (calls block scope first) (calls block scope second)

/-- A line is decided without a look at the canvas, so a step of twins is the same. -/
theorem State.Twin.execute {calls : Calls} (hcalls : calls.KeepTwins left right)
    (h : State.Twin left right first second) :
    Flow.Related (State.Twin left right) (Outcome.Twin left right)
      (first.execute calls block line) (second.execute calls block line) := by
  have hdecide : second.decide block line = first.decide block line := by
    obtain ⟨actions, -, rfl⟩ := h
    rfl
  unfold State.execute
  rw [hdecide]
  cases first.decide block line with
  | error error => exact h.failed error
  | ok decision =>
      cases decision with
      | move target frames change => exact .onward (h.apply target frames change)
      | call call =>
          obtain ⟨actions, hcanvas, rfl⟩ := h
          have hcallee := hcalls call.method.block call.locals first.interpreter.enter
            (first.withCanvas (right.performAll actions)).interpreter.enter ⟨actions, hcanvas, rfl⟩
          simp only [State.carryOut]
          generalize calls call.method.block call.locals first.interpreter.enter = mine,
            calls call.method.block call.locals
              (first.withCanvas (right.performAll actions)).interpreter.enter = other at hcallee ⊢
          cases hcallee with
          | none => exact .unfinished
          | @some callee twin hcallee =>
              obtain ⟨drawn, hdrawn, rfl⟩ := hcallee
              have hreturned : State.Twin left right
                  { first with interpreter := callee.interpreter.leave }
                  { first.withCanvas (right.performAll actions) with
                    interpreter := (callee.withCanvas (right.performAll drawn)).interpreter.leave } :=
                ⟨drawn, hdrawn, rfl⟩
              obtain ⟨result, scope, interpreter⟩ := callee
              cases result with
              | ok finished => exact .onward ⟨drawn, hdrawn, rfl⟩
              | error error => exact hreturned.failed error

/-- Runs that start with twins go alike. They both end or both go on forever. -/
theorem run_twin (fuel : Nat) (h : State.Twin left right first second) :
    Option.Rel (Outcome.Twin left right) (run fuel block first) (run fuel block second) := by
  induction fuel generalizing block first second with
  | zero => exact .none
  | succ fuel ih =>
      have hcursor : second.cursor = first.cursor := by
        obtain ⟨actions, -, rfl⟩ := h
        rfl
      cases hline : block.lines[first.cursor]? with
      | none =>
          rw [run_past hline, run_past (hcursor ▸ hline)]
          obtain ⟨actions, hcanvas, rfl⟩ := h
          exact .some ⟨actions, hcanvas, rfl⟩
      | some line =>
          have hcalls : (runCalls fuel).KeepTwins left right := by
            intro callee scope mine other htwin
            obtain ⟨actions, hcanvas, rfl⟩ := htwin
            exact ih ⟨actions, hcanvas, rfl⟩
          rw [run_succ hline, run_succ (hcursor ▸ hline)]
          exact (h.execute hcalls).finish fun _ _ hnext ↦ ih hnext

end Twins

/-- A run of a program starts clean and never looks at the canvas. Two interpreters with the same
options and commands, whatever has been done with them before, either both end a run of the same
lines or both run forever. They end it with the same result, the same variables, methods and errors,
and the actions that take their canvases from where they were to where they are then are the
same. -/
theorem run_starts_clean {first second : Interpreter} (hoptions : first.options = second.options)
    (hregistry : first.registry = second.registry) (lines : List Text) (fuel : Nat) :
    Option.Rel
      (fun mine other : Interpreter.RunOutcome ↦
        mine.result = other.result ∧
        mine.interpreter.globals = other.interpreter.globals ∧
        mine.interpreter.methods = other.interpreter.methods ∧
        mine.interpreter.errors = other.interpreter.errors ∧
        ∃ actions,
          (∀ drawn, mine.interpreter.canvas = first.canvas.performAll drawn ↔ drawn = actions) ∧
          ∀ drawn, other.interpreter.canvas = second.canvas.performAll drawn ↔ drawn = actions)
      (first.runLines fuel lines) (second.runLines fuel lines) := by
  have hreset : second.reset = first.reset.withCanvas second.canvas := by
    unfold Interpreter.reset Interpreter.withCanvas
    simp only [hoptions, hregistry]
  have honly : ∀ (canvas : Canvas) (actions drawn : List Canvas.Action),
      canvas.performAll actions = canvas.performAll drawn ↔ drawn = actions :=
    fun canvas actions drawn ↦
      ⟨fun h ↦ (Canvas.perform_all_injective h).symm, fun h ↦ by rw [h]⟩
  unfold Interpreter.runLines
  rw [hreset]
  cases hbuild : BlockMap.build lines 1 with
  | error cause =>
      rw [Interpreter.feed_rejected hbuild, Interpreter.feed_rejected hbuild]
      exact .some ⟨rfl, rfl, rfl, rfl, [], honly first.canvas [], honly second.canvas []⟩
  | ok map =>
      obtain ⟨block, hblock, -, -⟩ := @Block.of_lines_ok lines.toArray _ _ hbuild
      have hstart : State.Twin first.canvas second.canvas
          (.start .empty (first.reset.ready lines.length))
          (.start .empty ((first.reset.withCanvas second.canvas).ready lines.length)) :=
        ⟨[], rfl, rfl⟩
      have hfeed : ∀ interpreter : Interpreter, interpreter.nextLine = 1 →
          interpreter.globals = .empty → interpreter.feed fuel lines =
            (run fuel block (.start .empty (interpreter.ready lines.length))).map
              Interpreter.closing := by
        intro interpreter hnumber hglobals
        rw [Interpreter.feed_accepted (hnumber ▸ hblock), hglobals]
      rw [hfeed _ rfl rfl, hfeed _ rfl rfl]
      have htwins := @run_twin _ _ block _ _ fuel hstart
      generalize run fuel block (.start .empty (first.reset.ready lines.length)) = mine,
        run fuel block (.start .empty
          ((first.reset.withCanvas second.canvas).ready lines.length)) = other at htwins ⊢
      cases htwins with
      | none => exact .none
      | some htwin =>
          obtain ⟨actions, hcanvas, rfl⟩ := htwin
          refine .some ⟨rfl, rfl, rfl, rfl, actions, fun drawn ↦ ?_, honly second.canvas actions⟩
          exact hcanvas ▸ honly first.canvas actions drawn

/-- What a strict run has left behind that was ended by an error inside a method is not seen by the
next run. -/
theorem run_starts_clean_after_error :
    let fresh := Interpreter.new ⟨true, 256⟩ .standard
    let halted := ((fresh.draw (.setFill true)).record
      ⟨2, "jump".toList, .undefinedMethod "jump".toList⟩).enter.halt
    let program := ["method m".toList, "clear".toList, "endmethod".toList, "call m".toList]
    ∃ outcome other,
      halted.runLines 8 program = some outcome ∧ fresh.runLines 8 program = some other ∧
      outcome.result = other.result ∧
      outcome.interpreter.errors = other.interpreter.errors ∧
      outcome.interpreter.methods = other.interpreter.methods ∧
      outcome.interpreter.canvas = halted.canvas.performAll [.clear] ∧
      other.interpreter.canvas = fresh.canvas.performAll [.clear] := by
  obtain ⟨outcome, houtcome⟩ : ∃ outcome,
      (((Interpreter.new ⟨true, 256⟩ .standard).draw (.setFill true)).record
        ⟨2, "jump".toList, .undefinedMethod "jump".toList⟩).enter.halt.runLines 8
          ["method m".toList, "clear".toList, "endmethod".toList, "call m".toList] =
        some outcome := ⟨_, rfl⟩
  obtain ⟨other, hother, hcanvas⟩ : ∃ other,
      (Interpreter.new ⟨true, 256⟩ .standard).runLines 8
        ["method m".toList, "clear".toList, "endmethod".toList, "call m".toList] = some other ∧
      other.interpreter.canvas = Canvas.blank.performAll [.clear] := ⟨_, rfl, rfl⟩
  intro fresh halted program
  have hclean := @run_starts_clean halted fresh rfl rfl program 8
  rw [houtcome, hother] at hclean
  cases hclean with
  | some hsame =>
      obtain ⟨hresult, -, hmethods, herrors, actions, hmine, hothers⟩ := hsame
      obtain rfl := (hothers _).mp hcanvas
      exact ⟨outcome, other, houtcome, hother, hresult, herrors, hmethods, (hmine _).mpr rfl,
        hcanvas⟩

end PenScript
