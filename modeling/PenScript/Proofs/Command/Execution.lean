import PenScript.Command.Execution
import PenScript.Proofs.Machine.Call
import PenScript.Proofs.Value.Arrays

/-!
# Commands do what their effects say

A command that works step by step first reads and then acts once. `Work.Reads` says of a piece of
work that it leaves the world as it is, and `Work.Performs` that it carries out a given effect, or
fails with the world as it was. Reading may come before such a piece (`Work.Performs.bind`), but
nothing else may: a command that drew or set a variable and then failed would perform no effect.

`Command.performs_effect` says that every command performs its own effect, and
`Registry.performs_statement` the same of a whole statement. So what a statement line does in a run,
where its effect is known before it is carried out, is what it does step by step (`attempt_work`),
and outside strict mode it has changed nothing when it fails (`Registry.failed_statement`).
-/

namespace PenScript

namespace Work

/-- The work only reads: it comes to this, and the world is the same afterwards. -/
def Reads {α : Type} (work : Work α) (world : World) (result : Except Error α) : Prop :=
  work.run.run world = some (result, world)

/-- The work ends as the carrying out of the effect does. When there is none, it fails and leaves
the world as it was. -/
def Performs (fuel : Nat) (work : Work Unit) (world : World) (effect : Except Error Effect) :
    Prop :=
  work.outcome world = world.interpreter.perform fuel world.scope effect

variable {α β : Type} {world : World} {work : Work α} {first : Except Error α} {fuel : Nat}

/-- Work goes on in the world that is left, and ends where it fails. -/
theorem run_bind (work : Work α) (rest : α → Work β) (world : World) :
    (work >>= rest).run.run world = (work.run.run world).bind fun (result, after) ↦
      ExceptT.bindCont rest result after :=
  rfl

namespace Reads

/-- What does not look at the world leaves it as it is. -/
theorem lift (result : Except Error α) : (liftM result : Work α).Reads world result :=
  rfl

theorem pure (value : α) : (Pure.pure value : Work α).Reads world (.ok value) :=
  rfl

/-- An expression is evaluated in the variables as they are. -/
theorem evaluate (text : Text) :
    (Work.evaluate text).Reads world (Expression.evaluate world.scope text) :=
  rfl

/-- A variable is looked up among the variables as they are. -/
theorem look_up (name : Text) :
    (Work.lookUp name).Reads world (Command.variableOf world.scope name) :=
  rfl

/-- Work that reads and goes on to read has only read. -/
theorem bind (h : work.Reads world first) {rest : α → Work β} {next : α → Except Error β}
    (hrest : ∀ value, first = .ok value → (rest value).Reads world (next value)) :
    (work >>= rest).Reads world (first >>= next) := by
  rw [Reads, run_bind, h]
  cases first with
  | error error => rfl
  | ok value => exact hrest value rfl

/-- Expressions are read one after another in the same variables. -/
theorem evaluate_all (texts : List Text) :
    (texts.mapM Work.evaluate).Reads world (texts.mapM (Expression.evaluate world.scope)) := by
  induction texts with
  | nil => exact .pure []
  | cons text rest ih =>
      rw [List.mapM_cons, List.mapM_cons]
      exact (evaluate text).bind fun value _ ↦ ih.bind fun values _ ↦ .pure (value :: values)

end Reads

namespace Performs

/-- Work that fails at once has no effect. -/
theorem throw (error : Error) :
    Performs fuel (MonadExcept.throw error) world (.error error) :=
  rfl

/-- Drawing is the effect of an action. -/
theorem draw (action : Canvas.Action) :
    Performs fuel (Work.draw action) world (.ok (.draw action)) :=
  rfl

/-- Giving a variable a value is the effect of a binding. -/
theorem define (name : Text) (value : Value) :
    Performs fuel (Work.define name value) world (.ok (.bind name value)) :=
  rfl

/-- A call, and the binding of its result, is the effect of a call. -/
theorem call (name : Text) (arguments : List Text) :
    Performs fuel (do
      let (declared, result) ← Work.callMethod fuel name arguments
      Work.define declared result) world (.ok (.call name arguments)) := by
  rw [Performs, outcome, run_bind]
  show Option.map _ (Option.bind (Option.map _
    (world.interpreter.callMethod fuel name arguments world.scope)) _) = Option.map _ _
  cases world.interpreter.callMethod fuel name arguments world.scope with
  | none => rfl
  | some outcome =>
      obtain ⟨result, after⟩ := outcome
      cases result <;> rfl

/-- Work may read before it acts. What it reads decides on what it does. -/
theorem bind (h : work.Reads world first) {rest : α → Work Unit} {next : α → Except Error Effect}
    (hrest : ∀ value, first = .ok value → Performs fuel (rest value) world (next value)) :
    Performs fuel (work >>= rest) world (first >>= next) := by
  rw [Performs, outcome, run_bind, h]
  cases first with
  | error error => rfl
  | ok value => exact hrest value rfl

/-- Work may look at the variables before it acts. -/
theorem of_scope {rest : Scope → Work Unit} {effect : Except Error Effect}
    (h : Performs fuel (rest world.scope) world effect) :
    Performs fuel (Work.scope >>= rest) world effect :=
  h

/-- Work that looks a variable up again finds it as before. -/
theorem again {name : Text} {value : Value} {rest : Value → Work Unit}
    {effect : Except Error Effect} (hvalue : Command.variableOf world.scope name = .ok value)
    (h : Performs fuel (rest value) world effect) :
    Performs fuel (Work.lookUp name >>= rest) world effect := by
  rw [Performs, outcome, run_bind, Reads.look_up name, hvalue]
  exact h

/-- Work may be refused before it acts. -/
theorem refuse {refused : Prop} [Decidable refused] {error : Error} {others : PUnit → Work Unit}
    {more : PUnit → Except Error Effect} {rest : Work Unit} {next : Except Error Effect}
    (h : ¬ refused → Performs fuel rest world next) :
    Performs fuel (if refused then MonadExcept.throw error >>= others else rest) world
      (if refused then MonadExcept.throw error >>= more else next) := by
  by_cases hrefused : refused
  · rw [if_pos hrefused, if_pos hrefused]
    rfl
  · rw [if_neg hrefused, if_neg hrefused]
    exact h hrefused

end Performs

end Work

open Work (Performs)

variable {world : World} {fuel : Nat} {text : Text}

namespace Command

/-- A command that draws at a point evaluates both coordinates and then draws. -/
theorem performs_point (shape : Text) (action : Point → Canvas.Action) :
    Performs fuel (executePoint shape action text) world
      ((point world.scope shape text).map (.draw <| action ·)) := by
  show Performs _ _ _ ((fun target ↦ Effect.draw (action target)) <$> point world.scope shape text)
  simp only [point, evaluatePair, map_bind, bind_assoc, pure_bind]
  refine .bind (.lift _) fun parts _ ↦ ?_
  refine .bind (.evaluate _) fun left _ ↦ ?_
  refine .bind (.evaluate _) fun right _ ↦ ?_
  refine .bind (.lift _) fun x _ ↦ ?_
  refine .bind (.lift _) fun y _ ↦ ?_
  exact .draw (action ⟨x, y⟩)

/-- A command that draws a shape checks both sizes and then draws. -/
theorem performs_sizes (shape : Text) (action : Int32 → Int32 → Canvas.Action) :
    Performs fuel (executeSizes shape action text) world
      ((sizes world.scope shape text).map fun (width, height) ↦ .draw (action width height)) := by
  show Performs _ _ _ ((fun (width, height) ↦ Effect.draw (action width height)) <$>
    sizes world.scope shape text)
  simp only [sizes, evaluatePair, map_bind, bind_assoc, pure_bind]
  refine .bind (.lift _) fun parts _ ↦ ?_
  refine .bind (.evaluate _) fun left _ ↦ ?_
  refine .bind (.evaluate _) fun right _ ↦ ?_
  refine .bind (.lift _) fun width _ ↦ ?_
  refine .bind (.lift _) fun height _ ↦ ?_
  exact .draw (action width height)

/-- A circle is drawn when its radius has been checked. -/
theorem performs_circle :
    Performs fuel (executeCircle text) world
      ((radius world.scope text).map (.draw <| .circle ·)) := by
  show Performs _ _ _ ((fun found ↦ Effect.draw (.circle found)) <$> radius world.scope text)
  simp only [radius, map_bind]
  refine .bind (.lift _) fun argument _ ↦ ?_
  refine .bind (.evaluate _) fun value _ ↦ ?_
  rw [map_eq_pure_bind]
  exact .bind (.lift _) fun found _ ↦ .draw (.circle found)

/-- The name of a colour is drawn with at once, three components are all evaluated and checked
first. -/
theorem performs_colour :
    Performs fuel (executeColour text) world
      ((colour world.scope text).map (.draw <| .setColour ·)) := by
  show Performs _ _ _ ((fun found ↦ Effect.draw (.setColour found)) <$> colour world.scope text)
  refine .of_scope ?_
  unfold colour
  by_cases hnamed : (Text.isIdentifier text && !world.scope.contains text) = true
  · rw [if_pos hnamed, if_pos hnamed]
    cases namedColour? text with
    | none => exact .throw (.argument (.unknownColour text))
    | some found => exact .draw (.setColour found)
  · rw [if_neg hnamed, if_neg hnamed]
    simp only [map_bind]
    refine .bind (.lift _) fun parts _ ↦ ?_
    simp only [map_pure]
    refine .bind (.evaluate _) fun r _ ↦ ?_
    refine .bind (.evaluate _) fun g _ ↦ ?_
    refine .bind (.evaluate _) fun b _ ↦ ?_
    refine .bind (.lift _) fun red _ ↦ ?_
    refine .bind (.lift _) fun green _ ↦ ?_
    refine .bind (.lift _) fun blue _ ↦ ?_
    exact .draw (.setColour ⟨red, green, blue⟩)

/-- The fill state is set when the word for it is known. -/
theorem performs_fill :
    Performs fuel (executeFill text) world ((fillState text).map (.draw <| .setFill ·)) := by
  show Performs _ _ _ ((fun on ↦ Effect.draw (.setFill on)) <$> fillState text)
  rw [map_eq_pure_bind]
  exact .bind (.lift _) fun on _ ↦ .draw (.setFill on)

/-- A text is written when its expression has a value. -/
theorem performs_writing :
    Performs fuel (executeWriting text) world
      ((written world.scope text).map (.draw <| .write ·)) := by
  show Performs _ _ _ ((fun found ↦ Effect.draw (.write found)) <$> written world.scope text)
  simp only [written, map_bind]
  refine .bind (.lift _) fun argument _ ↦ ?_
  refine .bind (.evaluate _) fun value _ ↦ ?_
  exact .draw (.write value.drawnText)

/-- A command without arguments draws unless there are some. -/
theorem performs_plainly (command : Command) (action : Canvas.Action) :
    Performs fuel (command.executePlainly action text) world
      (command.withoutArguments text (.draw action)) := by
  unfold executePlainly withoutArguments
  cases text with
  | nil => exact .draw action
  | cons c rest => exact .throw (.argument (.noArguments command.keyword))

/-- A declaration converts the value and then defines the variable. -/
theorem performs_declaration (kind : VariableKind) :
    Performs fuel (executeDeclaration kind text) world (declaration kind world.scope text) := by
  refine .bind (.lift _) fun parts _ ↦ ?_
  obtain ⟨name, expression⟩ := parts
  cases expression with
  | none => exact .define name kind.initial
  | some expression =>
      refine .bind (.evaluate _) fun value _ ↦ ?_
      refine .bind (.lift _) fun converted _ ↦ ?_
      exact .define name converted

/-- An assignment looks at the variable that it is about to change, and converts the value first. -/
theorem performs_assignment :
    Performs fuel (executeAssignment text) world (assignment world.scope text) := by
  refine .bind (.lift _) fun parts _ ↦ ?_
  obtain ⟨name, expression⟩ := parts
  cases expression with
  | none => exact .throw (Arguments.notExpected "name = expression".toList)
  | some expression =>
      refine .bind (.evaluate _) fun value _ ↦ ?_
      refine .of_scope ?_
      dsimp only
      cases world.scope.get? name with
      | none => exact .define name value
      | some existing =>
          dsimp only
          by_cases harray : existing.isArray = true
          · rw [if_pos harray, if_pos harray]
            exact .throw (.typeMismatch ⟨existing.typeName, value.typeName⟩)
          · rw [if_neg harray, if_neg harray]
            cases VariableKind.ofValue? existing with
            | none => exact .define name value
            | some kind =>
                exact .bind (.lift _) fun converted _ ↦ .define name converted

/-- A conversion to an integer converts the value and then defines the variable. -/
theorem performs_conversion :
    Performs fuel (executeConversion text) world (conversion world.scope text) := by
  refine .bind (.lift _) fun name _ ↦ ?_
  refine .refuse fun _ ↦ ?_
  refine .bind (.evaluate _) fun value _ ↦ ?_
  refine .bind (.lift _) fun number _ ↦ ?_
  exact .define name (.integer number)

/-- An array of zeros is created in one step, when there is one of the element type. -/
theorem performs_creation (name element shape : Text) (rows : Nat) (columns : Option Nat) :
    Performs fuel
      (match zeroArray? element rows columns with
        | some created => Work.define name created
        | none => throw (.argument (.unknownElementType element shape)))
      world
      (match zeroArray? element rows columns with
        | some created => pure (.bind name created)
        | none => throw (.argument (.unknownElementType element shape))) := by
  cases zeroArray? element rows columns with
  | none => exact .throw (.argument (.unknownElementType element shape))
  | some created => exact .define name created

/-- The creation of an array checks its sizes before anything else. An array of one dimension is not
too large, because its one size is not. -/
theorem performs_allocation :
    Performs fuel (executeAllocation text) world (allocation world.scope text) := by
  refine .bind (.lift _) fun name _ ↦ ?_
  refine .refuse fun hshape ↦ ?_
  generalize Arguments.list (Line.splitWord (Line.splitWord text).2).2 = sizes at hshape ⊢
  simp only [Bool.or_eq_true, decide_eq_true_eq, not_or, Nat.not_lt] at hshape
  obtain ⟨⟨-, hsome⟩, hfew⟩ := hshape
  match sizes with
  | [] => exact absurd rfl hsome
  | [size] =>
      simp only [List.zip_cons_cons, List.zip_nil_left, List.mapM_cons, List.mapM_nil, bind_assoc,
        pure_bind]
      refine .bind (.evaluate size) fun value _ ↦ ?_
      refine .bind (.lift _) fun rows hrows ↦ ?_
      have hfits : ¬ Value.maxElements < [rows].headD 1 * [rows][1]?.getD 1 := by
        show ¬ 16777216 < rows * 1
        have hrows := (to_length_ok hrows).2
        omega
      rw [if_neg hfits]
      exact performs_creation name _ _ rows none
  | [size, other] =>
      simp only [List.zip_cons_cons, List.zip_nil_left, List.mapM_cons, List.mapM_nil, bind_assoc,
        pure_bind]
      refine .bind (.evaluate size) fun value _ ↦ ?_
      refine .bind (.lift _) fun rows _ ↦ ?_
      refine .bind (.evaluate other) fun value _ ↦ ?_
      refine .bind (.lift _) fun columns _ ↦ ?_
      simp only [Option.any_some, decide_eq_true_eq]
      exact .refuse fun _ ↦ performs_creation name _ _ rows (some columns)
  | _ :: _ :: _ :: rest =>
      simp only [List.length_cons] at hfew
      omega

/-- A store looks the array up again when the indices and the value are known. It is still the same
one, because nothing has been changed in between. -/
theorem performs_store : Performs fuel (executeStore text) world (store world.scope text) := by
  refine .bind (.lift _) fun name _ ↦ ?_
  refine .bind (.look_up _) fun array harray ↦ ?_
  refine .refuse fun _ ↦ ?_
  refine .bind (.lift _) fun _ _ ↦ ?_
  refine .bind (.evaluate_all _) fun indices _ ↦ ?_
  refine .bind (.evaluate _) fun value _ ↦ ?_
  refine .again harray ?_
  exact .bind (.lift _) fun updated _ ↦ .define name updated

/-- A load looks the array up twice as well. -/
theorem performs_load : Performs fuel (executeLoad text) world (load world.scope text) := by
  refine .bind (.lift _) fun target _ ↦ ?_
  refine .refuse fun _ ↦ ?_
  refine .bind (.lift _) fun name _ ↦ ?_
  refine .bind (.look_up _) fun array harray ↦ ?_
  refine .bind (.lift _) fun _ _ ↦ ?_
  refine .bind (.evaluate_all _) fun indices _ ↦ ?_
  refine .again harray ?_
  exact .bind (.lift _) fun value _ ↦ .define target value

/-- A call reads all its arguments before the method is called. -/
theorem performs_invocation :
    Performs fuel (executeInvocation fuel text) world (invocation text) := by
  refine .bind (.lift _) fun name _ ↦ ?_
  refine .bind (.lift _) fun arguments _ ↦ ?_
  refine .refuse fun _ ↦ ?_
  exact .call name arguments

/-- A command works out its effect before it changes anything, and then carries it out. -/
theorem performs_effect (command : Command) :
    Performs fuel (command.execute fuel text) world (command.effect world.scope text) := by
  cases command with
  | moveTo | drawTo => exact performs_point _ _
  | rectangle | triangle => exact performs_sizes _ _
  | circle => exact performs_circle
  | penColour => exact performs_colour
  | fill => exact performs_fill
  | write => exact performs_writing
  | clear | reset => exact performs_plainly _ _
  | declare kind => exact performs_declaration kind
  | array => exact performs_allocation
  | poke => exact performs_store
  | peek => exact performs_load
  | cast => exact performs_conversion
  | call => exact performs_invocation

end Command

namespace Registry

variable {registry : Registry}

/-- A keyword with its arguments performs the effect that they have. -/
theorem performs_dispatch (keyword arguments : Text) :
    Performs fuel (registry.execute fuel keyword arguments) world
      (registry.dispatch world.scope keyword arguments) := by
  unfold execute dispatch
  cases registry.find? keyword with
  | none => exact .throw _
  | some command => exact command.performs_effect

/-- An assignment performs its effect. -/
theorem performs_assign (line : Text) :
    Performs fuel (registry.executeAssignment line) world (registry.assign world.scope line) := by
  unfold executeAssignment assign
  dsimp only
  split
  · exact .throw _
  · exact Command.performs_assignment

/-- A statement performs its effect, whether it is an assignment or a command. -/
theorem performs_statement (line : Text) :
    Performs fuel (registry.executeStatement fuel line) world
      (registry.statement world.scope line) := by
  unfold executeStatement statement
  dsimp only
  split
  · exact .throw _
  · split
    · exact performs_assign _
    · exact performs_dispatch _ _

end Registry

/-- A statement line of a run does what the statement does step by step. -/
theorem attempt_work {state : State} {block : Block} {line : Text}
    (hkind : Line.kind line = .statement) :
    state.attempt (runCalls fuel) block line =
      ((state.interpreter.registry.executeStatement fuel line).outcome
        ⟨state.scope, state.interpreter⟩).map state.afterStatement := by
  rw [attempt_statement hkind, Registry.performs_statement]

/-- What fails to be carried out has changed nothing in a run that is neither strict nor halted: no
error comes back from the body of a method there. -/
theorem Interpreter.Lenient.perform_failed {interpreter : Interpreter} (h : interpreter.Lenient)
    {scope : Scope} {effect : Except Error Effect} {outcome : Outcome} {error : Error}
    (hperform : interpreter.perform fuel scope effect = some outcome)
    (hfails : outcome.result = .error error) : outcome = ⟨.error error, scope, interpreter⟩ := by
  cases effect with
  | error found =>
      obtain rfl := Option.some.inj hperform
      obtain rfl := Except.error.inj hfails
      rfl
  | ok effect =>
      cases effect with
      | draw action =>
          obtain rfl := Option.some.inj hperform
          cases hfails
      | bind name value =>
          obtain rfl := Option.some.inj hperform
          cases hfails
      | call name arguments =>
          obtain ⟨returned, hcall, rfl⟩ := Option.map_eq_some_iff.mp hperform
          unfold Interpreter.callMethod at hcall
          cases hprepare : interpreter.prepare name arguments scope with
          | error found =>
              rw [hprepare] at hcall
              obtain rfl := Option.some.inj hcall
              obtain rfl := Except.error.inj hfails
              rfl
          | ok call =>
              rw [hprepare] at hcall
              obtain ⟨callee, hrun, rfl⟩ := Option.map_eq_some_iff.mp hcall
              have hok : callee.result = .ok () := h.enter.result_ok ⟨fuel, hrun⟩
              rw [hok] at hfails
              cases hfails

/-- A statement that fails in a run that is neither strict nor halted leaves the variables and the
interpreter as they were, whatever it has done step by step until then. -/
theorem Registry.failed_statement {registry : Registry} {line : Text} {outcome : Outcome}
    {error : Error} (h : world.interpreter.Lenient)
    (hwork : (registry.executeStatement fuel line).outcome world = some outcome)
    (hfails : outcome.result = .error error) :
    outcome = ⟨.error error, world.scope, world.interpreter⟩ :=
  h.perform_failed ((performs_statement line).symm.trans hwork) hfails

end PenScript
