import PenScript.Proofs.Error.Source
import PenScript.Proofs.Machine.Call
import PenScript.Proofs.Value.Arrays

/-!
# Arrays stay well formed

Arrays are values and are copied as such: into variables, into the parameters of methods and back as
their results. A line changes at most one variable of its own scope (`step_well_formed`), so all
variables of a run keep well-formed values (`Runs.well_formed`). `Interpreter.Live` follows a feed
through the methods that it calls and keeps the variables of every caller, and
`arrays_stay_well_formed` draws the conclusion for all of them and for every sequence of feeds.
-/

namespace PenScript

section Decisions

variable {state : State} {block : Block} {line : Text} {target : Nat} {frames : List Frame}

/-- A number in the header of a counting loop is a number. -/
theorem number_number {scope : Scope} {text : Text} {value : Value}
    (h : Loop.number scope text = .ok value) : value.isNumber = true := by
  obtain ⟨found, -, h⟩ := ok_of_bind h
  exact to_number_number (ok_of_map_error h)

/-- The counter of a counting loop starts with a number. -/
theorem bounds_number {scope : Scope} {header : Loop.Header} {bounds : Loop.Bounds}
    (h : Loop.bounds scope header = .ok bounds) : bounds.start.isNumber = true := by
  obtain ⟨start, hstart, h⟩ := ok_of_bind h
  obtain ⟨limit, -, h⟩ := ok_of_bind h
  dsimp only at h
  split at h
  all_goals
    obtain ⟨step, -, h⟩ := ok_of_bind h
    obtain ⟨direction, -, h⟩ := ok_of_bind h
    obtain ⟨-, h⟩ := ok_of_refused h
    obtain rfl := Except.ok.inj h
    exact number_number hstart

/-- The counter of a counting loop stays a number. -/
theorem advance_number {counter step next : Value} (h : Loop.advance counter step = .ok next) :
    next.isNumber = true := by
  unfold Loop.advance at h
  split at h
  · split at h
    · obtain rfl := Except.ok.inj h
      rfl
    · cases h
  · obtain ⟨first, -, h⟩ := ok_of_bind h
    obtain ⟨second, -, h⟩ := ok_of_bind h
    obtain rfl := Except.ok.inj h
    rfl

/-- The header of a counting loop gives its counter a number. -/
theorem decide_for_number {text name : Text} {value : Value}
    (h : state.decideFor block text = .ok (.move target frames (.bind name value))) :
    value.isNumber = true := by
  unfold State.decideFor at h
  split at h
  · cases h
  · obtain ⟨bounds, hbounds, h⟩ := ok_of_bind h
    obtain ⟨closer, -, h⟩ := ok_of_bind h
    obtain ⟨enters, -, h⟩ := ok_of_bind h
    have hstart := bounds_number hbounds
    split at h
    · obtain ⟨-, -, hchange⟩ := Decision.move.inj (Except.ok.inj h)
      exact (Change.bind.inj hchange).2 ▸ hstart
    · obtain ⟨-, -, hchange⟩ := Decision.move.inj (Except.ok.inj h)
      exact (Change.bind.inj hchange).2 ▸ hstart

/-- The closer of a counting loop gives its counter a number. -/
theorem decide_closer_number {kind : BlockKind} {name : Text} {value : Value}
    (h : state.decideCloser block kind = .ok (.move target frames (.bind name value))) :
    value.isNumber = true := by
  unfold State.decideCloser at h
  dsimp only at h
  split at h
  · cases h
  · split at h
    · cases h
    · split at h
      · cases h
      · split at h
        · obtain ⟨current, -, h⟩ := ok_of_bind h
          obtain ⟨next, hnext, h⟩ := ok_of_bind h
          obtain ⟨again, -, h⟩ := ok_of_bind h
          have hcounter := advance_number hnext
          split at h
          · obtain ⟨-, -, hchange⟩ := Decision.move.inj (Except.ok.inj h)
            exact (Change.bind.inj hchange).2 ▸ hcounter
          · obtain ⟨-, -, hchange⟩ := Decision.move.inj (Except.ok.inj h)
            exact (Change.bind.inj hchange).2 ▸ hcounter
        · cases h
        · cases h

/-- A line gives a variable a well-formed value. -/
theorem decide_bind_well_formed (hscope : Scope.WellFormed state.scope) {name : Text}
    {value : Value} (h : state.decide block line = .ok (.move target frames (.bind name value))) :
    value.WellFormed := by
  unfold State.decide at h
  dsimp only at h
  split at h
  · cases h
  · obtain ⟨effect, heffect, h⟩ := ok_of_bind h
    have hwell := statement_well_formed hscope heffect
    cases effect with
    | draw action => cases h
    | bind name value =>
        obtain ⟨-, -, hchange⟩ := Decision.move.inj (Except.ok.inj h)
        exact (Change.bind.inj hchange).2 ▸ hwell
    | call name arguments =>
        obtain ⟨call, -, h⟩ := ok_of_bind h
        cases h
  · obtain ⟨text, -, h⟩ := ok_of_bind h
    obtain ⟨taken, -, h⟩ := ok_of_bind h
    obtain ⟨closer, -, h⟩ := ok_of_bind h
    cases h
  · obtain ⟨closer, -, h⟩ := ok_of_bind h
    obtain ⟨text, -, h⟩ := ok_of_bind h
    obtain ⟨again, -, h⟩ := ok_of_bind h
    cases again <;> cases h
  · exact .of_scalar (Value.not_array_of_number (decide_for_number h))
  · obtain ⟨closer, -, h⟩ := ok_of_bind h
    obtain ⟨method, -, h⟩ := ok_of_bind h
    cases h
  · unfold State.decideElse at h
    split at h <;> cases h
  · exact .of_scalar (Value.not_array_of_number (decide_closer_number h))

end Decisions

section Runs

variable {block : Block} {state : State} {line : Text}

/-- The machine keeps the values well formed when a line has moved it. -/
theorem apply_well_formed (hscope : Scope.WellFormed state.scope) {target : Nat}
    {frames : List Frame} {change : Change}
    (h : state.decide block line = .ok (.move target frames change)) :
    Scope.WellFormed (state.apply target frames change).scope := by
  cases change with
  | nothing | draw action | define method => exact hscope
  | bind name value => exact hscope.insert (decide_bind_well_formed hscope h) name

/-- Values under parameters are well formed when the values are. -/
theorem of_list_well_formed {values : List Value} (hvalues : ∀ value ∈ values, value.WellFormed)
    (parameters : List Text) :
    Scope.WellFormed (NameMap.ofList (parameters.zip values)) := by
  have hbindings : ∀ (bindings : List (Text × Value)) (scope : Scope), scope.WellFormed →
      (∀ binding ∈ bindings, binding.2.WellFormed) →
      Scope.WellFormed
        (bindings.foldl (fun map binding ↦ map.insert binding.1 binding.2) scope) := by
    intro bindings
    induction bindings with
    | nil => exact fun _ hscope _ ↦ hscope
    | cons binding rest ih =>
        intro scope hscope hall
        exact ih _ (hscope.insert (hall binding (.head _)) binding.1)
          fun other hmem ↦ hall other (.tail _ hmem)
  refine hbindings _ _ (fun _ _ hfound ↦ nomatch hfound) fun binding hmem ↦ ?_
  exact hvalues binding.2 (List.of_mem_zip hmem).2

/-- A method starts with copies of values of its caller. -/
theorem prepare_well_formed {interpreter : Interpreter} {name : Text} {arguments : List Text}
    {caller : Scope} {call : Interpreter.Call} (hcaller : caller.WellFormed)
    (h : interpreter.prepare name arguments caller = .ok call) :
    Scope.WellFormed call.locals := by
  obtain ⟨-, -, -, values, hvalues, hlocals⟩ := Interpreter.prepare_ok h
  rw [hlocals]
  refine of_list_well_formed ?_ _
  exact (forall_of_mapM (fun _ _ hvalue ↦ hcaller.known (Expression.evaluate_known hvalue))
    hvalues).2

/-- The result of a method is a copy of one of its values, or zero. -/
theorem result_well_formed {locals : Scope} (hlocals : locals.WellFormed) (method : Method) :
    (method.result locals).WellFormed := by
  have hyields : Scope.Yields locals method.name (method.result locals) := Scope.yields_iff.mpr rfl
  generalize method.result locals = value at hyields ⊢
  cases hyields with
  | exact hfound => exact hlocals _ _ hfound
  | smallest _ hfound _ _ => exact hlocals _ _ hfound
  | zero _ => exact trivial

/-- Dealing with a failure leaves the variables as they are. -/
theorem failed_well_formed {error : Error} {flow : Flow State}
    (hfailed : state.failed block line error = flow) (hscope : Scope.WellFormed state.scope) :
    match flow with
    | .unfinished => True
    | .onward next => Scope.WellFormed next.scope
    | .ended outcome => Scope.WellFormed outcome.scope := by
  rcases failed_cases state block line error with ⟨-, hflow⟩ | ⟨-, ⟨-, hflow⟩ | ⟨-, hflow⟩⟩
  · obtain rfl := hflow.symm.trans hfailed
    exact hscope
  · obtain rfl := hflow.symm.trans hfailed
    exact hscope
  · obtain rfl := hflow.symm.trans hfailed
    dsimp only
    rw [recover_scope]
    exact hscope

/-- A run keeps the values of its variables well formed. -/
theorem Runs.well_formed {outcome : Outcome} (h : Runs block state outcome)
    (hscope : Scope.WellFormed state.scope) : Scope.WellFormed outcome.scope := by
  induction h with
  | past => exact hscope
  | move _ hdecide _ ih => exact ih (apply_well_formed hscope hdecide)
  | @call _ state _ call callee _ _ hdecide _ _ _ ihcallee ih =>
      obtain ⟨-, name, arguments, -, hprepare⟩ := decide_call hdecide
      have hcallee := ihcallee (prepare_well_formed hscope hprepare)
      exact ih (hscope.insert (result_well_formed hcallee call.method) call.method.name)
  | recover _ _ hfailed _ ih => exact ih (failed_well_formed hfailed hscope)
  | stop _ _ hfailed => exact failed_well_formed hfailed hscope
  | recoverCall _ _ _ _ hfailed _ _ ih => exact ih (failed_well_formed hfailed hscope)
  | stopCall _ _ _ _ hfailed _ => exact failed_well_formed hfailed hscope

/-- A step of the machine keeps the values of its variables well formed, when it calls a method
too. -/
theorem step_well_formed {fuel : Nat} {next : State} (hscope : Scope.WellFormed state.scope)
    (hstep : state.execute (runCalls fuel) block line = .onward next) :
    Scope.WellFormed next.scope := by
  unfold State.execute at hstep
  cases hdecide : state.decide block line with
  | error error =>
      rw [hdecide] at hstep
      exact failed_well_formed hstep hscope
  | ok decision =>
      rw [hdecide] at hstep
      cases decision with
      | move target frames change =>
          obtain rfl := Flow.onward.inj hstep
          exact apply_well_formed hscope hdecide
      | call call =>
          obtain ⟨-, name, arguments, -, hprepare⟩ := decide_call hdecide
          rw [State.carryOut, runCalls] at hstep
          cases hrun : run fuel call.method.block (.start call.locals state.interpreter.enter) with
          | none =>
              rw [hrun] at hstep
              cases hstep
          | some callee =>
              have hcallee := (runs_of_run hrun).well_formed (prepare_well_formed hscope hprepare)
              simp only [hrun, State.returned] at hstep
              cases hresult : callee.result with
              | ok finished =>
                  rw [hresult] at hstep
                  obtain rfl := Flow.onward.inj hstep
                  exact hscope.insert (result_well_formed hcallee call.method) call.method.name
              | error error =>
                  rw [hresult] at hstep
                  exact failed_well_formed hstep hscope

end Runs

namespace Interpreter

variable {interpreter : Interpreter} {lines : List Text}

/-- A feed keeps the values of the global variables well formed. -/
theorem feed_well_formed (hglobals : Scope.WellFormed interpreter.globals) {fuel : Nat}
    {outcome : RunOutcome} (hfeed : interpreter.feed fuel lines = some outcome) :
    Scope.WellFormed outcome.interpreter.globals := by
  cases hbuild : BlockMap.build lines interpreter.nextLine with
  | error cause =>
      rw [feed_rejected hbuild] at hfeed
      obtain rfl := Option.some.inj hfeed
      exact hglobals
  | ok map =>
      obtain ⟨block, hblock, -, -⟩ := @Block.of_lines_ok lines.toArray _ _ hbuild
      obtain ⟨last, hends, rfl⟩ := (feeds_iff hblock).mp ⟨fuel, hfeed⟩
      exact (ends_iff_runs.mp hends).well_formed hglobals

/-- The global variables of an interpreter have well-formed values between any two feeds. -/
theorem Fed.well_formed {program : List Text} (h : interpreter.Fed program) :
    Scope.WellFormed interpreter.globals := by
  induction h with
  | new options registry => exact fun _ _ hfound ↦ nomatch hfound
  | reset _ _ => exact fun _ _ hfound ↦ nomatch hfound
  | setStrict strict _ ih => exact ih
  | clearCanvas _ ih => exact ih
  | feed _ hfeed ih => exact feed_well_formed ih hfeed
  | @run interpreter _ _ _ _ _ hrun _ =>
      have hclean : Scope.WellFormed interpreter.reset.globals := fun _ _ hfound ↦ nomatch hfound
      exact feed_well_formed hclean hrun

/-- The interpreter is being fed the lines, and the machine is in a block. The scopes are those of
the callers that wait for it, innermost first; the last of all scopes holds the global variables. -/
inductive Live (interpreter : Interpreter) (lines : List Text) :
    List Scope → Block → State → Prop where
  | feed {block : Block} :
      Block.ofLines lines.toArray interpreter.nextLine = .ok block →
      Live interpreter lines [] block (.start interpreter.globals (interpreter.ready lines.length))
  | step {callers : List Scope} {block : Block} {state next : State} {line : Text} {fuel : Nat} :
      Live interpreter lines callers block state → block.lines[state.cursor]? = some line →
      state.execute (runCalls fuel) block line = .onward next →
      Live interpreter lines callers block next
  | call {callers : List Scope} {block : Block} {state : State} {line : Text} {call : Call} :
      Live interpreter lines callers block state → block.lines[state.cursor]? = some line →
      state.decide block line = .ok (.call call) →
      Live interpreter lines (state.scope :: callers) call.method.block
        (.start call.locals state.interpreter.enter)

/-- At every point of a feed the variables of the machine and those of all callers have well-formed
values. -/
theorem Live.well_formed {callers : List Scope} {block : Block} {state : State}
    (h : interpreter.Live lines callers block state)
    (hglobals : Scope.WellFormed interpreter.globals) :
    ∀ scope ∈ state.scope :: callers, Scope.WellFormed scope := by
  induction h with
  | feed _ => exact List.forall_mem_singleton.mpr hglobals
  | step _ _ hstep ih =>
      obtain ⟨hscope, hcallers⟩ := List.forall_mem_cons.mp ih
      exact List.forall_mem_cons.mpr ⟨step_well_formed hscope hstep, hcallers⟩
  | call _ _ hdecide ih =>
      obtain ⟨hscope, -⟩ := List.forall_mem_cons.mp ih
      obtain ⟨-, name, arguments, -, hprepare⟩ := decide_call hdecide
      exact List.forall_mem_cons.mpr ⟨prepare_well_formed hscope hprepare, ih⟩

/-- Arrays stay well formed, whatever is fed to an interpreter and whenever it is looked at: at
every point of a feed, all arrays in the global variables and in those of all methods that are being
run have between one and `2 ^ 24` elements, and all matrices have a row and a column at least and
one cell for each row and column. So does every array that is made next. An element that is loaded
is one of the stored ones, and a store sets one of them and keeps all sizes; there are as many
indices as the array takes. -/
theorem arrays_stay_well_formed {program : List Text} (h : interpreter.Fed program) :
    Scope.WellFormed interpreter.globals ∧
    ∀ lines callers block state, interpreter.Live lines callers block state →
      ∀ scope ∈ state.scope :: callers, Scope.WellFormed scope ∧
        (∀ text effect, Command.allocation scope text = .ok effect →
          ∃ name array, effect = .bind name array ∧ array.isArray = true ∧ array.WellFormed) ∧
        (∀ text effect, Command.load scope text = .ok effect →
          ∃ target name array indices place value, effect = .bind target value ∧
            scope.get? name = some array ∧ array.rank? = some indices.length ∧
            array.place name indices = .ok place ∧ array.elements[place]? = some value) ∧
        ∀ text effect, Command.store scope text = .ok effect →
          ∃ name array indices place stored updated, effect = .bind name updated ∧
            scope.get? name = some array ∧ array.rank? = some indices.length ∧
            array.place name indices = .ok place ∧ place < array.elements.length ∧
            updated.elements = array.elements.set place stored ∧ updated.sizes = array.sizes := by
  refine ⟨h.well_formed, fun lines callers block state hlive scope hmem ↦
    ⟨hlive.well_formed h.well_formed scope hmem,
      fun text effect hallocation ↦ Command.allocation_ok hallocation, ?_, ?_⟩⟩
  · intro text effect hload
    obtain ⟨target, name, array, indices, value, rfl, hget, hrank, hvalue⟩ := Command.load_ok hload
    obtain ⟨place, hplace, hstored⟩ := element_ok hvalue
    exact ⟨target, name, array, indices, place, value, rfl, hget, hrank, hplace, hstored⟩
  · intro text effect hstore
    obtain ⟨name, array, indices, value, updated, rfl, hget, hrank, hupdated⟩ :=
      Command.store_ok hstore
    obtain ⟨place, stored, hplace, hlt, helements, hsizes⟩ := set_element_ok hupdated
    exact ⟨name, array, indices, place, stored, updated, rfl, hget, hrank, hplace, hlt, helements,
      hsizes⟩

/-- A matrix that was made by one feed is passed to a method by another, which keeps a copy of its
own. -/
theorem arrays_stay_well_formed_in_method :
    ∃ (interpreter : Interpreter) (program : List Text) (block : Block) (state : State)
      (array : Value),
      interpreter.Fed program ∧
      interpreter.Live ["call m(a)".toList] [interpreter.globals] block state ∧
      state.scope.get? "b".toList = some array ∧ array.sizes = [2, 3] ∧ array.WellFormed := by
  let program := ["array int a 2,3".toList, "poke a 1 2 = 7".toList, "method m(b)".toList,
    "poke b 0 0 = 9".toList, "m = b".toList, "endmethod".toList]
  let block (number : Nat) : Block :=
    ⟨#["call m(a)".toList], number, ⟨#[none], #[none]⟩, rfl⟩
  have hcomputed : ((Interpreter.new {} .standard).feed 8 program).map (fun fed ↦
      match (State.start fed.interpreter.globals (fed.interpreter.ready 1)).decide
        (block fed.interpreter.nextLine) "call m(a)".toList with
      | .ok (.call call) => (call.locals.get? "b".toList).map Value.sizes
      | _ => none) = some (some [2, 3]) := by decide +kernel
  obtain ⟨fed, hfeed, hcomputed⟩ := Option.map_eq_some_iff.mp hcomputed
  split at hcomputed
  · rename_i call hdecide
    obtain ⟨array, hget, hsizes⟩ := Option.map_eq_some_iff.mp hcomputed
    have hfed := (Fed.new {} .standard).feed hfeed
    have hblock : Block.ofLines ["call m(a)".toList].toArray fed.interpreter.nextLine =
      .ok (block fed.interpreter.nextLine) := rfl
    have hlive := (Live.feed hblock).call rfl hdecide
    have hwell := ((arrays_stay_well_formed hfed).2 _ _ _ _ hlive _ (.head _)).1
    exact ⟨_, _, _, _, array, hfed, hlive, hget, hsizes, hwell _ _ hget⟩
  · cases hcomputed

end Interpreter

end PenScript
