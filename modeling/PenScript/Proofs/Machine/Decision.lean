import PenScript.Interpreter
import PenScript.Proofs.Block.Build
import PenScript.Proofs.Error.Result

/-!
# What a decision tells about its line

`State.decide` looks at the kind of a line first. Read backwards, a decision tells what kind of line
it came from: a method is called only by a statement that was prepared (`decide_call`), and one is
defined only by a header, with the lines up to its closer as the body (`decide_define`). The other
lines of the block structure move the cursor and set a variable at most. A blank line and a comment
do nothing and never fail.
-/

namespace PenScript

/-- A blank line or a comment is skipped. -/
theorem Line.kind_skipped_iff {line : Text} :
    Line.kind line = .skipped ↔ Line.isSkipped line = true := by
  by_cases hskipped : Line.isSkipped line = true
  · rw [Line.kind, if_pos hskipped]
    exact iff_of_true rfl hskipped
  · refine iff_of_false (fun h ↦ ?_) hskipped
    unfold Line.kind at h
    rw [if_neg hskipped] at h
    dsimp only at h
    split at h
    · cases h
    · split at h
      · cases h
      · split at h
        · cases h
        · split at h <;> cases h

/-- The decision moves the cursor, and sets one variable or changes nothing. -/
inductive Decision.IsMove : Decision → Prop where
  | nothing (target : Nat) (frames : List Frame) : IsMove (.move target frames .nothing)
  | bind (target : Nat) (frames : List Frame) (name : Text) (value : Value) :
      IsMove (.move target frames (.bind name value))

/-- The decision that a line ends with moves the cursor. -/
theorem Decision.IsMove.of_ok {decision other : Decision} (hdecision : decision.IsMove)
    (h : (.ok decision : Except Error Decision) = .ok other) : other.IsMove := by
  obtain rfl := Except.ok.inj h
  exact hdecision

section Decisions

variable {state : State} {block : Block} {line : Text}

/-- Only statements and the headers of methods do more than move the cursor and set a variable. -/
theorem decide_is_move (hstatement : Line.kind line ≠ .statement)
    (hmethod : Line.kind line ≠ .opener .method) {decision : Decision}
    (h : state.decide block line = .ok decision) : decision.IsMove := by
  unfold State.decide at h
  cases hkind : Line.kind line with
  | statement => exact absurd hkind hstatement
  | skipped =>
      rw [hkind] at h
      exact .of_ok (.nothing _ _) h
  | otherwise =>
      simp only [hkind, State.decideElse] at h
      split at h
      · exact .of_ok (.nothing _ _) h
      · exact .of_ok (.nothing _ _) h
      · cases h
  | opener kind =>
      rw [hkind] at h
      cases kind with
      | method => exact absurd hkind hmethod
      | conditional =>
          obtain ⟨text, -, h⟩ := ok_of_bind h
          obtain ⟨taken, -, h⟩ := ok_of_bind h
          obtain ⟨closer, -, h⟩ := ok_of_bind h
          exact .of_ok (.nothing _ _) h
      | whileLoop =>
          obtain ⟨closer, -, h⟩ := ok_of_bind h
          obtain ⟨text, -, h⟩ := ok_of_bind h
          obtain ⟨again, -, h⟩ := ok_of_bind h
          dsimp only at h
          split at h
          · exact .of_ok (.nothing _ _) h
          · exact .of_ok (.nothing _ _) h
      | forLoop =>
          simp only [State.decideFor] at h
          split at h
          · cases h
          · obtain ⟨bounds, -, h⟩ := ok_of_bind h
            obtain ⟨closer, -, h⟩ := ok_of_bind h
            obtain ⟨enters, -, h⟩ := ok_of_bind h
            split at h
            · exact .of_ok (.bind _ _ _ _) h
            · exact .of_ok (.bind _ _ _ _) h
  | closer kind =>
      simp only [hkind, State.decideCloser] at h
      split at h
      · exact .of_ok (.nothing _ _) h
      · split at h
        · cases h
        · split at h
          · cases h
          · split at h
            · obtain ⟨current, -, h⟩ := ok_of_bind h
              obtain ⟨next, -, h⟩ := ok_of_bind h
              obtain ⟨again, -, h⟩ := ok_of_bind h
              split at h
              · exact .of_ok (.bind _ _ _ _) h
              · exact .of_ok (.bind _ _ _ _) h
            · exact .of_ok (.nothing _ _) h
            · exact .of_ok (.nothing _ _) h

/-- The header of a method defines one, whose body are the lines up to a closer. -/
theorem decide_of_method (hkind : Line.kind line = .opener .method) {decision : Decision}
    (h : state.decide block line = .ok decision) :
    ∃ closer method, block.closer state.cursor = .ok closer ∧
      Method.define (Line.splitWord line).2 (block.lines.extract (state.cursor + 1) closer)
        (block.lineNumber (state.cursor + 1)) = .ok method ∧
      decision = .move (closer + 1) state.frames (.define method) := by
  unfold State.decide at h
  rw [hkind] at h
  obtain ⟨closer, hcloser, h⟩ := ok_of_bind h
  obtain ⟨method, hmethod, h⟩ := ok_of_bind h
  exact ⟨closer, method, hcloser, hmethod, (Except.ok.inj h).symm⟩

/-- A statement draws, sets a variable, or calls a method that could be prepared. -/
theorem decide_of_statement (hkind : Line.kind line = .statement) {decision : Decision}
    (h : state.decide block line = .ok decision) :
    ∃ effect, state.interpreter.registry.statement state.scope line = .ok effect ∧
      match effect with
      | .draw action => decision = .move (state.cursor + 1) state.frames (.draw action)
      | .bind name value => decision = .move (state.cursor + 1) state.frames (.bind name value)
      | .call name arguments => ∃ call,
          state.interpreter.prepare name arguments state.scope = .ok call ∧
            decision = .call call := by
  unfold State.decide at h
  rw [hkind] at h
  obtain ⟨effect, heffect, h⟩ := ok_of_bind h
  refine ⟨effect, heffect, ?_⟩
  cases effect with
  | draw action => exact (Except.ok.inj h).symm
  | bind name value => exact (Except.ok.inj h).symm
  | call name arguments =>
      obtain ⟨call, hcall, h⟩ := ok_of_bind h
      exact ⟨call, hcall, (Except.ok.inj h).symm⟩

/-- A method is called by a statement that was prepared. -/
theorem decide_call {call : Interpreter.Call} (h : state.decide block line = .ok (.call call)) :
    Line.kind line = .statement ∧ ∃ name arguments,
      state.interpreter.registry.statement state.scope line = .ok (.call name arguments) ∧
        state.interpreter.prepare name arguments state.scope = .ok call := by
  by_cases hstatement : Line.kind line = .statement
  · obtain ⟨effect, heffect, hdecision⟩ := decide_of_statement hstatement h
    cases effect with
    | draw action => cases hdecision
    | bind name value => cases hdecision
    | call name arguments =>
        obtain ⟨prepared, hprepared, hdecision⟩ := hdecision
        obtain rfl := Decision.call.inj hdecision
        exact ⟨hstatement, name, arguments, heffect, hprepared⟩
  · by_cases hmethod : Line.kind line = .opener .method
    · obtain ⟨closer, method, -, -, hdecision⟩ := decide_of_method hmethod h
      cases hdecision
    · exact nomatch decide_is_move hstatement hmethod h

/-- A method is defined by a header, and its body are the lines up to a closer. -/
theorem decide_define {target : Nat} {frames : List Frame} {method : Method}
    (h : state.decide block line = .ok (.move target frames (.define method))) :
    Line.kind line = .opener .method ∧ ∃ closer, block.closer state.cursor = .ok closer ∧
      Method.define (Line.splitWord line).2 (block.lines.extract (state.cursor + 1) closer)
        (block.lineNumber (state.cursor + 1)) = .ok method := by
  by_cases hmethod : Line.kind line = .opener .method
  · obtain ⟨closer, defined, hcloser, hdefined, hdecision⟩ := decide_of_method hmethod h
    obtain ⟨-, -, hchange⟩ := Decision.move.inj hdecision
    obtain rfl := Change.define.inj hchange
    exact ⟨hmethod, closer, hcloser, hdefined⟩
  · by_cases hstatement : Line.kind line = .statement
    · obtain ⟨effect, -, hdecision⟩ := decide_of_statement hstatement h
      cases effect with
      | draw action => cases hdecision
      | bind name value => cases hdecision
      | call name arguments =>
          obtain ⟨call, -, hdecision⟩ := hdecision
          cases hdecision
    · exact nomatch decide_is_move hstatement hmethod h

/-- A blank line or a comment never fails. -/
theorem not_skipped_of_error {error : Error} (h : state.decide block line = .error error) :
    Line.isSkipped line = false := by
  rw [← Bool.not_eq_true, ← Line.kind_skipped_iff]
  intro hkind
  unfold State.decide at h
  rw [hkind] at h
  cases h

/-- A line that calls a method is neither blank nor a comment. -/
theorem not_skipped_of_call {call : Interpreter.Call}
    (h : state.decide block line = .ok (.call call)) : Line.isSkipped line = false := by
  rw [← Bool.not_eq_true, ← Line.kind_skipped_iff, (decide_call h).1]
  exact LineKind.noConfusion

end Decisions

/-- A call that is prepared is one of a method that is defined. -/
theorem Interpreter.prepare_get {interpreter : Interpreter} {name : Text} {arguments : List Text}
    {caller : Scope} {call : Interpreter.Call}
    (h : interpreter.prepare name arguments caller = .ok call) :
    interpreter.methods.get? name = some call.method := by
  unfold Interpreter.prepare at h
  split at h
  · cases h
  · rename_i method hmethod
    rw [hmethod]
    by_cases hcount : method.parameters.length ≠ arguments.length
    · rw [if_pos hcount] at h
      cases h
    · rw [if_neg hcount] at h
      obtain ⟨locals, -, h⟩ := ok_of_bind h
      by_cases hdepth : interpreter.options.maxCallDepth ≤ interpreter.callDepth
      · rw [if_pos hdepth] at h
        cases h
      · rw [if_neg hdepth] at h
        obtain rfl := Except.ok.inj h
        rfl

/-- A method is defined by its header and the block of its body. -/
theorem Method.define_ok {header : Text} {body : Array Text} {firstLine : Nat} {method : Method}
    (h : Method.define header body firstLine = .ok method) :
    Method.signature header = .ok (method.name, method.parameters) ∧
      Block.ofLines body firstLine = .ok method.block := by
  obtain ⟨⟨name, parameters⟩, hsignature, h⟩ := ok_of_bind h
  obtain ⟨block, hblock, h⟩ := ok_of_bind h
  obtain rfl := Except.ok.inj h
  exact ⟨ok_of_map_error hsignature, ok_of_map_error hblock⟩

/-- A method that is defined has the lines and the first line that it is given. -/
theorem Method.block_of_define {header : Text} {body : Array Text} {firstLine : Nat}
    {method : Method} (h : Method.define header body firstLine = .ok method) :
    method.block.lines = body ∧ method.block.firstLine = firstLine :=
  Block.lines_of_ok (Method.define_ok h).2

end PenScript
