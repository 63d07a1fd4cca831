import PenScript.Proofs.Machine.Feeding
import PenScript.Proofs.Machine.Invariant
import PenScript.Proofs.Scope.Lookup

/-!
# Errors point at lines of the source

The number of a recorded error is put together from the number of the first line of a block and the
position of the cursor in it, and the body of a method is a block of its own that outlives the lines
it was cut from. `Interpreter.Sourced` is the invariant that keeps the two in step: every recorded
error quotes the line of the program that it names, and the body of every method that is defined
consists of lines of the program under their numbers. Lines that are run keep it up
(`Interpreter.Sourced.invariant`), a feed extends the program (`Interpreter.Sourced.feed`), and
`errors_point_at_lines` draws the conclusion for every sequence of feeds.
-/

namespace PenScript

/-- The line of the program with the number, where the first line has number one. -/
def LineAt (program : List Text) (number : Nat) (line : Text) : Prop :=
  ∃ index, number = index + 1 ∧ program[index]? = some line

/-- The lines of the block are lines of the program, under their numbers. -/
def Block.From (block : Block) (program : List Text) : Prop :=
  ∀ index line, block.lines[index]? = some line → LineAt program (block.lineNumber index) line

/-- The error names a line of the program that is neither blank nor a comment, and quotes it. -/
def LineError.PointsInto (failure : LineError) (program : List Text) : Prop :=
  ∃ line, LineAt program failure.line line ∧ failure.text = Text.trim line ∧
    Line.isSkipped line = false

/-- Whatever the interpreter has kept of the program is found there: the bodies of the methods and
the lines of the errors. -/
structure Interpreter.Sourced (interpreter : Interpreter) (program : List Text) : Prop where
  methods : ∀ entry ∈ interpreter.methods.methods.entries, entry.2.block.From program
  errors : ∀ failure ∈ interpreter.errors, failure.PointsInto program

section Longer

variable {program : List Text} (more : List Text)

/-- More lines after a program leave its lines where they are. -/
theorem LineAt.append {number : Nat} {line : Text} (h : LineAt program number line) :
    LineAt (program ++ more) number line := by
  obtain ⟨index, hnumber, hline⟩ := h
  have hlt : index < program.length := (List.getElem?_eq_some_iff.mp hline).1
  refine ⟨index, hnumber, ?_⟩
  rw [List.getElem?_append_left hlt]
  exact hline

/-- A block of lines of the program is one of the longer program. -/
theorem Block.From.append {block : Block} (h : block.From program) :
    block.From (program ++ more) :=
  fun index line hline ↦ (h index line hline).append more

/-- What is found in a program is found in the longer one. -/
theorem Interpreter.Sourced.append {interpreter : Interpreter} (h : interpreter.Sourced program) :
    interpreter.Sourced (program ++ more) where
  methods entry hentry := (h.methods entry hentry).append more
  errors failure hfailure := by
    obtain ⟨line, hline, htext, hskipped⟩ := h.errors failure hfailure
    exact ⟨line, hline.append more, htext, hskipped⟩

end Longer

section Run

variable {program : List Text} {block : Block} {state : State} {line : Text}

/-- Lines that are cut out of a block keep their numbers. -/
theorem Block.From.extract {body : Block} {first last : Nat} (h : block.From program)
    (hlines : body.lines = block.lines.extract first last)
    (hnumber : body.firstLine = block.lineNumber first) : body.From program := by
  intro index line hline
  rw [hlines, Array.getElem?_extract] at hline
  split at hline
  · have hindex : body.lineNumber index = block.lineNumber (first + index) := by
      rw [Block.lineNumber, hnumber, Block.line_number_add]
    rw [hindex]
    exact h (first + index) line hline
  · cases hline

/-- The body of a method that is defined in a block comes from where the block does. -/
theorem Block.From.define {target : Nat} {frames : List Frame} {method : Method}
    (h : block.From program)
    (hdecide : state.decide block line = .ok (.move target frames (.define method))) :
    method.block.From program := by
  obtain ⟨-, closer, -, hmethod⟩ := decide_define hdecide
  obtain ⟨hlines, hnumber⟩ := Method.block_of_define hmethod
  exact h.extract hlines hnumber

/-- What is found in a program is still found there when its lines have been run. -/
theorem Interpreter.Sourced.invariant (program : List Text) :
    Interpreter.Invariant (·.From program) (·.Sourced program) where
  congr other h hmethods herrors := by
    refine ⟨?_, ?_⟩
    · rw [hmethods]
      exact h.methods
    · rw [herrors]
      exact h.errors
  body h hget := h.methods _ (NameMap.mem_entries_iff.mpr hget)
  define hblock _ hdecide h := by
    refine ⟨fun entry hentry ↦ ?_, h.errors⟩
    rcases NameMap.mem_insert_entry hentry with rfl | hold
    · exact hblock.define hdecide
    · exact h.methods entry hold
  record {block state line} error hblock hline hskipped h := by
    refine ⟨h.methods, fun failure hfailure ↦ ?_⟩
    rcases Array.mem_push.mp hfailure with hold | rfl
    · exact h.errors failure hold
    · exact ⟨line, hblock state.cursor line hline, rfl, hskipped⟩

end Run

section Feed

variable {interpreter : Interpreter} {program lines : List Text}

/-- The lines of a chunk are lines of the program that ends with it. -/
theorem Block.From.of_chunk {block : Block} (hlines : block.lines = lines.toArray)
    (hnumber : block.firstLine = program.length + 1) : block.From (program ++ lines) := by
  intro index line hline
  refine ⟨program.length + index, ?_, ?_⟩
  · rw [Block.lineNumber, hnumber]
    omega
  · rw [hlines, List.getElem?_toArray] at hline
    rw [List.getElem?_append_right (Nat.le_add_right _ _), Nat.add_sub_cancel_left]
    exact hline

/-- What is found in the program is found there after a chunk has been fed to its end, and the
numbers of the next chunk go on after it. -/
theorem Interpreter.Sourced.feed (h : interpreter.Sourced program)
    (hnumber : interpreter.nextLine = program.length + 1) {fuel : Nat} {outcome : RunOutcome}
    (hfeed : interpreter.feed fuel lines = some outcome) :
    outcome.interpreter.Sourced (program ++ lines) ∧
      outcome.interpreter.nextLine = (program ++ lines).length + 1 := by
  have hlater := h.append lines
  have hnext : (interpreter.ready lines.length).nextLine = (program ++ lines).length + 1 := by
    show interpreter.nextLine + lines.length = _
    rw [hnumber, List.length_append]
    omega
  cases hbuild : BlockMap.build lines interpreter.nextLine with
  | error cause =>
      rw [feed_rejected hbuild] at hfeed
      obtain rfl := Option.some.inj hfeed
      exact ⟨⟨hlater.methods, hlater.errors⟩, hnext⟩
  | ok map =>
      obtain ⟨block, hblock, hlines, hfirst⟩ := @Block.of_lines_ok lines.toArray _ _ hbuild
      obtain ⟨last, hends, rfl⟩ := (feeds_iff hblock).mp ⟨fuel, hfeed⟩
      have hlast := (Interpreter.Sourced.invariant _).ends hends
        (.of_chunk hlines (hfirst.trans hnumber)) ⟨hlater.methods, hlater.errors⟩
      exact ⟨⟨hlast.methods, hlast.errors⟩, hends.next_line.trans hnext⟩

/-- A place where the nesting of lines fails is one of the lines. -/
theorem NestingFault.lt {index : Nat} (h : NestingFault lines index) : index < lines.length := by
  rcases h with ⟨hlt, -, -⟩ | ⟨-, before, kind, offset, inner, hlines, -, rfl⟩
  · exact hlt
  · have hlength := congrArg List.length hlines
    simp only [List.length_map, List.length_append, List.length_cons] at hlength
    omega

/-- A feed that ends with a structural error names a line of its chunk. -/
theorem line_of_unmatched {fuel : Nat} {outcome : Interpreter.RunOutcome} {cause : BlockError}
    (hfeed : interpreter.feed fuel lines = some outcome)
    (hresult : outcome.result = .error (.unmatchedBlock cause)) :
    interpreter.nextLine ≤ cause.line ∧ cause.line < interpreter.nextLine + lines.length := by
  cases hbuild : BlockMap.build lines interpreter.nextLine with
  | ok map => exact absurd hresult ((Interpreter.feed_harmless hbuild hfeed).ne_unmatched cause)
  | error found =>
      rw [Interpreter.feed_rejected hbuild] at hfeed
      obtain rfl := Option.some.inj hfeed
      obtain rfl := Error.unmatchedBlock.inj (Except.error.inj hresult)
      obtain ⟨index, hindex, hfault⟩ := BlockMap.build_error hbuild
      have hlt := hfault.lt
      omega

end Feed

/-- The interpreter has been fed the program, one chunk after the other, since it was new or was
last reset. The rules are what its user can do with it. -/
inductive Interpreter.Fed : Interpreter → List Text → Prop where
  | new (options : Options) (registry : Registry) : Fed (.new options registry) []
  | reset {interpreter : Interpreter} {program : List Text} :
      Fed interpreter program → Fed interpreter.reset []
  | setStrict {interpreter : Interpreter} {program : List Text} (strict : Bool) :
      Fed interpreter program → Fed (interpreter.setStrict strict) program
  | clearCanvas {interpreter : Interpreter} {program : List Text} :
      Fed interpreter program → Fed interpreter.clearCanvas program
  | feed {interpreter : Interpreter} {program lines : List Text} {fuel : Nat}
      {outcome : RunOutcome} :
      Fed interpreter program → interpreter.feed fuel lines = some outcome →
      Fed outcome.interpreter (program ++ lines)
  | run {interpreter : Interpreter} {program lines : List Text} {fuel : Nat}
      {outcome : RunOutcome} :
      Fed interpreter program → interpreter.runLines fuel lines = some outcome →
      Fed outcome.interpreter lines

/-- A clean interpreter has nothing to be found. -/
theorem Interpreter.Sourced.reset (interpreter : Interpreter) (program : List Text) :
    interpreter.reset.Sourced program where
  methods _ hentry := nomatch hentry
  errors _ hfailure := nomatch hfailure

/-- Everything that an interpreter has kept is found in the program that it was fed, and the numbers
of the next lines go on after it. -/
theorem Interpreter.Fed.sourced {interpreter : Interpreter} {program : List Text}
    (h : interpreter.Fed program) :
    interpreter.Sourced program ∧ interpreter.nextLine = program.length + 1 := by
  induction h with
  | new options registry => exact ⟨.reset (.new options registry) [], rfl⟩
  | @reset interpreter => exact ⟨.reset interpreter [], rfl⟩
  | setStrict _ _ ih => exact ⟨⟨ih.1.methods, ih.1.errors⟩, ih.2⟩
  | clearCanvas _ ih => exact ⟨⟨ih.1.methods, ih.1.errors⟩, ih.2⟩
  | feed _ hfeed ih => exact ih.1.feed ih.2 hfeed
  | @run interpreter _ lines _ _ _ hrun =>
      have hclean := Interpreter.Sourced.reset interpreter []
      exact hclean.feed rfl hrun

/-- Every error that has been recorded names a line of the program that was fed, by its number from
one on, and quotes it without the blanks around it; the line is neither blank nor a comment. A feed
that ends with a structural error names a line of its own chunk. -/
theorem errors_point_at_lines {interpreter : Interpreter} {program : List Text}
    (h : interpreter.Fed program) :
    (∀ failure ∈ interpreter.errors, 1 ≤ failure.line ∧ failure.line ≤ program.length ∧
      ∃ line, program[failure.line - 1]? = some line ∧ failure.text = Text.trim line ∧
        Line.isSkipped line = false) ∧
    ∀ fuel lines outcome cause, interpreter.feed fuel lines = some outcome →
      outcome.result = .error (.unmatchedBlock cause) →
      program.length + 1 ≤ cause.line ∧ cause.line ≤ program.length + lines.length := by
  obtain ⟨hsourced, hnumber⟩ := h.sourced
  refine ⟨fun failure hfailure ↦ ?_, fun fuel lines outcome cause hfeed hresult ↦ ?_⟩
  · obtain ⟨line, ⟨index, hindex, hline⟩, htext, hskipped⟩ := hsourced.errors failure hfailure
    have hlt : index < program.length := (List.getElem?_eq_some_iff.mp hline).1
    refine ⟨by omega, by omega, line, ?_, htext, hskipped⟩
    rw [hindex, Nat.add_sub_cancel]
    exact hline
  · obtain ⟨hfirst, hlast⟩ := line_of_unmatched hfeed hresult
    omega

/-- A method that is defined in one chunk and called in the next one fails on its own line. -/
theorem errors_point_at_lines_of_method :
    ∃ interpreter : Interpreter,
      interpreter.Fed (["method m".toList, " jump ".toList, "endmethod".toList] ++
        ["".toList, "call m".toList]) ∧
      interpreter.errors.toList.map (fun failure ↦ (failure.line, failure.text)) =
        [(2, "jump".toList)] ∧
      ∀ failure ∈ interpreter.errors, 1 ≤ failure.line ∧ failure.line ≤ 5 ∧
        ∃ line, ["method m".toList, " jump ".toList, "endmethod".toList, "".toList,
            "call m".toList][failure.line - 1]? = some line ∧
          failure.text = Text.trim line ∧ Line.isSkipped line = false := by
  have hfirst : ∃ first, (Interpreter.new {} .standard).feed 4 ["method m".toList,
      " jump ".toList, "endmethod".toList] = some first ∧
      (first.interpreter.feed 4 ["".toList, "call m".toList]).map (fun last ↦
        last.interpreter.errors.toList.map fun failure ↦ (failure.line, failure.text)) =
          some [(2, "jump".toList)] := ⟨_, rfl, rfl⟩
  obtain ⟨first, hfirst, hlast⟩ := hfirst
  obtain ⟨last, hlast, herrors⟩ := Option.map_eq_some_iff.mp hlast
  have hfed := ((Interpreter.Fed.new {} .standard).feed hfirst).feed hlast
  exact ⟨last.interpreter, hfed, herrors, (errors_point_at_lines hfed).1⟩

end PenScript
