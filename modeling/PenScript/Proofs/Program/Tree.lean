import PenScript.Proofs.Block.Build

/-!
# Programs as trees

A `Program` is the nesting tree of a list of lines. Its nodes keep the lines as they are written,
together with the proof that they are of the kind that the node needs, so every tree is the tree of
a program that nests. `Program.ofLines?` reads lines from the last to the first;
`of_lines_of_well_nested` says that it finds the tree of every list of lines that nest, and
`lines_injective` that no list has two.
-/

namespace PenScript

/-- A list of lines by its blocks: lines outside all blocks, blocks with what they enclose, and
conditionals with both parts. -/
inductive Program where
  | empty
  | line (text : Text) (plain : Line.kind text = .skipped ∨ Line.kind text = .statement)
      (rest : Program)
  | block (kind : BlockKind) (header : Text) (opens : Line.kind header = .opener kind)
      (body : Program) (closer : Text) (closes : Line.kind closer = .closer kind) (rest : Program)
  | branches (header : Text) (opens : Line.kind header = .opener .conditional) (yes : Program)
      (otherwise : Text) (turns : Line.kind otherwise = .otherwise) (no : Program) (closer : Text)
      (closes : Line.kind closer = .closer .conditional) (rest : Program)

namespace Program

/-- The lines of a program. -/
def lines : Program → List Text
  | .empty => []
  | .line text _ rest => text :: rest.lines
  | .block _ header _ body closer _ rest => header :: (body.lines ++ closer :: rest.lines)
  | .branches header _ yes otherwise _ no closer _ rest =>
      header :: (yes.lines ++ otherwise :: (no.lines ++ closer :: rest.lines))

/-- The number of lines. -/
def size : Program → Nat
  | .empty => 0
  | .line _ _ rest => rest.size + 1
  | .block _ _ _ body _ _ rest => body.size + rest.size + 2
  | .branches _ _ yes _ _ no _ _ rest => yes.size + no.size + rest.size + 3

/-- One program after another. -/
def append : Program → Program → Program
  | .empty, last => last
  | .line text plain rest, last => .line text plain (rest.append last)
  | .block kind header opens body closer closes rest, last =>
      .block kind header opens body closer closes (rest.append last)
  | .branches header opens yes otherwise turns no closer closes rest, last =>
      .branches header opens yes otherwise turns no closer closes (rest.append last)

@[simp] theorem length_lines (program : Program) : program.lines.length = program.size := by
  induction program with
  | empty => rfl
  | line _ _ _ ih => simp [lines, size, ih]
  | block _ _ _ _ _ _ _ ihbody ihrest =>
      simp only [lines, size, List.length_cons, List.length_append, ihbody, ihrest]
      omega
  | branches _ _ _ _ _ _ _ _ _ ihyes ihno ihrest =>
      simp only [lines, size, List.length_cons, List.length_append, ihyes, ihno, ihrest]
      omega

@[simp] theorem lines_append (first last : Program) :
    (first.append last).lines = first.lines ++ last.lines := by
  induction first with
  | empty => rfl
  | line _ _ _ ih => simp [append, lines, ih]
  | block _ _ _ _ _ _ _ _ ih => simp [append, lines, ih]
  | branches _ _ _ _ _ _ _ _ _ _ _ ih => simp [append, lines, ih]

@[simp] theorem append_empty (program : Program) : program.append .empty = program := by
  induction program with
  | empty => rfl
  | line _ _ _ ih => rw [append, ih]
  | block _ _ _ _ _ _ _ _ ih => rw [append, ih]
  | branches _ _ _ _ _ _ _ _ _ _ _ ih => rw [append, ih]

/-- The lines of a program nest. -/
theorem well_nested (program : Program) : WellNested (program.lines.map Line.kind) := by
  induction program with
  | empty => exact .empty
  | line text plain rest ih =>
      rw [lines, List.map_cons]
      rcases plain with plain | plain
      · rw [plain]
        exact .skipped ih
      · rw [plain]
        exact .statement ih
  | block kind header opens body closer closes rest ihbody ihrest =>
      rw [lines, List.map_cons, List.map_append, List.map_cons, opens, closes]
      exact .block kind ihbody ihrest
  | branches header opens yes otherwise turns no closer closes rest ihyes ihno ihrest =>
      rw [lines, List.map_cons, List.map_append, List.map_cons, List.map_append, List.map_cons,
        opens, turns, closes]
      exact .branches ihyes ihno ihrest

/-- Lines that nest are the lines of a program. -/
theorem exists_of_well_nested {kinds : List LineKind} (h : WellNested kinds) {texts : List Text}
    (htexts : texts.map Line.kind = kinds) : ∃ program : Program, program.lines = texts := by
  induction h generalizing texts with
  | empty =>
      obtain rfl := List.map_eq_nil_iff.mp htexts
      exact ⟨.empty, rfl⟩
  | skipped _ ih =>
      obtain ⟨text, texts, rfl, hkind, hrest⟩ := List.map_eq_cons_iff.mp htexts
      obtain ⟨rest, rfl⟩ := ih hrest
      exact ⟨.line text (.inl hkind) rest, rfl⟩
  | statement _ ih =>
      obtain ⟨text, texts, rfl, hkind, hrest⟩ := List.map_eq_cons_iff.mp htexts
      obtain ⟨rest, rfl⟩ := ih hrest
      exact ⟨.line text (.inr hkind) rest, rfl⟩
  | block kind _ _ ihbody ihrest =>
      obtain ⟨header, texts, rfl, hopens, htexts⟩ := List.map_eq_cons_iff.mp htexts
      obtain ⟨bodyTexts, texts, rfl, hbody, htexts⟩ := List.map_eq_append_iff.mp htexts
      obtain ⟨closer, texts, rfl, hcloses, hrest⟩ := List.map_eq_cons_iff.mp htexts
      obtain ⟨body, rfl⟩ := ihbody hbody
      obtain ⟨rest, rfl⟩ := ihrest hrest
      exact ⟨.block kind header hopens body closer hcloses rest, rfl⟩
  | branches _ _ _ ihyes ihno ihrest =>
      obtain ⟨header, texts, rfl, hopens, htexts⟩ := List.map_eq_cons_iff.mp htexts
      obtain ⟨yesTexts, texts, rfl, hyes, htexts⟩ := List.map_eq_append_iff.mp htexts
      obtain ⟨otherwise, texts, rfl, hturns, htexts⟩ := List.map_eq_cons_iff.mp htexts
      obtain ⟨noTexts, texts, rfl, hno, htexts⟩ := List.map_eq_append_iff.mp htexts
      obtain ⟨closer, texts, rfl, hcloses, hrest⟩ := List.map_eq_cons_iff.mp htexts
      obtain ⟨yes, rfl⟩ := ihyes hyes
      obtain ⟨no, rfl⟩ := ihno hno
      obtain ⟨rest, rfl⟩ := ihrest hrest
      exact ⟨.branches header hopens yes otherwise hturns no closer hcloses rest, rfl⟩

/-- The `else` of a conditional that is read from its closer on, and the part after it. -/
structure Alternative where
  otherwise : Text
  turns : Line.kind otherwise = .otherwise
  no : Program

/-- A block that is read from its closer on, whose opener is still to come: the program after it,
and its `else` if that has been read. -/
structure OpenEnd where
  kind : BlockKind
  closer : Text
  closes : Line.kind closer = .closer kind
  alternative : Option Alternative
  rest : Program

/-- Reads an opener in front of a program. It ends the innermost block that is being read. -/
def readOpener (kind : BlockKind) (header : Text) (opens : Line.kind header = .opener kind)
    (program : Program) : List OpenEnd → Option (Program × List OpenEnd)
  | [] => none
  | ⟨closed, closer, closes, none, rest⟩ :: outer =>
      if same : closed = kind then
        some (.block kind header opens program closer (same ▸ closes) rest, outer)
      else none
  | ⟨closed, closer, closes, some ⟨otherwise, turns, no⟩, rest⟩ :: outer =>
      if same : closed = .conditional ∧ kind = .conditional then
        some (.branches header (same.2 ▸ opens) program otherwise turns no closer
          (same.1 ▸ closes) rest, outer)
      else none

/-- Reads an `else` in front of a program. -/
def readElse (otherwise : Text) (turns : Line.kind otherwise = .otherwise) (program : Program) :
    List OpenEnd → Option (Program × List OpenEnd)
  | ⟨.conditional, closer, closes, none, rest⟩ :: outer =>
      some (.empty, ⟨.conditional, closer, closes, some ⟨otherwise, turns, program⟩, rest⟩ :: outer)
  | _ => none

/-- Reads a line in front of a program, inside the blocks that are being read. -/
def readLine (text : Text) (program : Program) (outer : List OpenEnd) :
    Option (Program × List OpenEnd) :=
  match hkind : Line.kind text with
  | .skipped => some (.line text (.inl hkind) program, outer)
  | .statement => some (.line text (.inr hkind) program, outer)
  | .closer kind => some (.empty, ⟨kind, text, hkind, none, program⟩ :: outer)
  | .otherwise => readElse text hkind program outer
  | .opener kind => readOpener kind text hkind program outer

/-- Reads lines from the last to the first. -/
def read : List Text → Option (Program × List OpenEnd)
  | [] => some (.empty, [])
  | text :: rest => (read rest).bind fun (program, outer) ↦ readLine text program outer

/-- The program of the lines. -/
def ofLines? (texts : List Text) : Option Program :=
  match read texts with
  | some (program, []) => some program
  | _ => none

theorem read_line_plain {text : Text}
    (plain : Line.kind text = .skipped ∨ Line.kind text = .statement) (program : Program)
    (outer : List OpenEnd) :
    readLine text program outer = some (.line text plain program, outer) := by
  unfold readLine
  split
  case h_1 | h_2 => rfl
  all_goals
    rename_i hfound
    rw [hfound] at plain
    rcases plain with plain | plain <;> cases plain

theorem read_line_closer {text : Text} {kind : BlockKind} (closes : Line.kind text = .closer kind)
    (program : Program) (outer : List OpenEnd) :
    readLine text program outer = some (.empty, ⟨kind, text, closes, none, program⟩ :: outer) := by
  unfold readLine
  split
  case h_3 found hfound =>
    obtain rfl := LineKind.closer.inj (closes.symm.trans hfound)
    rfl
  all_goals
    rename_i hfound
    cases closes.symm.trans hfound

theorem read_line_else {text : Text} (turns : Line.kind text = .otherwise) (program : Program)
    (outer : List OpenEnd) : readLine text program outer = readElse text turns program outer := by
  unfold readLine
  split
  case h_4 => rfl
  all_goals
    rename_i hfound
    cases turns.symm.trans hfound

theorem read_line_opener {text : Text} {kind : BlockKind} (opens : Line.kind text = .opener kind)
    (program : Program) (outer : List OpenEnd) :
    readLine text program outer = readOpener kind text opens program outer := by
  unfold readLine
  split
  case h_5 found hfound =>
    obtain rfl := LineKind.opener.inj (opens.symm.trans hfound)
    rfl
  all_goals
    rename_i hfound
    cases opens.symm.trans hfound

/-- Reading the lines of a program in front of others puts the program in front. -/
theorem read_append (program : Program) {texts : List Text} {last : Program}
    {outer : List OpenEnd} (h : read texts = some (last, outer)) :
    read (program.lines ++ texts) = some (program.append last, outer) := by
  induction program generalizing texts last outer with
  | empty => exact h
  | line text plain rest ih =>
      rw [lines, List.cons_append, read, ih h, Option.bind_some]
      exact read_line_plain plain _ _
  | block kind header opens body closer closes rest ihbody ihrest =>
      -- What follows the block has been read when its closer is reached.
      have hcloser : read (closer :: (rest.lines ++ texts)) =
          some (.empty, ⟨kind, closer, closes, none, rest.append last⟩ :: outer) := by
        rw [read, ihrest h, Option.bind_some]
        exact read_line_closer closes _ _
      rw [lines, List.cons_append, List.append_assoc, List.cons_append, read, ihbody hcloser,
        Option.bind_some, append_empty]
      simp only [read_line_opener opens, readOpener, dif_pos, append]
  | branches header opens yes otherwise turns no closer closes rest ihyes ihno ihrest =>
      have hcloser : read (closer :: (rest.lines ++ texts)) =
          some (.empty, ⟨.conditional, closer, closes, none, rest.append last⟩ :: outer) := by
        rw [read, ihrest h, Option.bind_some]
        exact read_line_closer closes _ _
      have helse : read (otherwise :: (no.lines ++ closer :: (rest.lines ++ texts))) =
          some (.empty, ⟨.conditional, closer, closes, some ⟨otherwise, turns, no⟩,
            rest.append last⟩ :: outer) := by
        rw [read, ihno hcloser, Option.bind_some, append_empty]
        exact read_line_else turns _ _
      rw [lines, List.cons_append, List.append_assoc, List.cons_append, List.append_assoc,
        List.cons_append, read, ihyes helse, Option.bind_some, append_empty]
      simp only [read_line_opener opens, readOpener, and_self, dif_pos, append]

/-- The program of its own lines. -/
theorem of_lines_lines (program : Program) : ofLines? program.lines = some program := by
  have hread : read (program.lines ++ []) = some (program.append .empty, []) :=
    read_append program rfl
  rw [List.append_nil, append_empty] at hread
  rw [ofLines?, hread]

/-- Two programs with the same lines are the same. -/
theorem lines_injective {first second : Program} (h : first.lines = second.lines) :
    first = second := by
  have hfirst := of_lines_lines first
  rw [h, of_lines_lines] at hfirst
  exact (Option.some.inj hfirst).symm

/-- The lines that nest are those with a program, and it has these lines. -/
theorem of_lines_of_well_nested {texts : List Text} (h : WellNested (texts.map Line.kind)) :
    ∃ program, ofLines? texts = some program ∧ program.lines = texts := by
  obtain ⟨program, rfl⟩ := exists_of_well_nested h rfl
  exact ⟨program, of_lines_lines program, rfl⟩

end Program

namespace Block

/-- The nesting tree of a block. -/
def program (block : Block) : Program :=
  (Program.ofLines? block.lines.toList).get (by
    obtain ⟨program, hprogram, -⟩ := Program.of_lines_of_well_nested block.well_nested
    rw [hprogram]
    rfl)

/-- The nesting tree of a block holds its lines. -/
@[simp] theorem lines_program (block : Block) : block.program.lines = block.lines.toList := by
  obtain ⟨program, hprogram, hlines⟩ := Program.of_lines_of_well_nested block.well_nested
  simp only [Block.program, hprogram, Option.get_some, hlines]

/-- A program with the lines of a block is its nesting tree. -/
theorem program_eq {block : Block} {program : Program}
    (h : program.lines = block.lines.toList) : block.program = program :=
  Program.lines_injective (block.lines_program.trans h.symm)

/-- The lines of a program are a block, wherever they start. -/
theorem exists_of_program (program : Program) (firstLine : Nat) :
    ∃ block, ofLines program.lines.toArray firstLine = .ok block ∧ block.program = program ∧
      block.firstLine = firstLine := by
  obtain ⟨map, hmap⟩ := (@BlockMap.build_ok_iff _ firstLine).mpr program.well_nested
  obtain ⟨block, hblock, hlines, hfirst⟩ := @of_lines_ok program.lines.toArray _ _ hmap
  exact ⟨block, hblock, program_eq (by rw [hlines]), hfirst⟩

end Block

end PenScript
