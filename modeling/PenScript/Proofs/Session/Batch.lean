import PenScript.Proofs.Block.Open
import PenScript.Proofs.Machine.Feeding
import PenScript.Session

/-!
# A session and a run of the whole program

A session that is given the lines of a program one by one cuts the program where no block is open
and feeds the pieces to its interpreter. `Session.Follows` is what holds after each line: the lines
are a part that was fed, and the lines that wait. Since lines that nest can be fed in pieces, the
session ends where a run of the whole program ends (`session_agrees_with_run`).

Outside blocks a session reads blank lines and lines that start with a colon in its own way, so the
program must have none there.
-/

namespace PenScript

namespace Session

/-- The session with one more line that waits. -/
def waiting (session : Session) (line : Text) : Session :=
  { session with pending := session.pending ++ [line] }

/-- A session in which no lines wait takes the line for one of a program: it is neither blank nor a
command. -/
def Accepts (line : Text) : Prop :=
  Text.trim line ≠ [] ∧ (Text.trim line).head? ≠ some ':'

/-- Lines are submitted to a session, one after the other, and it answers each of them. -/
inductive Dialogue (first : Session) : List Text → List Reply → Session → Prop where
  | start : Dialogue first [] [] first
  | submit {lines : List Text} {replies : List Reply} {session next : Session} {line : Text}
      {reply : Reply} {fuel : Nat} :
      Dialogue first lines replies session → session.submit fuel line = some (reply, next) →
      Dialogue first (lines ++ [line]) (replies ++ [reply]) next

/-- A line that opens a block is taken for one of a program. -/
theorem accepts_of_opener {line : Text} {kind : BlockKind}
    (h : Line.kind line = .opener kind) : Accepts line := by
  constructor
  · intro htrim
    rw [Line.kind, Line.isSkipped, htrim] at h
    cases h
  · intro hcolon
    obtain ⟨rest, htrim⟩ := List.head?_eq_some_iff.mp hcolon
    -- The leading word is empty, so it is no keyword.
    have hstatement : Line.kind line = .statement := by
      unfold Line.kind Line.isSkipped Line.splitWord
      rw [htrim]
      rfl
    cases h.symm.trans hstatement

/-- A line that is taken for one of a program waits, and is run with the others once they are
balanced. -/
theorem submit_accepted {session : Session} {line : Text}
    (h : session.pending ≠ [] ∨ Accepts line) (fuel : Nat) :
    session.submit fuel line =
      if isBalanced (session.pending ++ [line]) then (session.waiting line).runPending fuel
      else some (.pending, session.waiting line) := by
  have hpending : session.isPending = true ∨ Accepts line := by
    rcases h with hwaits | hline
    · left
      rw [isPending, List.isEmpty_eq_false_iff.mpr hwaits]
      rfl
    · exact .inr hline
  have hcommand : ¬ ((Text.trim line).head? = some ':' ∧ (!session.isPending) = true) := by
    rintro ⟨hcolon, hidle⟩
    rcases hpending with hwaits | ⟨-, hother⟩
    · simp [hwaits] at hidle
    · exact hother hcolon
  have hblank : ¬ ((Text.trim line).isEmpty = true ∧ (!session.isPending) = true) := by
    rintro ⟨hempty, hidle⟩
    rcases hpending with hwaits | ⟨hother, -⟩
    · simp [hwaits] at hidle
    · exact hother (List.isEmpty_iff.mp hempty)
  unfold submit
  simp only [if_neg hcommand, if_neg hblank]
  rfl

end Session

section Parts

variable {interpreter : Interpreter} {first last lines : List Text}
  {outcome : Interpreter.RunOutcome}

/-- Lines that nest are a block. -/
theorem Block.of_well_nested (h : WellNested (lines.map Line.kind)) (number : Nat) :
    ∃ block, Block.ofLines lines.toArray number = .ok block := by
  obtain ⟨map, hmap⟩ := (@BlockMap.build_ok_iff _ number).mpr h
  obtain ⟨block, hblock, -, -⟩ := @Block.of_lines_ok lines.toArray _ _ hmap
  exact ⟨block, hblock⟩

/-- A feed that is not strict leaves an interpreter and no error. -/
theorem Interpreter.Feeds.eq_ok (h : interpreter.Feeds lines outcome)
    (hmode : interpreter.options.strict = false) (hnested : WellNested (lines.map Line.kind)) :
    outcome = ⟨.ok (), outcome.interpreter⟩ := by
  obtain ⟨block, hblock⟩ := Block.of_well_nested hnested interpreter.nextLine
  rw [← h.ok_of_not_strict hblock hmode]

/-- A feed that is not strict can be made in two parts. -/
theorem Interpreter.feeds_in_parts (hmode : interpreter.options.strict = false)
    (hfirst : WellNested (first.map Line.kind)) (hlast : WellNested (last.map Line.kind)) :
    interpreter.Feeds (first ++ last) outcome ↔
      ∃ middle, interpreter.Feeds first ⟨.ok (), middle⟩ ∧ middle.Feeds last outcome := by
  obtain ⟨firstMap, hfirstMap⟩ := (@BlockMap.build_ok_iff _ 1).mpr hfirst
  obtain ⟨lastMap, hlastMap⟩ := (@BlockMap.build_ok_iff _ 1).mpr hlast
  rw [feeds_append hfirstMap hlastMap]
  constructor
  · rintro ⟨middle, hmiddle, hrest⟩
    have hok := hmiddle.eq_ok hmode hfirst
    rw [hok] at hmiddle hrest
    exact ⟨middle.interpreter, hmiddle, hrest⟩
  · rintro ⟨middle, hmiddle, hrest⟩
    exact ⟨_, hmiddle, hrest⟩

end Parts

namespace Session

/-- The session is where the lines have led that were submitted to it: the first of them were fed to
the interpreter, and the others wait, but none when the lines nest. -/
structure Follows (session : Session) (interpreter : Interpreter) (lines : List Text) : Prop where
  fed : ∃ done, lines = done ++ session.pending ∧ WellNested (done.map Line.kind) ∧
    interpreter.Feeds done ⟨.ok (), session.interpreter⟩
  idle : WellNested (lines.map Line.kind) → session.pending = []

namespace Follows

variable {session next : Session} {interpreter : Interpreter} {lines : List Text} {line : Text}
  {fuel : Nat} {reply : Reply}

/-- A session starts with no lines. -/
theorem start (options : Options) :
    (Session.new options).Follows (.new options .standard) [] where
  fed := ⟨[], rfl, .empty, 1, rfl⟩
  idle _ := rfl

/-- A line after which a block is open waits. -/
theorem wait (h : session.Follows interpreter lines)
    (hopen : ¬ WellNested ((lines ++ [line]).map Line.kind)) :
    (session.waiting line).Follows interpreter (lines ++ [line]) where
  fed := by
    obtain ⟨done, rfl, hdone, hfeeds⟩ := h.fed
    exact ⟨done, List.append_assoc .., hdone, hfeeds⟩
  idle hnested := absurd hnested hopen

/-- When all lines nest, running those that wait is what is left of feeding all of them. -/
theorem feeds_rest_iff (h : session.Follows interpreter lines)
    (hmode : interpreter.options.strict = false)
    (hnested : WellNested ((lines ++ [line]).map Line.kind)) {outcome : Interpreter.RunOutcome} :
    interpreter.Feeds (lines ++ [line]) outcome ↔
      session.interpreter.Feeds (session.pending ++ [line]) outcome := by
  obtain ⟨done, rfl, hdone, hfeeds⟩ := h.fed
  rw [List.append_assoc] at hnested ⊢
  have hchunk : WellNested ((session.pending ++ [line]).map Line.kind) := by
    rw [List.map_append] at hnested
    exact hdone.of_append hnested
  rw [Interpreter.feeds_in_parts hmode hdone hchunk]
  constructor
  · rintro ⟨middle, hmiddle, hrest⟩
    obtain ⟨block, hblock⟩ := Block.of_well_nested hdone interpreter.nextLine
    obtain rfl : middle = session.interpreter :=
      congrArg Interpreter.RunOutcome.interpreter (hmiddle.unique hblock hfeeds)
    exact hrest
  · intro hrest
    exact ⟨session.interpreter, hfeeds, hrest⟩

/-- A line after which no block is open is run with those that wait. -/
theorem run (h : session.Follows interpreter lines) (hmode : interpreter.options.strict = false)
    (hnested : WellNested ((lines ++ [line]).map Line.kind))
    (hrun : (session.waiting line).runPending fuel = some (reply, next)) :
    next.Follows interpreter (lines ++ [line]) := by
  obtain ⟨outcome, hfeed, hshown⟩ := Option.map_eq_some_iff.mp hrun
  obtain ⟨-, rfl⟩ := Prod.mk.inj hshown
  have hall := (h.feeds_rest_iff hmode hnested).mpr ⟨fuel, hfeed⟩
  rw [hall.eq_ok hmode hnested] at hall
  exact ⟨⟨lines ++ [line], (List.append_nil _).symm, hnested, hall⟩, fun _ ↦ rfl⟩

end Follows

/-- Outside its blocks, the program has only lines that a session takes for lines of a program. -/
def Suits (program : List Text) : Prop :=
  ∀ index line, program[index]? = some line → ¬ InBlock (program.map Line.kind) index →
    Accepts line

section Program

variable {options : Options} {before after : List Text} {line : Text} {session : Session}
  {replies : List Reply}

/-- The kind of a line after others. -/
theorem kind_at_length :
    ((before ++ line :: after).map Line.kind)[before.length]? = some (Line.kind line) := by
  simp

/-- A block is open after a line exactly when the lines up to it do not nest. -/
theorem open_after_line (hprogram : WellNested ((before ++ line :: after).map Line.kind)) :
    OpenAfter ((before ++ line :: after).map Line.kind) before.length ↔
      ¬ WellNested ((before ++ [line]).map Line.kind) := by
  have htake : ((before ++ line :: after).map Line.kind).take (before.length + 1) =
      (before ++ [line]).map Line.kind := by
    rw [← List.map_take, List.take_length_add_append]
    rfl
  rw [open_after_iff hprogram (by simp), htake]

/-- A line of a program is never taken for a command or for nothing. -/
theorem Follows.accepts {interpreter : Interpreter} (h : session.Follows interpreter before)
    (hprogram : WellNested ((before ++ line :: after).map Line.kind))
    (hsuits : Suits (before ++ line :: after)) : session.pending ≠ [] ∨ Accepts line := by
  by_cases hidle : session.pending = []
  · right
    obtain ⟨done, hbefore, hdone, -⟩ := h.fed
    rw [hidle, List.append_nil] at hbefore
    obtain rfl := hbefore
    by_cases hinside : InBlock ((before ++ line :: after).map Line.kind) before.length
    · -- No block is open before the line, so it is the line that opens its block.
      obtain ⟨opener, alternative, closer, henclosed, hle, hlast⟩ := hinside
      obtain ⟨kind, hopener, -, -⟩ := henclosed.kind_at
      obtain hlt | heq := Nat.lt_or_eq_of_le hle
      · have hopen : OpenAfter ((before ++ line :: after).map Line.kind) (before.length - 1) :=
          ⟨opener, alternative, closer, henclosed, by omega, by omega⟩
        rw [open_after_iff hprogram (by simp; omega), Nat.sub_add_cancel (by omega),
          ← List.map_take, List.take_left' rfl] at hopen
        exact absurd hdone hopen
      · rw [heq, kind_at_length] at hopener
        exact accepts_of_opener (Option.some.inj hopener)
    · exact hsuits before.length line (by simp) hinside
  · exact .inl hidle

/-- What a session answers to a line of a program: it waits for more lines as long as a block is
open, and otherwise runs those that wait. -/
theorem Follows.submit {interpreter : Interpreter} (h : session.Follows interpreter before)
    (hprogram : WellNested ((before ++ line :: after).map Line.kind))
    (hsuits : Suits (before ++ line :: after)) (fuel : Nat) :
    (OpenAfter ((before ++ line :: after).map Line.kind) before.length →
      session.submit fuel line = some (.pending, session.waiting line)) ∧
    (¬ OpenAfter ((before ++ line :: after).map Line.kind) before.length →
      session.submit fuel line = (session.waiting line).runPending fuel) := by
  obtain ⟨done, hbefore, hdone, -⟩ := h.fed
  have hcompletable : Completable (done ++ (session.pending ++ [line])) := by
    refine ⟨after, ?_⟩
    rw [← List.append_assoc, ← hbefore, List.append_assoc]
    exact hprogram
  have hbalanced := balanced_iff_well_nested hdone hcompletable
  rw [← List.append_assoc, ← hbefore] at hbalanced
  rw [submit_accepted (h.accepts hprogram hsuits), open_after_line hprogram, ← hbalanced]
  constructor
  · intro hopen
    exact if_neg hopen
  · intro hclosed
    exact if_pos (Decidable.not_not.mp hclosed)

/-- A session that is given the first lines of a program follows them. -/
theorem Dialogue.follows (h : Dialogue (.new options) before replies session)
    (hmode : options.strict = false) (hprogram : WellNested ((before ++ after).map Line.kind))
    (hsuits : Suits (before ++ after)) : session.Follows (.new options .standard) before := by
  induction h generalizing after with
  | start => exact .start options
  | @submit lines replies session next line reply fuel _ hsubmit ih =>
      rw [List.append_assoc, List.singleton_append] at hprogram hsuits
      have hfollows := ih hprogram hsuits
      obtain ⟨hwait, hrun⟩ := hfollows.submit hprogram hsuits fuel
      by_cases hopen : OpenAfter ((lines ++ line :: after).map Line.kind) lines.length
      · rw [hwait hopen] at hsubmit
        obtain ⟨-, rfl⟩ := Prod.mk.inj (Option.some.inj hsubmit)
        exact hfollows.wait ((open_after_line hprogram).mp hopen)
      · rw [hrun hopen] at hsubmit
        rw [open_after_line hprogram, Classical.not_not] at hopen
        exact hfollows.run hmode hopen hsubmit

/-- The lines of a program can all be submitted, when running it ends. -/
theorem exists_dialogue (hmode : options.strict = false)
    (hprogram : WellNested ((before ++ after).map Line.kind)) (hsuits : Suits (before ++ after))
    {outcome : Interpreter.RunOutcome}
    (hends : (Interpreter.new options .standard).Feeds (before ++ after) outcome) :
    ∃ replies session, Dialogue (.new options) before replies session := by
  induction hcount : before.length generalizing before after with
  | zero =>
      obtain rfl := List.eq_nil_of_length_eq_zero hcount
      exact ⟨[], _, .start⟩
  | succ count ih =>
      obtain rfl | ⟨start, line, rfl⟩ := List.eq_nil_or_concat before
      · cases hcount
      · rw [List.length_concat] at hcount
        rw [List.concat_eq_append, List.append_assoc, List.singleton_append] at hprogram hsuits
        rw [List.concat_eq_append, List.append_assoc, List.singleton_append] at hends
        obtain ⟨replies, session, hdialogue⟩ := ih hprogram hsuits hends (by omega)
        have hfollows := hdialogue.follows hmode hprogram hsuits
        rw [List.concat_eq_append]
        by_cases hopen : OpenAfter ((start ++ line :: after).map Line.kind) start.length
        · obtain ⟨hwait, -⟩ := hfollows.submit hprogram hsuits 0
          exact ⟨_, _, hdialogue.submit (hwait hopen)⟩
        · have hfirst := hopen
          rw [open_after_line hprogram, Classical.not_not] at hfirst
          have hsplit : start ++ line :: after = (start ++ [line]) ++ after := by simp
          have hlast : WellNested (after.map Line.kind) := by
            rw [hsplit, List.map_append] at hprogram
            exact hfirst.of_append hprogram
          -- The run of the program ends, so that of its first part ends, and that of the chunk.
          rw [hsplit] at hends
          obtain ⟨middle, hmiddle, -⟩ :=
            (Interpreter.feeds_in_parts hmode hfirst hlast).mp hends
          obtain ⟨fuel, hfeed⟩ := (hfollows.feeds_rest_iff hmode hfirst).mp hmiddle
          obtain ⟨-, hrun⟩ := hfollows.submit hprogram hsuits fuel
          obtain ⟨reply, next, hreply⟩ : ∃ reply next,
              (session.waiting line).runPending fuel = some (reply, next) :=
            ⟨_, _, congrArg (Option.map _) hfeed⟩
          exact ⟨_, _, hdialogue.submit ((hrun hopen).trans hreply)⟩

/-- A session that is given the lines of a program one by one ends where a run of the whole program
ends, if that is not strict. It answers a line with waiting for more exactly when a block is open
after it, and otherwise runs the lines that wait, as a chunk. In the end no lines wait, and the
interpreter of the session is the one that the run of the program leaves. Outside its blocks the
program may have no blank line and no line that starts with a colon. -/
theorem session_agrees_with_run (hmode : options.strict = false) {program : List Text}
    {map : BlockMap} (hbuild : BlockMap.build program 1 = .ok map) (hsuits : Suits program) :
    (∀ before line after replies session, program = before ++ line :: after →
      Dialogue (.new options) before replies session → ∀ fuel,
        (OpenAfter (program.map Line.kind) before.length → session.submit fuel line =
          some (.pending, { session with pending := session.pending ++ [line] })) ∧
        (¬ OpenAfter (program.map Line.kind) before.length → session.submit fuel line =
          (session.interpreter.feed fuel (session.pending ++ [line])).map fun outcome ↦
            (.output (session.newLines outcome), .shown outcome))) ∧
    ∀ fuel outcome, (Interpreter.new options .standard).runLines fuel program = some outcome →
      (∃ replies session, Dialogue (.new options) program replies session) ∧
      ∀ replies session, Dialogue (.new options) program replies session →
        session.pending = [] ∧ session.interpreter = outcome.interpreter := by
  have hprogram := BlockMap.build_ok_iff.mp ⟨map, hbuild⟩
  refine ⟨?_, fun fuel outcome hrun ↦ ?_⟩
  · rintro before line after replies session rfl hdialogue fuel
    exact (hdialogue.follows hmode hprogram hsuits).submit hprogram hsuits fuel
  · have hends : (Interpreter.new options .standard).Feeds program outcome := ⟨fuel, hrun⟩
    rw [← List.append_nil program] at hprogram hsuits hends
    refine ⟨exists_dialogue hmode hprogram hsuits hends, fun replies session hdialogue ↦ ?_⟩
    have hfollows := hdialogue.follows hmode hprogram hsuits
    rw [List.append_nil] at hprogram hends
    have hidle := hfollows.idle hprogram
    obtain ⟨done, hdone, -, hfeeds⟩ := hfollows.fed
    rw [hidle, List.append_nil] at hdone
    obtain rfl := hdone
    obtain ⟨block, hblock⟩ := Block.of_well_nested hprogram 1
    exact ⟨hidle, congrArg Interpreter.RunOutcome.interpreter (hfeeds.unique hblock hends)⟩

end Program

/-- In the body of a method even a blank line and a line with a colon wait, and the error of the
latter has the same number in the session as in the run. -/
theorem session_agrees_with_run_in_method :
    let program := ["method m".toList, "".toList, ":quit".toList, "endmethod".toList,
      "call m".toList]
    ∃ replies session, Dialogue (.new {}) program replies session ∧ session.pending = [] ∧
      session.interpreter.errors.toList.map LineError.line = [3] := by
  intro program
  obtain ⟨map, hbuild⟩ : ∃ map, BlockMap.build program 1 = .ok map := ⟨_, rfl⟩
  have hblock : Encloses (program.map Line.kind) 0 none 3 := by
    refine ⟨[], .method, none, [.skipped, .statement], [.statement], ?_, ?_, rfl, rfl, rfl⟩
    · decide
    · exact .body (.skipped (.statement .empty))
  have hsuits : Suits program := by
    intro index line hline hinside
    match index with
    | 0 | 4 =>
        obtain rfl := Option.some.inj hline
        constructor <;> decide
    | 1 | 2 | 3 => exact absurd ⟨0, none, 3, hblock, by omega, by omega⟩ hinside
    | index + 5 => cases hline
  have hrun : ((Interpreter.new {} .standard).runLines 8 program).map (fun outcome ↦
      outcome.interpreter.errors.toList.map LineError.line) = some [3] := by decide +kernel
  obtain ⟨outcome, hrun, herrors⟩ := Option.map_eq_some_iff.mp hrun
  obtain ⟨⟨replies, session, hdialogue⟩, hends⟩ :=
    (@session_agrees_with_run {} rfl program map hbuild hsuits).2 8 outcome hrun
  obtain ⟨hidle, hsame⟩ := hends replies session hdialogue
  exact ⟨replies, session, hdialogue, hidle, hsame ▸ herrors⟩

end Session

end PenScript
