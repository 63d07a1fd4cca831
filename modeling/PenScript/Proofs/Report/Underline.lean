import Mathlib.Data.List.DropRight
import PenScript.Proofs.Error.Source
import PenScript.Proofs.Text.Trim
import PenScript.Report

/-!
# Reports underline the line that failed

A program is run line by line, and a report looks for the line of an error in the source text again,
where it counts bytes. Both cut the source after its line feeds, but they do not agree on what a
line end is: a line that is run keeps all carriage returns in front of its line feed except one, and
the underline ends in front of all of them. `Report.line_range_text` says that they agree on
everything else, and `reports_underline_lines` that the underlined text is therefore the text of the
error, whenever a source is run.
-/

namespace PenScript

namespace Text

/-- The text cut in two behind so many bytes, unless it is shorter or a character stands there with
bytes on both sides. -/
def splitBytes? : Nat → Text → Option (Text × Text)
  | 0, text => some ([], text)
  | _ + 1, [] => none
  | count + 1, c :: rest =>
      if c.utf8Size ≤ count + 1 then
        (splitBytes? (count + 1 - c.utf8Size) rest).map fun (front, back) ↦ (c :: front, back)
      else none

theorem byte_length_cons (c : Char) (rest : Text) :
    byteLength (c :: rest) = c.utf8Size + byteLength rest :=
  rfl

/-- One text after the other has the bytes of both. -/
theorem byte_length_append (left right : Text) :
    byteLength (left ++ right) = byteLength left + byteLength right := by
  induction left with
  | nil => exact (Nat.zero_add _).symm
  | cons c rest ih => rw [List.cons_append, byte_length_cons, byte_length_cons, ih, Nat.add_assoc]

/-- A text is cut behind the bytes of its front. -/
theorem split_bytes_append (front back : Text) :
    splitBytes? (byteLength front) (front ++ back) = some (front, back) := by
  induction front with
  | nil => exact splitBytes?.eq_1 back
  | cons c rest ih =>
      obtain ⟨count, hcount⟩ : ∃ count, byteLength (c :: rest) = count + 1 :=
        Nat.exists_eq_succ_of_ne_zero (by have := c.utf8Size_pos; rw [byte_length_cons]; omega)
      have hrest : count + 1 - c.utf8Size = byteLength rest := by
        rw [← hcount, byte_length_cons, Nat.add_sub_cancel_left]
      have hle : c.utf8Size ≤ count + 1 := hcount ▸ Nat.le_add_right _ _
      rw [hcount, List.cons_append, splitBytes?, if_pos hle, hrest, ih]
      rfl

/-- A line feed stands at the end of a segment only. -/
theorem segment_cases {source segment : Text} (h : segment ∈ segments source) :
    ∃ content, '\n' ∉ content ∧ (segment = content ∨ segment = content ++ ['\n']) := by
  induction source generalizing segment with
  | nil => cases h
  | cons c rest ih =>
      rw [segments] at h
      split at h
      · rename_i hfeed
        rcases List.mem_cons.mp h with rfl | hrest
        · exact ⟨[], List.not_mem_nil, .inr (hfeed ▸ rfl)⟩
        · exact ih hrest
      · rename_i hfeed
        have hnew {content : Text} (hcontent : '\n' ∉ content) : '\n' ∉ c :: content :=
          List.not_mem_cons_of_ne_of_not_mem (Ne.symm hfeed) hcontent
        split at h
        · obtain rfl := List.mem_singleton.mp h
          exact ⟨[c], hnew List.not_mem_nil, .inl rfl⟩
        · rename_i first others hrest
          rcases List.mem_cons.mp h with rfl | hothers
          · obtain ⟨content, hcontent, hfirst⟩ := ih (hrest ▸ List.mem_cons_self)
            refine ⟨c :: content, hnew hcontent, ?_⟩
            exact hfirst.imp (congrArg (c :: ·)) (congrArg (c :: ·))
          · exact ih (hrest ▸ List.mem_cons_of_mem _ hothers)

/-- What is dropped at the end of a text depends on its own characters only. -/
theorem rdrop_while_congr {text : Text} {first second : Char → Bool}
    (h : ∀ c ∈ text, first c = second c) : text.rdropWhile first = text.rdropWhile second := by
  induction text using List.reverseRecOn with
  | nil => rfl
  | append_singleton before c ih =>
      obtain ⟨hbefore, hlast⟩ := List.forall_mem_append.mp h
      rw [List.rdropWhile_concat, List.rdropWhile_concat, ih hbefore,
        hlast c List.mem_cons_self]

/-- Carriage returns at the end of a text are blanks, which are trimmed away anyway. -/
theorem trim_without_returns (text : Text) : trim (text.rdropWhile (· == '\r')) = trim text := by
  have hend : trimEnd (text.rdropWhile (· == '\r')) = trimEnd text := by
    show (text.rdropWhile _).rdropWhile isBlank = text.rdropWhile isBlank
    induction text using List.reverseRecOn with
    | nil => rfl
    | append_singleton before c ih =>
        cases hreturn : c == '\r' with
        | true =>
            have hblank : isBlank c = true := by
              rw [beq_iff_eq.mp hreturn]
              decide
            rw [List.rdropWhile_concat, if_pos hreturn, ih, List.rdropWhile_concat, if_pos hblank]
        | false =>
            rw [List.rdropWhile_concat, hreturn, if_neg Bool.false_ne_true]
  rw [← trim_trim_end, hend, trim_trim_end]

end Text

namespace Report

open Text

/-- The text in a range of a source. There is none when the range does not start and end between
characters of the source. -/
def Range.text? (range : Range) (source : Text) : Option Text :=
  (splitBytes? range.stop source).bind fun (front, _) ↦
    (splitBytes? range.start front).map fun (_, text) ↦ text

/-- The text in a range that starts behind one part of a source and ends before another one. -/
theorem text_of_range (before text after : Text) :
    (Range.mk (byteLength before) (byteLength before + byteLength text)).text?
      (before ++ text ++ after) = some text := by
  rw [Range.text?, ← byte_length_append, split_bytes_append]
  simp only [Option.bind_some, split_bytes_append, Option.map_some]

/-- A line loses one carriage return at most, and the underline leaves out all of them. -/
theorem without_breaks_eq {source segment : Text} (h : segment ∈ segments source) :
    withoutBreaks segment = (withoutLineEnd segment).rdropWhile (· == '\r') := by
  show segment.rdropWhile _ = _
  obtain ⟨content, hcontent, hsegment⟩ := segment_cases h
  have hbreaks : content.rdropWhile (fun c ↦ c == '\n' || c == '\r') =
      content.rdropWhile (· == '\r') := by
    refine rdrop_while_congr fun c hc ↦ ?_
    rw [beq_eq_false_iff_ne.mpr (ne_of_mem_of_not_mem hc hcontent), Bool.false_or]
  rcases hsegment with rfl | rfl
  · have hnone : dropLast? '\n' segment = none :=
      if_neg fun hlast ↦ hcontent (List.mem_of_getLast? hlast)
    rw [hbreaks, withoutLineEnd, hnone]
  · rw [List.rdropWhile_concat_pos _ _ _ (by decide), hbreaks, withoutLineEnd, drop_last_concat]
    by_cases hlast : content.getLast? = some '\r'
    · obtain ⟨before, rfl⟩ := List.getLast?_eq_some_iff.mp hlast
      simp only [drop_last_concat, Option.getD_some]
      rw [List.rdropWhile_concat_pos _ _ _ (by decide)]
    · have hnone : dropLast? '\r' content = none := if_neg hlast
      simp only [hnone, Option.getD_none]

/-- The range of a segment starts behind the segments in front of it. -/
theorem range_from_get {pieces : List Text} {index : Nat} {segment : Text}
    (h : pieces[index]? = some segment) (offset : Nat) :
    rangeFrom offset pieces (index + 1) =
      ⟨offset + byteLength (pieces.take index).flatten,
        offset + byteLength (pieces.take index).flatten + byteLength (withoutBreaks segment)⟩ := by
  induction pieces generalizing index offset with
  | nil => cases h
  | cons first rest ih =>
      cases index with
      | zero =>
          obtain rfl := Option.some.inj h
          rfl
      | succ index =>
          rw [List.take_succ_cons, List.flatten_cons, byte_length_append, ← Nat.add_assoc]
          exact ih h (offset + byteLength first)

/-- Behind the last segment the range is empty. -/
theorem range_from_past {pieces : List Text} {number : Nat} (h : pieces.length < number)
    (offset : Nat) :
    rangeFrom offset pieces number =
      ⟨offset + byteLength pieces.flatten, offset + byteLength pieces.flatten⟩ := by
  induction pieces generalizing number offset with
  | nil => rfl
  | cons first rest ih =>
      rw [List.length_cons] at h
      obtain ⟨count, rfl⟩ : ∃ count, number = count + 2 := ⟨number - 2, by omega⟩
      rw [List.flatten_cons, byte_length_append, ← Nat.add_assoc]
      exact ih (by omega) (offset + byteLength first)

/-- The segment of a line. -/
theorem segment_of_line {source line : Text} {index : Nat}
    (h : (Text.lines source)[index]? = some line) :
    ∃ segment, (segments source)[index]? = some segment ∧
      withoutBreaks segment = line.rdropWhile (· == '\r') := by
  rw [Text.lines, List.getElem?_map] at h
  obtain ⟨segment, hsegment, rfl⟩ := Option.map_eq_some_iff.mp h
  exact ⟨segment, hsegment, without_breaks_eq (List.mem_of_getElem? hsegment)⟩

/-- A source with a segment of it set apart. -/
theorem source_around {source segment : Text} {index : Nat}
    (h : (segments source)[index]? = some segment) :
    source = ((segments source).take index).flatten ++ segment ++
      ((segments source).drop (index + 1)).flatten := by
  obtain ⟨hlt, hget⟩ := List.getElem?_eq_some_iff.mp h
  calc source = (segments source).flatten := (flatten_segments source).symm
    _ = ((segments source).take index ++
          segment :: (segments source).drop (index + 1)).flatten := by
        rw [← hget, ← List.drop_eq_getElem_cons hlt, List.take_append_drop]
    _ = _ := by rw [List.flatten_append, List.flatten_cons, List.append_assoc]

/-- The range of a line starts behind a part of the source, and its text is the line without the
carriage returns at its end. -/
theorem line_range_eq {source line : Text} {index : Nat}
    (h : (Text.lines source)[index]? = some line) :
    ∃ before after, source = before ++ line.rdropWhile (· == '\r') ++ after ∧
      lineRange source (index + 1) =
        ⟨byteLength before, byteLength before + byteLength (line.rdropWhile (· == '\r'))⟩ := by
  obtain ⟨segment, hsegment, hbreaks⟩ := segment_of_line h
  obtain ⟨ends, hends⟩ : withoutBreaks segment <+: segment := List.rdropWhile_prefix _ _
  have hsource := source_around hsegment
  rw [← hends, ← List.append_assoc, List.append_assoc _ ends] at hsource
  refine ⟨_, _, hbreaks ▸ hsource, ?_⟩
  rw [← hbreaks, lineRange, if_neg (Nat.succ_ne_zero index), range_from_get hsegment, Nat.zero_add]

/-- The range of a line is inside the source and holds the line without the carriage returns at its
end. -/
theorem line_range_text {source line : Text} {index : Nat}
    (h : (Text.lines source)[index]? = some line) :
    (lineRange source (index + 1)).stop ≤ byteLength source ∧
      (lineRange source (index + 1)).text? source = some (line.rdropWhile (· == '\r')) := by
  obtain ⟨before, after, hsource, hrange⟩ := line_range_eq h
  rw [hrange]
  constructor
  · rw [hsource, byte_length_append, byte_length_append]
    exact Nat.le_add_right _ _
  · conv_lhs => rw [hsource]
    exact text_of_range _ _ _

/-- Where there is no line the range is empty and at the end of the source. -/
theorem line_range_past {source : Text} {number : Nat}
    (h : number = 0 ∨ (Text.lines source).length < number) :
    lineRange source number = ⟨byteLength source, byteLength source⟩ := by
  rw [lineRange]
  split
  · rfl
  · rename_i hnumber
    have hlength : (segments source).length < number := by
      rw [Text.lines, List.length_map] at h
      exact h.resolve_left hnumber
    rw [range_from_past hlength, Nat.zero_add, flatten_segments]

/-- The range that is reported for the error holds the line that the error quotes, apart from the
blanks around it. -/
def Underlines (source : Text) (failure : LineError) : Prop :=
  ∃ text, (lineRange source failure.line).text? source = some text ∧
    Text.trim text = failure.text

/-- An error that points at a line of the source underlines it. -/
theorem underlines_of_points {source : Text} {failure : LineError}
    (h : failure.PointsInto (Text.lines source)) : Underlines source failure := by
  obtain ⟨line, ⟨index, hnumber, hline⟩, htext, -⟩ := h
  refine ⟨line.rdropWhile (· == '\r'), ?_, ?_⟩
  · rw [hnumber, (line_range_text hline).2]
  · rw [trim_without_returns, htext]

end Report

/-- The errors of lines of a source underline them. -/
theorem Interpreter.Sourced.underlines {interpreter : Interpreter} {source : Text}
    (h : interpreter.Sourced (Text.lines source)) :
    ∀ failure ∈ interpreter.errors, Report.Underlines source failure :=
  fun failure hfailure ↦ Report.underlines_of_points (h.errors failure hfailure)

/-- Reports underline the line that failed. The lines of a source are numbered from one, and the
range of a number is inside the source and holds the line without the carriage returns at its end;
for any other number it is empty and at the end of the source. So each error that is recorded while
a source is run underlines the text that it quotes, at the end of the run and at every point of it,
in case the run does not end. -/
theorem reports_underline_lines (source : Text) :
    (∀ index line, (Text.lines source)[index]? = some line →
      (Report.lineRange source (index + 1)).stop ≤ Text.byteLength source ∧
        (Report.lineRange source (index + 1)).text? source = some (line.rdropWhile (· == '\r'))) ∧
    (∀ number, number = 0 ∨ (Text.lines source).length < number →
      Report.lineRange source number = ⟨Text.byteLength source, Text.byteLength source⟩) ∧
    ∀ interpreter : Interpreter,
      (∀ fuel outcome, interpreter.runSource fuel source = some outcome →
        ∀ failure ∈ outcome.interpreter.errors, Report.Underlines source failure) ∧
      ∀ block current place, Block.ofLines (Text.lines source).toArray 1 = .ok block →
        Visits block (.start .empty (interpreter.reset.ready (Text.lines source).length))
          current place →
        ∀ failure ∈ place.interpreter.errors, Report.Underlines source failure := by
  refine ⟨fun index line ↦ Report.line_range_text, fun number ↦ Report.line_range_past,
    fun interpreter ↦ ⟨?_, ?_⟩⟩
  · intro fuel outcome hrun
    exact ((Interpreter.Sourced.reset interpreter []).feed rfl hrun).1.underlines
  · intro block current place hblock hvisits
    obtain ⟨hlines, hfirst⟩ := Block.lines_of_ok hblock
    have hclean := Interpreter.Sourced.reset interpreter (Text.lines source)
    have hpoint := (Interpreter.Sourced.invariant (Text.lines source)).visits hvisits
      (@Block.From.of_chunk [] _ _ hlines hfirst) ⟨hclean.methods, hclean.errors⟩
    exact hpoint.2.underlines

/-- A source with two carriage returns in front of a line feed, an empty line, one carriage return
in front of a line feed, and one at its end, where there is no line feed. -/
theorem reports_underline_lines_with_returns :
    let source := "é = \r\r\n\n  jump 1 \r\nlast\r".toList
    (Text.lines source)[2]? = some "  jump 1 ".toList ∧
    Report.lineRange source 3 = ⟨9, 18⟩ ∧
    (Report.lineRange source 3).text? source = some "  jump 1 ".toList ∧
    Report.lineRange source 5 = ⟨25, 25⟩ ∧
    ∃ outcome, (Interpreter.new {} .standard).runSource 8 source = some outcome ∧
      outcome.interpreter.errors.toList.map (fun failure ↦ (failure.line, failure.text)) =
        [(1, "é =".toList), (3, "jump 1".toList), (4, "last".toList)] ∧
      ∀ failure ∈ outcome.interpreter.errors, Report.Underlines source failure := by
  intro source
  have hline : (Text.lines source)[2]? = some "  jump 1 ".toList := by decide
  have hwhole : "  jump 1 ".toList.rdropWhile (· == '\r') = "  jump 1 ".toList := by decide
  have hrange : Report.lineRange source 3 = ⟨9, 18⟩ := by decide
  have hpast : (Text.lines source).length < 5 := by decide
  have hbytes : Text.byteLength source = 25 := by decide
  have hrecorded : ((Interpreter.new {} .standard).runSource 8 source).map (fun outcome ↦
      outcome.interpreter.errors.toList.map fun failure ↦ (failure.line, failure.text)) =
        some [(1, "é =".toList), (3, "jump 1".toList), (4, "last".toList)] := by decide +kernel
  obtain ⟨outcome, hrun, herrors⟩ := Option.map_eq_some_iff.mp hrecorded
  obtain ⟨hlines, hempty, hruns⟩ := reports_underline_lines source
  have htext := (hlines 2 _ hline).2
  rw [hwhole] at htext
  have hend := hempty 5 (.inr hpast)
  rw [hbytes] at hend
  exact ⟨hline, hrange, htext, hend, outcome, hrun, herrors,
    (hruns (.new {} .standard)).1 8 outcome hrun⟩

end PenScript
