import Mathlib.Data.List.Basic
import PenScript.Canvas
import PenScript.Proofs.Text.Quoted

/-!
# Reading the trace

The trace of a canvas tells its whole log. Each operation has its own line, because no description
holds a line feed (`description_no_line_feed`), and different operations have different descriptions
(`description_injective`): the keyword tells the kind of the operation, and the numbers and the
quoted text behind it are delimited by what separates them. `trace_determines_log` puts the two
together.
-/

namespace PenScript.Canvas

open Text

namespace Operation

/-! ### Parts of descriptions -/

theorem delimited_number : Delimited NoDigit fun number : Int32 ↦ ofInt number.toInt :=
  delimited_of_int.comp fun _ _ h ↦ Int32.toInt_inj.mp h

theorem delimited_component : Delimited NoDigit fun component : UInt8 ↦ ofNat component.toNat :=
  delimited_of_nat.comp fun _ _ h ↦ UInt8.toNat_inj.mp h

/-- A pair of sizes is delimited by anything but a digit. -/
theorem delimited_size : Delimited NoDigit fun size : Int32 × Int32 ↦ sizeText size.1 size.2 := by
  have hpair := delimited_number.pair delimited_number ['x'] fun rest ↦ .cons (by decide) rest
  intro first second after other hafter hother h
  exact hpair hafter hother (by simpa [sizeText] using h)

/-- A point is delimited by anything but a digit. -/
theorem delimited_point : Delimited NoDigit pointText := by
  have hpair := delimited_number.pair delimited_number [','] fun rest ↦ .cons (by decide) rest
  have hpoint : Function.Injective fun point : Point ↦ (point.x, point.y) := by
    intro first second h
    obtain ⟨hx, hy⟩ := Prod.mk.inj h
    exact (Point.mk.injEq ..).mpr ⟨hx, hy⟩
  intro first second after other hafter hother h
  exact hpair.comp hpoint hafter hother (by simpa [pointText] using h)

/-- The components of a colour tell the colour. -/
theorem colour_text_injective {shade other : Colour}
    (h : ofNat shade.red.toNat ++ ',' :: (ofNat shade.green.toNat ++
        ',' :: ofNat shade.blue.toNat) =
      ofNat other.red.toNat ++ ',' :: (ofNat other.green.toNat ++
        ',' :: ofNat other.blue.toNat)) : shade = other := by
  have hcomma : ∀ rest, NoDigit (',' :: rest) := .cons (by decide)
  obtain ⟨hred, hrest⟩ := delimited_component (hcomma _) (hcomma _) h
  obtain ⟨hgreen, hrest⟩ := delimited_component (hcomma _) (hcomma _) (List.cons.inj hrest).2
  have hblue := delimited_component.injective .nil (List.cons.inj hrest).2
  exact (Colour.mk.injEq ..).mpr ⟨hred, hgreen, hblue⟩

/-- The place at the end of a description starts with a blank. -/
theorem place_text_no_digit (place : Point) (filled : Bool) : NoDigit (placeText place filled) :=
  .cons (by decide) _

/-- The place at the end of a description tells the point, and whether the shape is filled. -/
theorem place_text_injective {place otherPlace : Point} {filled otherFilled : Bool}
    (h : placeText place filled = placeText otherPlace otherFilled) :
    place = otherPlace ∧ filled = otherFilled := by
  have hend : ∀ filled : Bool, NoDigit (if filled then " filled".toList else []) := by
    intro filled
    cases filled with
    | true => exact .cons (by decide) _
    | false => exact .nil
  simp only [placeText, List.append_assoc] at h
  obtain ⟨hplace, hrest⟩ := delimited_point (hend _) (hend _) (List.append_cancel_left h)
  refine ⟨hplace, ?_⟩
  cases filled <;> cases otherFilled <;> first | rfl | cases hrest

/-! ### Descriptions -/

/-- The sizes and the place of a shape can be told from its description. -/
theorem shape_text_injective {width height otherWidth otherHeight : Int32}
    {place otherPlace : Point} {filled otherFilled : Bool}
    (h : sizeText width height ++ placeText place filled =
      sizeText otherWidth otherHeight ++ placeText otherPlace otherFilled) :
    width = otherWidth ∧ height = otherHeight ∧ place = otherPlace ∧ filled = otherFilled := by
  obtain ⟨hsize, hrest⟩ := @delimited_size (width, height) (otherWidth, otherHeight) _ _
    (place_text_no_digit _ _) (place_text_no_digit _ _) h
  obtain ⟨hwidth, hheight⟩ := Prod.mk.inj hsize
  exact ⟨hwidth, hheight, place_text_injective hrest⟩

/-- The word that the description of an operation starts with. -/
def keyword : Operation → Text
  | .moveTo _ => "moveto".toList
  | .line .. => "line".toList
  | .colour _ => "colour".toList
  | .fill _ => "fill".toList
  | .rectangle .. => "rect".toList
  | .circle .. => "circle".toList
  | .triangle .. => "tri".toList
  | .text .. => "text".toList
  | .clear => "clear".toList

/-- The keyword is all that stands in front of the first blank. -/
theorem take_description (operation : Operation) :
    operation.description.takeWhile (· != ' ') = operation.keyword := by
  unfold description keyword
  cases operation <;> simp

/-- Different operations are described differently. -/
theorem description_injective : Function.Injective description := by
  intro first second h
  have hkeyword : first.keyword = second.keyword := by
    rw [← take_description, h, take_description]
  cases first <;> cases second
  case moveTo.moveTo target other =>
    unfold description at h
    rw [delimited_point.injective .nil (List.append_cancel_left h)]
  case line.line start target otherStart otherTarget =>
    have harrow : ∀ rest, NoDigit (" -> ".toList ++ rest) := .cons (by decide)
    unfold description at h
    simp only [List.append_assoc] at h
    obtain ⟨rfl, hrest⟩ := delimited_point (harrow _) (harrow _) (List.append_cancel_left h)
    rw [delimited_point.injective .nil (List.append_cancel_left hrest)]
  case colour.colour shade other =>
    unfold description at h
    simp only [List.append_assoc, List.cons_append] at h
    rw [colour_text_injective (List.append_cancel_left h)]
  case fill.fill on other =>
    cases on <;> cases other <;> first | rfl | exact absurd h (by decide)
  case rectangle.rectangle corner width height filled otherCorner otherWidth otherHeight
      otherFilled =>
    unfold description at h
    simp only [List.append_assoc] at h
    obtain ⟨rfl, rfl, rfl, rfl⟩ := shape_text_injective (List.append_cancel_left h)
    rfl
  case circle.circle centre radius filled otherCentre otherRadius otherFilled =>
    unfold description at h
    simp only [List.append_assoc] at h
    obtain ⟨rfl, hrest⟩ := delimited_number (place_text_no_digit _ _) (place_text_no_digit _ _)
      (List.append_cancel_left h)
    obtain ⟨rfl, rfl⟩ := place_text_injective hrest
    rfl
  case triangle.triangle corner width height filled otherCorner otherWidth otherHeight
      otherFilled =>
    unfold description at h
    simp only [List.append_assoc] at h
    obtain ⟨rfl, rfl, rfl, rfl⟩ := shape_text_injective (List.append_cancel_left h)
    rfl
  case text.text place written otherPlace otherWritten =>
    unfold description at h
    simp only [List.append_assoc] at h
    obtain ⟨rfl, hrest⟩ := delimited_quoted trivial trivial (List.append_cancel_left h)
    obtain ⟨rfl, -⟩ := place_text_injective hrest
    rfl
  case clear.clear => rfl
  -- All other pairs have different keywords.
  all_goals
    unfold keyword at hkeyword
    dsimp only at hkeyword
    exact absurd hkeyword (by decide)

/-- No numeral holds a line feed. -/
theorem of_nat_no_line_feed (number : Nat) : '\n' ∉ ofNat number := by
  intro h
  cases digit_of_mem_of_nat h

theorem of_int_no_line_feed (number : Int) : '\n' ∉ ofInt number := by
  unfold ofInt
  split <;> simp [of_nat_no_line_feed]

theorem place_text_no_line_feed (place : Point) (filled : Bool) :
    '\n' ∉ placeText place filled := by
  cases filled <;> simp [placeText, pointText, of_int_no_line_feed]

/-- An operation is described on one line. -/
theorem description_no_line_feed (operation : Operation) : '\n' ∉ operation.description := by
  unfold description
  cases operation with
  | moveTo | line => simp [pointText, of_int_no_line_feed]
  | colour => simp [of_nat_no_line_feed]
  | fill on => cases on <;> decide
  | rectangle | triangle => simp [sizeText, of_int_no_line_feed, place_text_no_line_feed]
  | circle => simp [of_int_no_line_feed, place_text_no_line_feed]
  | text => simp [quoted_no_line_feed, place_text_no_line_feed]
  | clear => decide

/-- No description is empty. -/
theorem description_ne_nil (operation : Operation) : operation.description ≠ [] := by
  unfold description
  cases operation <;> simp

end Operation

/-- The lines of a trace that is not empty are the descriptions of the operations. -/
theorem split_trace {canvas : Canvas} (h : canvas.operations ≠ #[]) :
    canvas.trace.splitOn '\n' = canvas.operations.toList.map Operation.description := by
  refine List.splitOn_intercalate '\n' ?_ ?_
  · intro line hline
    obtain ⟨operation, -, rfl⟩ := List.mem_map.mp hline
    exact operation.description_no_line_feed
  · simpa using h

/-- A trace is empty only when nothing was drawn. -/
theorem trace_eq_nil_iff (canvas : Canvas) : canvas.trace = [] ↔ canvas.operations = #[] := by
  constructor
  · intro htrace
    refine Decidable.byContradiction fun hoperations ↦ ?_
    -- An empty text is one line without characters, and no operation is described so.
    have hlines := split_trace hoperations
    rw [htrace, List.splitOn_nil] at hlines
    obtain ⟨operation, -, hdescription⟩ := List.mem_map.mp (hlines ▸ List.mem_singleton_self [])
    exact operation.description_ne_nil hdescription
  · intro hoperations
    rw [trace, hoperations]
    rfl

/-- Two canvases show the same trace exactly when their logs are the same. The lines of a trace,
unless nothing was drawn, are the descriptions of the operations in the log, one for each, whatever
characters the written texts hold. -/
theorem trace_determines_log :
    (∀ first second : Canvas,
      first.trace = second.trace ↔ first.operations = second.operations) ∧
    ∀ canvas : Canvas, canvas.operations ≠ #[] →
      canvas.trace.splitOn '\n' = canvas.operations.toList.map Operation.description := by
  refine ⟨fun first second ↦ ⟨fun htrace ↦ ?_, fun hoperations ↦ ?_⟩, fun _ ↦ split_trace⟩
  · by_cases hfirst : first.operations = #[]
    · have hsecond := (trace_eq_nil_iff second).mp
        (htrace.symm.trans ((trace_eq_nil_iff first).mpr hfirst))
      rw [hfirst, hsecond]
    · have hsecond : second.operations ≠ #[] := fun hempty ↦
        hfirst ((trace_eq_nil_iff first).mp (htrace.trans ((trace_eq_nil_iff second).mpr hempty)))
      have hlines := split_trace hfirst
      rw [htrace, split_trace hsecond] at hlines
      exact Array.toList_inj.mp
        (List.map_injective_iff.mpr Operation.description_injective hlines.symm)
  · rw [trace, trace, hoperations]

/-- A text with a line feed, a quote and a backslash, between two other operations. -/
theorem trace_determines_log_of_marks :
    let canvas : Canvas := { Canvas.blank with
      operations := #[.fill true, .text ⟨-1, 2⟩ "a\n\"\\".toList, .circle ⟨-1, 2⟩ 3 true] }
    canvas.operations ≠ #[] ∧
    canvas.trace.splitOn '\n' = ["fill on".toList, "text \"a\\n\\\"\\\\\" at -1,2".toList,
      "circle r=3 at -1,2 filled".toList] := by
  intro canvas
  have hdrawn : canvas.operations ≠ #[] := by simp [canvas]
  refine ⟨hdrawn, ?_⟩
  rw [trace_determines_log.2 canvas hdrawn]
  decide +kernel

end PenScript.Canvas
