import PenScript.Proofs.Machine.Drawing

/-!
# Replaying a log

The log of a canvas says of each operation where the pen was and whether it filled, although the
pen itself is kept beside the log. The two never drift apart: whatever is asked of a new canvas, the
actions that its log tells, carried out on another new canvas, lead to the same canvas
(`log_replays`). `Canvas.Traced` is what every request preserves.
-/

namespace PenScript

namespace Canvas

/-- What may be asked of a canvas: an action, where the pen is, or to forget everything. -/
inductive Request where
  | act (action : Action)
  | locate
  | reset

/-- The canvas after a request. Only to say where the pen is changes nothing. -/
def serve (canvas : Canvas) : Request → Canvas
  | .act action => canvas.perform action
  | .locate => canvas
  | .reset => .blank

/-- A new canvas after some requests, one after the other. -/
def afterRequests (requests : List Request) : Canvas :=
  requests.foldl serve .blank

namespace Operation

/-- The action that an operation comes from, without what the canvas knew by itself. -/
def action : Operation → Action
  | .moveTo target => .moveTo target
  | .line _ target => .drawTo target
  | .colour shade => .setColour shade
  | .fill on => .setFill on
  | .rectangle _ width height _ => .rectangle width height
  | .circle _ radius _ => .circle radius
  | .triangle _ width height _ => .triangle width height
  | .text _ written => .write written
  | .clear => .clear

/-- The place to which an operation takes the pen. -/
def target? : Operation → Option Point
  | .moveTo target | .line _ target => some target
  | _ => none

/-- The fill state that an operation sets. -/
def filling? : Operation → Option Bool
  | .fill on => some on
  | _ => none

/-- What an operation says about the pen is that it is at this place and fills or not. -/
def Shows (place : Point) (filling : Bool) : Operation → Prop
  | .line start _ => start = place
  | .rectangle corner _ _ filled | .triangle corner _ _ filled => corner = place ∧ filled = filling
  | .circle centre _ filled => centre = place ∧ filled = filling
  | .text corner _ => corner = place
  | .moveTo _ | .colour _ | .fill _ | .clear => True

end Operation

/-- The place to which the last of the operations that move the pen has taken it. -/
def penAfter (operations : List Operation) : Point :=
  (operations.filterMap Operation.target?).getLastD ⟨0, 0⟩

/-- The fill state that was set last by the operations. -/
def fillingAfter (operations : List Operation) : Bool :=
  (operations.filterMap Operation.filling?).getLastD false

/-- A new canvas on which the actions of a log are carried out. -/
def replay (operations : List Operation) : Canvas :=
  blank.performAll (operations.map Operation.action)

/-- The log tells all about the canvas: it can be replayed, and each of its operations shows the pen
as those before it have left it. -/
structure Traced (canvas : Canvas) : Prop where
  replayed : replay canvas.operations.toList = canvas
  position : canvas.position = penAfter canvas.operations.toList
  filling : canvas.filling = fillingAfter canvas.operations.toList
  shown : ∀ before operation after, canvas.operations.toList = before ++ operation :: after →
    operation.Shows (penAfter before) (fillingAfter before)

section Steps

variable {canvas : Canvas} {operations : List Operation} {action : Action}

/-- An action is told by the operation that it records. -/
theorem action_record (canvas : Canvas) (action : Action) :
    (canvas.record action).action = action := by
  cases action <;> rfl

/-- What an action records shows the pen of the canvas. -/
theorem record_shows (canvas : Canvas) (action : Action) :
    (canvas.record action).Shows canvas.position canvas.filling := by
  cases action with
  | drawTo _ | write _ => exact rfl
  | rectangle _ _ | circle _ | triangle _ _ => exact ⟨rfl, rfl⟩
  | moveTo _ | setColour _ | setFill _ | clear => exact trivial

/-- One more operation is replayed after the others. -/
theorem replay_concat (operations : List Operation) (operation : Operation) :
    replay (operations ++ [operation]) = (replay operations).perform operation.action := by
  rw [replay, List.map_append, performAll, List.foldl_append]
  rfl

/-- An action takes the pen where its operation says. -/
theorem position_perform (canvas : Canvas) (action : Action) :
    (canvas.perform action).position =
      ((canvas.record action).target?).getD canvas.position := by
  cases action <;> rfl

/-- An action sets the fill state as its operation says. -/
theorem filling_perform (canvas : Canvas) (action : Action) :
    (canvas.perform action).filling =
      ((canvas.record action).filling?).getD canvas.filling := by
  cases action <;> rfl

/-- The last value that a list yields is that of its last member, if this has one. -/
theorem get_last_filter_map_concat {α β : Type} (f : α → Option β) (items : List α) (last : α)
    (default : β) :
    ((items ++ [last]).filterMap f).getLastD default =
      (f last).getD ((items.filterMap f).getLastD default) := by
  rw [List.filterMap_append]
  cases hlast : f last with
  | none => simp [hlast]
  | some value => simp [hlast]

/-- Nothing has been drawn on a new canvas. -/
theorem Traced.blank : Canvas.blank.Traced where
  replayed := rfl
  position := rfl
  filling := rfl
  shown before operation after hlog := by simp [Canvas.blank] at hlog

/-- An action adds an operation that shows the pen as it was, and moves the pen as the operation
says. -/
theorem Traced.perform (h : canvas.Traced) (action : Action) : (canvas.perform action).Traced := by
  have hlog : (canvas.perform action).operations.toList =
      canvas.operations.toList ++ [canvas.record action] := by
    rw [operations_perform, Array.toList_push]
  constructor
  · rw [hlog, replay_concat, h.replayed, action_record]
  · rw [hlog, position_perform, h.position, penAfter, penAfter, get_last_filter_map_concat]
  · rw [hlog, filling_perform, h.filling, fillingAfter, fillingAfter, get_last_filter_map_concat]
  · intro before operation after hsplit
    rw [hlog] at hsplit
    rcases List.eq_nil_or_concat after with rfl | ⟨rest, last, rfl⟩
    · obtain ⟨rfl, hlast⟩ := List.append_inj' hsplit rfl
      rw [← h.position, ← h.filling, ← List.singleton_inj.mp hlast]
      exact record_shows canvas action
    · rw [List.concat_eq_append, ← List.cons_append, ← List.append_assoc] at hsplit
      exact h.shown before operation rest (List.append_inj' hsplit rfl).1

/-- Every request preserves that the log tells all. -/
theorem Traced.serve (h : canvas.Traced) (request : Request) : (canvas.serve request).Traced := by
  cases request with
  | act action => exact h.perform action
  | locate => exact h
  | reset => exact .blank

/-- The log tells all about a canvas, whatever has been asked of it since it was new. -/
theorem traced_after_requests (requests : List Request) : (afterRequests requests).Traced := by
  suffices h : ∀ canvas : Canvas, canvas.Traced → (requests.foldl Canvas.serve canvas).Traced from
    h .blank .blank
  induction requests with
  | nil => exact fun _ htraced ↦ htraced
  | cons request rest ih => exact fun canvas htraced ↦ ih _ (htraced.serve request)

end Steps

/-- Whatever has been asked of a new canvas, carrying out the actions of its log on another new
canvas leads to the same place, colour and fill state of the pen and to the same log. In the log,
each line starts where the operations before it have left the pen, each shape and each text stands
there, and each shape is filled or not as they have last set it. -/
theorem log_replays (requests : List Request) :
    replay (afterRequests requests).operations.toList = afterRequests requests ∧
      ∀ before operation after,
        (afterRequests requests).operations.toList = before ++ operation :: after →
        operation.Shows (penAfter before) (fillingAfter before) :=
  have htraced := traced_after_requests requests
  ⟨htraced.replayed, htraced.shown⟩

/-- A filled circle after a line that was drawn on a canvas that had been used before. -/
theorem log_replays_of_filled_circle :
    let requests : List Request := [.act (.moveTo ⟨7, 7⟩), .reset, .act (.setFill true), .locate,
      .act (.drawTo ⟨3, -4⟩), .act (.circle 5)]
    (afterRequests requests).operations.toList =
      [.fill true, .line ⟨0, 0⟩ ⟨3, -4⟩] ++ .circle ⟨3, -4⟩ 5 true :: [] ∧
    replay (afterRequests requests).operations.toList = afterRequests requests ∧
    Operation.Shows (penAfter [.fill true, .line ⟨0, 0⟩ ⟨3, -4⟩])
      (fillingAfter [.fill true, .line ⟨0, 0⟩ ⟨3, -4⟩]) (.circle ⟨3, -4⟩ 5 true) := by
  intro requests
  have hlog : (afterRequests requests).operations.toList =
      [.fill true, .line ⟨0, 0⟩ ⟨3, -4⟩] ++ .circle ⟨3, -4⟩ 5 true :: [] := rfl
  obtain ⟨hreplay, hshown⟩ := log_replays requests
  exact ⟨hlog, hreplay, hshown _ _ _ hlog⟩

end Canvas

end PenScript
