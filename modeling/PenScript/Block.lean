import PenScript.Error
import PenScript.Line

/-!
# Blocks

A program is a list of lines in which blocks nest. `BlockMap.build` finds the partner of every
opener, closer and `else` in one pass with a stack of open blocks, or the first line at which the
nesting fails. A `Block` is a list of lines together with its map; its type says that the lines
nest.
-/

namespace PenScript

/-- The partners of the lines of a program, by index from zero: an opener and its closer belong
together, an `else` goes with its closer, and a conditional may have an `else`. -/
structure BlockMap where
  partners : Array (Option Nat)
  alternatives : Array (Option Nat)
deriving DecidableEq

/-- A block that is open at some line: its kind, the index of its opener, and that of its `else`. -/
structure OpenBlock where
  kind : BlockKind
  index : Nat
  alternative : Option Nat

namespace BlockMap

/-- The map of lines without blocks. -/
def empty (size : Nat) : BlockMap :=
  ⟨Array.replicate size none, Array.replicate size none⟩

/-- The closer of an opener or an `else`, or the opener of a closer. -/
def partner? (map : BlockMap) (index : Nat) : Option Nat :=
  map.partners[index]?.join

/-- The `else` of the conditional that opens on a line. -/
def else? (map : BlockMap) (index : Nat) : Option Nat :=
  map.alternatives[index]?.join

/-- The map with one more block, closed on a line. -/
def close (map : BlockMap) (opened : OpenBlock) (index : Nat) : BlockMap :=
  let partners := (map.partners.setIfInBounds opened.index (some index)).setIfInBounds index
    (some opened.index)
  match opened.alternative with
  | none => { map with partners := partners }
  | some alternative =>
      { partners := partners.setIfInBounds alternative (some index)
        alternatives := map.alternatives.setIfInBounds opened.index (some alternative) }

/-- Goes on with the kinds of the lines from an index, the blocks that are open there, innermost
first, and the map of the blocks that are closed. -/
def buildFrom (firstLine : Nat) :
    Nat → List LineKind → List OpenBlock → BlockMap → Except BlockError BlockMap
  | _, [], [], map => .ok map
  | _, [], opened :: _, _ => .error ⟨firstLine + opened.index, .missingCloser opened.kind⟩
  | index, .opener kind :: rest, stack, map =>
      buildFrom firstLine (index + 1) rest (⟨kind, index, none⟩ :: stack) map
  | index, .otherwise :: rest, stack, map =>
      match stack with
      | ⟨.conditional, opener, none⟩ :: outer =>
          buildFrom firstLine (index + 1) rest (⟨.conditional, opener, some index⟩ :: outer) map
      | ⟨.conditional, opener, some _⟩ :: _ =>
          .error ⟨firstLine + index, .secondElse (firstLine + opener)⟩
      | _ => .error ⟨firstLine + index, .elseWithoutConditional⟩
  | index, .closer kind :: rest, stack, map =>
      match stack with
      | [] => .error ⟨firstLine + index, .closerWithoutOpener kind⟩
      | opened :: outer =>
          if opened.kind = kind then
            buildFrom firstLine (index + 1) rest outer (map.close opened index)
          else .error ⟨firstLine + index, .crossed kind opened.kind (firstLine + opened.index)⟩
  | index, .skipped :: rest, stack, map | index, .statement :: rest, stack, map =>
      buildFrom firstLine (index + 1) rest stack map

/-- The map of a list of lines, whose first line has the given number in the program. -/
def build (lines : List Text) (firstLine : Nat) : Except BlockError BlockMap :=
  buildFrom firstLine 0 (lines.map Line.kind) [] (empty lines.length)

end BlockMap

/-- Lines that nest, with their map and the number of the first line in the program. -/
structure Block where
  lines : Array Text
  firstLine : Nat
  map : BlockMap
  nested : BlockMap.build lines.toList firstLine = .ok map

namespace Block

/-- The block of some lines, when they nest. -/
def ofLines (lines : Array Text) (firstLine : Nat) : Except BlockError Block :=
  match nested : BlockMap.build lines.toList firstLine with
  | .ok map => .ok ⟨lines, firstLine, map, nested⟩
  | .error cause => .error cause

/-- The number in the program of the line at an index. -/
def lineNumber (block : Block) (index : Nat) : Nat :=
  block.firstLine + index

/-- The closer of the opener on a line. -/
def closer (block : Block) (index : Nat) : Except Error Nat :=
  match block.map.partner? index with
  | some closer => .ok closer
  | none => .error (.unmatchedBlock ⟨block.lineNumber index, .openEnded⟩)

end Block

end PenScript
