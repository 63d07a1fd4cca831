import PenScript.Proofs.Program.Tree

/-!
# Programs in a block

`Block.Holds` locates a program in the lines of a block. Its lemmas take the program apart: they say
which line stands where, where the parts of the program are located, and what the map of the block
says about an opener.
-/

namespace PenScript

namespace Block

variable {block : Block} {index : Nat}

/-- The texts are lines of the block, from an index on. -/
def Has (block : Block) (index : Nat) (texts : List Text) : Prop :=
  ∃ before after, block.lines.toList = before ++ (texts ++ after) ∧ before.length = index

/-- The first of the texts is the line at the index, and the others follow it. -/
theorem Has.cons {text : Text} {texts : List Text} (h : block.Has index (text :: texts)) :
    block.lines[index]? = some text ∧ block.Has (index + 1) texts := by
  obtain ⟨before, after, hlines, rfl⟩ := h
  refine ⟨?_, before ++ [text], after, by simp [hlines], by simp⟩
  rw [← Array.getElem?_toList, hlines]
  simp

/-- Texts that follow others stand after them. -/
theorem Has.append {first last : List Text} (h : block.Has index (first ++ last)) :
    block.Has index first ∧ block.Has (index + first.length) last := by
  obtain ⟨before, after, hlines, rfl⟩ := h
  refine ⟨⟨before, last ++ after, ?_, rfl⟩, before ++ first, after, ?_, ?_⟩
  · rw [hlines, List.append_assoc]
  · rw [hlines, List.append_assoc, List.append_assoc]
  · rw [List.length_append]

/-- The texts are what the block has in their place. -/
theorem Has.extract {texts : List Text} (h : block.Has index texts) :
    block.lines.extract index (index + texts.length) = texts.toArray := by
  obtain ⟨before, after, hlines, rfl⟩ := h
  apply Array.ext'
  rw [Array.toList_extract, List.extract_eq_take_drop, hlines, List.drop_left,
    Nat.add_sub_cancel_left, List.take_left]

/-- The lines of a program stand in the block from an index on. -/
def Holds (block : Block) (index : Nat) (program : Program) : Prop :=
  block.Has index program.lines

/-- A block of lines holds its nesting tree. -/
theorem holds_program (block : Block) : block.Holds 0 block.program :=
  ⟨[], [], by simp, rfl⟩

/-- A block inside a block has its closer as partner, and its `else` if it has one. -/
theorem map_of_encloses {alternative : Option Nat} {closer : Nat}
    (h : Encloses (block.lines.toList.map Line.kind) index alternative closer) :
    block.map.partner? index = some closer ∧ block.map.else? index = alternative := by
  have hmap := BlockMap.build_describes block.nested
  have hscan := well_nested_iff_after.mp block.well_nested
  refine ⟨(hmap.partner_iff _ _).mpr (.inl ⟨alternative, h⟩), ?_⟩
  cases hfound : block.map.else? index with
  | some found =>
      obtain ⟨_, hother⟩ := (hmap.else_iff _ _).mp hfound
      exact (h.unique_of_opener hother hscan).2.symm
  | none =>
      cases alternative with
      | none => rfl
      | some position =>
          rw [(hmap.else_iff _ _).mpr ⟨closer, h⟩] at hfound
          cases hfound

/-- A block inside the lines of the block is found in its map. -/
theorem Has.map {kind : BlockKind} {header closer : Text} {inner texts : List Text}
    {offset : Option Nat} (h : block.Has index (header :: (inner ++ closer :: texts)))
    (hopens : Line.kind header = .opener kind) (hcloses : Line.kind closer = .closer kind)
    (hinner : Interior kind offset (inner.map Line.kind)) :
    block.map.partner? index = some (index + 1 + inner.length) ∧
      block.map.else? index = offset.map (index + 1 + ·) := by
  obtain ⟨before, after, hlines, rfl⟩ := h
  refine map_of_encloses ⟨before.map Line.kind, kind, offset, inner.map Line.kind,
    (texts ++ after).map Line.kind, ?_, hinner, by simp, rfl, by simp⟩
  simp [hlines, hopens, hcloses]

/-- A program that starts with a line has it at its index, and the rest after it. -/
theorem Holds.line {text : Text} {plain : Line.kind text = .skipped ∨ Line.kind text = .statement}
    {rest : Program} (h : block.Holds index (.line text plain rest)) :
    block.lines[index]? = some text ∧ block.Holds (index + 1) rest :=
  Has.cons h

/-- Where the parts of a block without an `else` are. -/
structure Enclosed (block : Block) (index : Nat) (header : Text) (body : Program) (closer : Text)
    (rest : Program) : Prop where
  header_at : block.lines[index]? = some header
  body_at : block.Holds (index + 1) body
  closer_at : block.lines[index + 1 + body.size]? = some closer
  rest_at : block.Holds (index + 1 + body.size + 1) rest
  partner : block.map.partner? index = some (index + 1 + body.size)
  no_else : block.map.else? index = none
  body_lines : block.lines.extract (index + 1) (index + 1 + body.size) = body.lines.toArray

/-- A program that starts with a block without an `else` has its parts one after another. -/
theorem Holds.enclosed {kind : BlockKind} {header closer : Text}
    {opens : Line.kind header = .opener kind} {closes : Line.kind closer = .closer kind}
    {body rest : Program}
    (h : block.Holds index (.block kind header opens body closer closes rest)) :
    block.Enclosed index header body closer rest := by
  rw [Holds, Program.lines] at h
  obtain ⟨hpartner, helse⟩ := h.map opens closes (.body body.well_nested)
  obtain ⟨hheader, h⟩ := h.cons
  obtain ⟨hbody, h⟩ := h.append
  obtain ⟨hcloser, hrest⟩ := h.cons
  have hextract := hbody.extract
  rw [Program.length_lines] at hpartner hcloser hrest hextract
  exact ⟨hheader, hbody, hcloser, hrest, hpartner, helse, hextract⟩

/-- Where the parts of a conditional with an `else` are. -/
structure Forked (block : Block) (index : Nat) (header : Text) (yes : Program) (otherwise : Text)
    (no : Program) (closer : Text) (rest : Program) : Prop where
  header_at : block.lines[index]? = some header
  yes_at : block.Holds (index + 1) yes
  else_at : block.lines[index + 1 + yes.size]? = some otherwise
  no_at : block.Holds (index + 1 + yes.size + 1) no
  closer_at : block.lines[index + 1 + yes.size + 1 + no.size]? = some closer
  rest_at : block.Holds (index + 1 + yes.size + 1 + no.size + 1) rest
  partner : block.map.partner? index = some (index + 1 + yes.size + 1 + no.size)
  has_else : block.map.else? index = some (index + 1 + yes.size)

/-- A program that starts with a conditional with an `else` has its parts one after another. -/
theorem Holds.forked {header otherwise closer : Text}
    {opens : Line.kind header = .opener .conditional} {turns : Line.kind otherwise = .otherwise}
    {closes : Line.kind closer = .closer .conditional} {yes no rest : Program}
    (h : block.Holds index (.branches header opens yes otherwise turns no closer closes rest)) :
    block.Forked index header yes otherwise no closer rest := by
  rw [Holds, Program.lines] at h
  have hinner : Interior .conditional (some (yes.lines.map Line.kind).length)
      ((yes.lines ++ otherwise :: no.lines).map Line.kind) := by
    rw [List.map_append, List.map_cons, turns]
    exact .branches yes.well_nested no.well_nested
  have hlines : header :: (yes.lines ++ otherwise :: (no.lines ++ closer :: rest.lines)) =
      header :: ((yes.lines ++ otherwise :: no.lines) ++ closer :: rest.lines) := by simp
  obtain ⟨hpartner, helse⟩ := (hlines ▸ h).map opens closes hinner
  obtain ⟨hheader, h⟩ := h.cons
  obtain ⟨hyes, h⟩ := h.append
  obtain ⟨hturn, h⟩ := h.cons
  obtain ⟨hno, h⟩ := h.append
  obtain ⟨hcloser, hrest⟩ := h.cons
  rw [Program.length_lines] at hturn hno hcloser hrest
  rw [Program.length_lines] at hcloser hrest
  have hlength : index + 1 + (yes.lines ++ otherwise :: no.lines).length =
      index + 1 + yes.size + 1 + no.size := by
    simp
    omega
  rw [hlength] at hpartner
  rw [List.length_map, Program.length_lines] at helse
  exact ⟨hheader, hyes, hturn, hno, hcloser, hrest, hpartner, helse⟩

end Block

end PenScript
