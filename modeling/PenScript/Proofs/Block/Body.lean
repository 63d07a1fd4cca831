import PenScript.Proofs.Block.Build
import PenScript.Proofs.Block.Open

/-!
# Blocks inside a block

The body of a method is a block of its own, whose map is built from its lines alone. Since the lines
nest, this is the part of the outer map that belongs to them: no pair of the outer map leads out of
them, and each pair inside is found again, counted from the first of the lines
(`BlockMap.Describes.part`). `Block.Body.map_eq` says so of the maps as a whole.
-/

namespace PenScript

namespace BlockMap

/-- The part of a map for the lines from the first index up to the last, counted from the first. -/
def restrict (map : BlockMap) (first last : Nat) : BlockMap where
  partners := (map.partners.extract first last).map fun entry ↦ entry.map (· - first)
  alternatives := (map.alternatives.extract first last).map fun entry ↦ entry.map (· - first)

variable {whole part map : BlockMap} {size : Nat}

/-- The pass over the lines keeps the size of the map. -/
theorem Sized.build_from {firstLine index : Nat} {lines : List LineKind} {stack : List OpenBlock}
    {final : BlockMap} (hsize : map.Sized size)
    (h : buildFrom firstLine index lines stack map = .ok final) : final.Sized size := by
  induction lines generalizing index stack map with
  | nil =>
      cases stack with
      | nil =>
          obtain rfl := Except.ok.inj h
          exact hsize
      | cons opened outer => cases h
  | cons kind rest ih =>
      cases hnext : OpenBlock.next? index stack kind with
      | none =>
          obtain ⟨problem, hrefused⟩ := @build_from_refused firstLine _ _ _ hnext rest map
          cases hrefused.symm.trans h
      | some following =>
          rw [build_from_next hnext] at h
          exact ih (hsize.next index stack kind) h

/-- The map of lines has an entry for each of them. -/
theorem build_sized {lines : List Text} {firstLine : Nat}
    (h : build lines firstLine = .ok map) : map.Sized lines.length :=
  .build_from ⟨by simp [BlockMap.empty], by simp [BlockMap.empty]⟩ h

/-- Maps of one size that say the same of every line are the same. -/
theorem Sized.ext {other : BlockMap} (hsize : map.Sized size) (hother : other.Sized size)
    (hpartner : ∀ index, index < size → map.partner? index = other.partner? index)
    (helse : ∀ index, index < size → map.else? index = other.else? index) : map = other := by
  have hentry {entries : Array (Option Nat)} {index : Nat} (hindex : index < entries.size) :
      entries[index] = entries[index]?.join := by
    rw [Array.getElem?_eq_getElem hindex]
    rfl
  have hpartners : map.partners = other.partners := by
    refine Array.ext (hsize.partners.trans hother.partners.symm) fun index hfirst hsecond ↦ ?_
    rw [hentry hfirst, hentry hsecond]
    exact hpartner index (hsize.partners ▸ hfirst)
  have halternatives : map.alternatives = other.alternatives := by
    refine Array.ext (hsize.alternatives.trans hother.alternatives.symm)
      fun index hfirst hsecond ↦ ?_
    rw [hentry hfirst, hentry hsecond]
    exact helse index (hsize.alternatives ▸ hfirst)
  obtain ⟨_, _⟩ := map
  obtain ⟨_, _⟩ := other
  exact (mk.injEq ..).mpr ⟨hpartners, halternatives⟩

/-- A part of a map has an entry for each of its lines. -/
theorem Sized.restrict {last : Nat} (h : map.Sized size) (hlast : last ≤ size) (first : Nat) :
    (map.restrict first last).Sized (last - first) := by
  constructor
  · rw [BlockMap.restrict, Array.size_map, Array.size_extract, h.partners, Nat.min_eq_left hlast]
  · rw [BlockMap.restrict, Array.size_map, Array.size_extract, h.alternatives,
      Nat.min_eq_left hlast]

private theorem join_extract {entries : Array (Option Nat)} {first last index : Nat}
    (hindex : index < last - first) (f : Nat → Nat) :
    ((entries.extract first last).map (Option.map f))[index]?.join =
      (entries[first + index]?.join).map f := by
  rw [Array.getElem?_map, Array.getElem?_extract]
  split
  · cases entries[first + index]? <;> rfl
  · rw [Array.getElem?_eq_none (by omega)]
    rfl

/-- What a part of a map says of a line. -/
theorem restrict_eq {first last index : Nat} (hindex : index < last - first) :
    (map.restrict first last).partner? index =
        (map.partner? (first + index)).map (· - first) ∧
      (map.restrict first last).else? index = (map.else? (first + index)).map (· - first) :=
  ⟨join_extract hindex _, join_extract hindex _⟩

/-- The map of lines does not depend on the number of the first of them. -/
theorem build_renumber {lines : List Text} {firstLine : Nat} (h : build lines firstLine = .ok map)
    (number : Nat) : build lines number = .ok map := by
  obtain ⟨other, hother⟩ := (@build_ok_iff lines number).mpr (build_ok_iff.mp ⟨map, h⟩)
  have hmap := build_describes h
  have hdescribes := build_describes hother
  have hsame : map = other := by
    refine (build_sized h).ext (build_sized hother) (fun index _ ↦ ?_) (fun index _ ↦ ?_)
    · refine Option.ext fun partner ↦ ?_
      rw [hmap.partner_iff, hdescribes.partner_iff]
    · refine Option.ext fun alternative ↦ ?_
      rw [hmap.else_iff, hdescribes.else_iff]
  rw [hother, hsame]

section Part

variable {before inner after : List LineKind} {index : Nat}

/-- The partner of a line in a part that nests is its partner in the whole. -/
theorem Describes.partner_part (hwhole : whole.Describes (before ++ inner ++ after))
    (hpart : part.Describes inner) (hindex : index < inner.length) :
    whole.partner? (before.length + index) =
      (part.partner? index).map (before.length + ·) := by
  cases hfound : part.partner? index with
  | some partner =>
      have hpair := ((hpart.partner_iff index partner).mp hfound).prepend before
      exact (hwhole.partner_iff _ _).mpr (hpair.append after)
  | none =>
      -- A line without a partner in the part is no mark, so it has none in the whole.
      rw [Option.map_none, ← Option.not_isSome_iff_eq_none, hwhole.partner_isSome]
      rintro ⟨kind, hkind, hmark⟩
      rw [List.append_assoc, List.getElem?_append_right (Nat.le_add_right _ _),
        Nat.add_sub_cancel_left, List.getElem?_append_left hindex] at hkind
      have hsome := (hpart.partner_isSome index).mpr ⟨kind, hkind, hmark⟩
      rw [hfound] at hsome
      cases hsome

/-- The `else` of a conditional in a part that nests is its `else` in the whole. -/
theorem Describes.else_part (hwhole : whole.Describes (before ++ inner ++ after))
    (hpart : part.Describes inner) (hnested : WellNested (before ++ inner ++ after))
    (hinner : WellNested inner) (hindex : index < inner.length) :
    whole.else? (before.length + index) = (part.else? index).map (before.length + ·) := by
  cases hfound : part.else? index with
  | some alternative =>
      obtain ⟨closer, hblock⟩ := (hpart.else_iff index alternative).mp hfound
      exact (hwhole.else_iff _ _).mpr ⟨_, (hblock.prepend before).append after⟩
  | none =>
      rw [Option.map_none, Option.eq_none_iff_forall_not_mem]
      intro alternative halternative
      obtain ⟨closer, hblock⟩ := (hwhole.else_iff _ alternative).mp halternative
      -- The conditional opens in the part, which nests, so its `else` is in the part as well.
      obtain ⟨kind, hkind, -, -⟩ := hblock.kind_at
      rw [List.append_assoc, List.getElem?_append_right (Nat.le_add_right _ _),
        Nat.add_sub_cancel_left, List.getElem?_append_left hindex] at hkind
      obtain ⟨other, last, hinside⟩ := hinner.encloses hkind
      have hsame := (hblock.unique_of_opener ((hinside.prepend before).append after)
        (well_nested_iff_after.mp hnested)).2
      cases other with
      | none => cases hsame
      | some place => cases hfound.symm.trans ((hpart.else_iff index place).mpr ⟨last, hinside⟩)

end Part

end BlockMap

namespace Block

/-- The inner block is the body of the method that the outer one has between two of its lines. -/
structure Body (outer : Block) (opener closer : Nat) (inner : Block) : Prop where
  block_at : BlockAt outer.kinds .method opener none closer
  lines : inner.lines = outer.lines.extract (opener + 1) closer
  first_line : inner.firstLine = outer.lineNumber (opener + 1)

namespace Body

variable {outer inner : Block} {opener closer : Nat}

/-- The lines of a body stand behind the header of the method and in front of its closer. -/
theorem kinds_eq (h : outer.Body opener closer inner) :
    ∃ before after, outer.kinds = before ++ inner.kinds ++ after ∧ before.length = opener + 1 ∧
      closer = opener + 1 + inner.kinds.length := by
  obtain ⟨before, kind, offset, body, after, hkinds, -, rfl, -, rfl⟩ := h.block_at.encloses
  have hsplit : outer.kinds = (before ++ [.opener kind]) ++ body ++ (.closer kind :: after) := by
    rw [hkinds]
    simp
  have hlength : (before ++ [LineKind.opener kind]).length = before.length + 1 := by simp
  have hbody : inner.kinds = body := by
    rw [kinds, h.lines, Array.toList_extract, List.extract_eq_take_drop, List.map_take,
      List.map_drop]
    show (outer.kinds.drop _).take _ = body
    rw [Nat.add_sub_cancel_left, hsplit, List.append_assoc, ← hlength, List.drop_left,
      List.take_left]
  exact ⟨_, _, hbody ▸ hsplit, hlength, by rw [hbody]⟩

/-- The pairs of the outer map between the header of a method and its closer are those of the map of
the body, counted from its first line. None of them leads out of the body. -/
theorem pairs_eq (h : outer.Body opener closer inner) {index : Nat}
    (hindex : index < inner.lines.size) :
    outer.map.partner? (opener + 1 + index) =
        (inner.map.partner? index).map (opener + 1 + ·) ∧
      outer.map.else? (opener + 1 + index) = (inner.map.else? index).map (opener + 1 + ·) := by
  obtain ⟨before, after, hkinds, hbefore, -⟩ := h.kinds_eq
  have hwhole : outer.map.Describes outer.kinds := BlockMap.build_describes outer.nested
  have hpart : inner.map.Describes inner.kinds := BlockMap.build_describes inner.nested
  have hnested : WellNested outer.kinds := outer.well_nested
  have hlength : index < inner.kinds.length := by rwa [length_kinds]
  rw [hkinds] at hwhole hnested
  rw [← hbefore]
  exact ⟨hwhole.partner_part hpart hlength,
    hwhole.else_part hpart hnested inner.well_nested hlength⟩

/-- The map of a body is the part of the outer map between the header and the closer. -/
theorem map_eq (h : outer.Body opener closer inner) :
    inner.map = outer.map.restrict (opener + 1) closer := by
  obtain ⟨before, after, hkinds, hbefore, hcloser⟩ := h.kinds_eq
  have hsize (block : Block) : block.map.Sized block.lines.size := by
    have hsized := BlockMap.build_sized block.nested
    rwa [Array.length_toList] at hsized
  have hlast : closer ≤ outer.lines.size := by
    rw [← length_kinds, hkinds, List.length_append, List.length_append]
    omega
  have hcount : closer - (opener + 1) = inner.lines.size := by
    rw [← length_kinds, hcloser, Nat.add_sub_cancel_left]
  have hrestricted := (hsize outer).restrict hlast (opener + 1)
  rw [hcount] at hrestricted
  have hback (entry : Option Nat) :
      (entry.map (opener + 1 + ·)).map (· - (opener + 1)) = entry := by
    cases entry with
    | none => rfl
    | some place => exact congrArg some (Nat.add_sub_cancel_left ..)
  refine (hsize inner).ext hrestricted (fun index hindex ↦ ?_) (fun index hindex ↦ ?_)
  · rw [(BlockMap.restrict_eq (hcount ▸ hindex)).1, (h.pairs_eq hindex).1, hback]
  · rw [(BlockMap.restrict_eq (hcount ▸ hindex)).2, (h.pairs_eq hindex).2, hback]

end Body
end Block

end PenScript
