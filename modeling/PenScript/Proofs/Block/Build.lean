import PenScript.Proofs.Block.Matching

/-!
# The map of a program

The pass over the lines keeps two things: the blocks that are open, and a map that holds the pairs
of the lines so far and no others (`BlockMap.Tracks`). `BlockMap.build_describes_or_locates` says
what the pass ends with: the map of a program that nests, or the line at which the nesting fails.
-/

namespace PenScript

/-- The line at the index is the first one up to which no further lines make a program that nests.
-/
def FirstMisfit (lines : List Text) (index : Nat) : Prop :=
  index < lines.length ∧ ¬ Completable (lines.take (index + 1)) ∧
    ∀ count, count ≤ index → Completable (lines.take count)

/-- The block that opens at the index is open at the end of the lines, and every block in it is
closed. -/
def InnermostOpen (kinds : List LineKind) (opener : Nat) : Prop :=
  ∃ before kind offset inner, kinds = before ++ .opener kind :: inner ∧
    Interior kind offset inner ∧ opener = before.length

/-- Where lines fail to nest: at the first line that fits no program, or else at the opener of the
innermost block that is open at their end. -/
def NestingFault (lines : List Text) (index : Nat) : Prop :=
  FirstMisfit lines index ∨
    (∀ count, Completable (lines.take count)) ∧ InnermostOpen (lines.map Line.kind) index

namespace BlockMap

/-- The map has room for lines of this number. -/
structure Sized (map : BlockMap) (size : Nat) : Prop where
  partners : map.partners.size = size
  alternatives : map.alternatives.size = size

/-- The partners in a map with one more block: its three lines have new ones. -/
theorem partner_close {map : BlockMap} {size : Nat} (hsize : map.Sized size) {opened : OpenBlock}
    {index : Nat} (hopener : opened.index < size) (hindex : index < size)
    (halternative : ∀ alternative, opened.alternative = some alternative → alternative < size)
    (line : Nat) :
    (map.close opened index).partner? line =
      if opened.alternative = some line then some index
      else if index = line then some opened.index
      else if opened.index = line then some index
      else map.partner? line := by
  have hpartners := hsize.partners
  cases hcase : opened.alternative with
  | none =>
      simp only [partner?, close, hcase, Array.getElem?_setIfInBounds, Array.size_setIfInBounds]
      grind
  | some alternative =>
      have := halternative alternative hcase
      simp only [partner?, close, hcase, Array.getElem?_setIfInBounds, Array.size_setIfInBounds]
      grind

/-- The alternatives in a map with one more block: its opener has the `else` of the block. -/
theorem else_close {map : BlockMap} {size : Nat} (hsize : map.Sized size) {opened : OpenBlock}
    (hopener : opened.index < size) (index line : Nat) :
    (map.close opened index).else? line =
      if opened.index = line then opened.alternative.or (map.else? line)
      else map.else? line := by
  have halternatives := hsize.alternatives
  cases hcase : opened.alternative with
  | none => simp [else?, close, hcase]
  | some alternative =>
      simp only [else?, close, hcase, Array.getElem?_setIfInBounds]
      grind

/-- A map keeps its size. -/
theorem Sized.close {map : BlockMap} {size : Nat} (hsize : map.Sized size) (opened : OpenBlock)
    (index : Nat) : (map.close opened index).Sized size := by
  unfold BlockMap.close
  split
  · exact ⟨by simp [hsize.partners], hsize.alternatives⟩
  · exact ⟨by simp [hsize.partners], by simp [hsize.alternatives]⟩

/-- The map after one more line, before which the blocks on the stack are open. -/
def next (map : BlockMap) (index : Nat) : List OpenBlock → LineKind → BlockMap
  | opened :: _, .closer _ => map.close opened index
  | _, _ => map

/-- A map keeps its size over a line. -/
theorem Sized.next {map : BlockMap} {size : Nat} (hsize : map.Sized size) (index : Nat)
    (stack : List OpenBlock) (kind : LineKind) : (map.next index stack kind).Sized size := by
  unfold BlockMap.next
  split
  · exact hsize.close _ _
  · exact hsize

/-- One line of the pass, when the line fits. -/
theorem build_from_next {firstLine index : Nat} {stack following : List OpenBlock}
    {kind : LineKind} (hnext : OpenBlock.next? index stack kind = some following)
    (rest : List LineKind) (map : BlockMap) :
    buildFrom firstLine index (kind :: rest) stack map =
      buildFrom firstLine (index + 1) rest following (map.next index stack kind) := by
  cases kind with
  | skipped | statement | opener =>
      obtain rfl := Option.some.inj hnext
      cases stack <;> rfl
  | otherwise =>
      obtain ⟨opener, outer, rfl, rfl⟩ := OpenBlock.next_otherwise hnext
      rfl
  | closer kind =>
      obtain ⟨opened, rfl, hkind⟩ := OpenBlock.next_closer hnext
      rw [buildFrom, if_pos hkind]
      rfl

/-- One line of the pass, when the line does not fit. -/
theorem build_from_refused {firstLine index : Nat} {stack : List OpenBlock} {kind : LineKind}
    (hnext : OpenBlock.next? index stack kind = none) (rest : List LineKind) (map : BlockMap) :
    ∃ problem, buildFrom firstLine index (kind :: rest) stack map =
      .error ⟨firstLine + index, problem⟩ := by
  cases kind with
  | skipped | statement | opener => cases hnext
  | otherwise =>
      cases stack with
      | nil => exact ⟨_, rfl⟩
      | cons opened outer =>
          obtain ⟨kind, opener, alternative⟩ := opened
          cases kind with
          | conditional =>
              cases alternative with
              | none => cases hnext
              | some alternative => exact ⟨_, rfl⟩
          | whileLoop | forLoop | method => exact ⟨_, rfl⟩
  | closer kind =>
      cases stack with
      | nil => exact ⟨_, rfl⟩
      | cons opened outer =>
          have hkind : opened.kind ≠ kind := by
            intro hkind
            simp [OpenBlock.next?, hkind] at hnext
          exact ⟨_, if_neg hkind⟩

/-- The map holds pairs of the lines only, and those of every block that is closed. -/
structure Tracks (map : BlockMap) (kinds : List LineKind) : Prop where
  partner : ∀ index other, map.partner? index = some other → Partner kinds index other
  alternative : ∀ index other, map.else? index = some other → ElseOf kinds index other
  closed : ∀ opener alternative closer, Encloses kinds opener alternative closer →
    (map.partner? opener).isSome ∧ (map.partner? closer).isSome
  closed_else : ∀ opener alternative closer, Encloses kinds opener (some alternative) closer →
    (map.partner? alternative).isSome ∧ (map.else? opener).isSome

namespace Tracks

/-- A line that closes no block adds no pair. -/
theorem concat {map : BlockMap} {done : List LineKind} (h : map.Tracks done) {kind : LineKind}
    (hkind : ∀ block, kind ≠ .closer block) : map.Tracks (done ++ [kind]) := by
  have hold : ∀ {opener alternative closer}, Encloses (done ++ [kind]) opener alternative closer →
      Encloses done opener alternative closer := by
    intro opener alternative closer henclosed
    rcases henclosed.of_concat with rfl | hdone
    · obtain ⟨block, -, hcloser, -⟩ := henclosed.kind_at
      rw [List.getElem?_concat_length] at hcloser
      exact absurd (Option.some.inj hcloser) (hkind block)
    · exact hdone
  refine ⟨fun index other hother ↦ (h.partner index other hother).append _, ?_, ?_, ?_⟩
  · intro index other hother
    obtain ⟨closer, henclosed⟩ := h.alternative index other hother
    exact ⟨closer, henclosed.append _⟩
  · intro opener alternative closer henclosed
    exact h.closed _ _ _ (hold henclosed)
  · intro opener alternative closer henclosed
    exact h.closed_else _ _ _ (hold henclosed)

/-- A closer that fits adds the pairs of the block that it closes. -/
theorem close {map : BlockMap} {done : List LineKind} {opened : OpenBlock}
    {outer : List OpenBlock} {size : Nat} (h : map.Tracks done)
    (hpending : Pending done (opened :: outer)) (hsize : map.Sized size)
    (hdone : done.length < size) :
    (map.close opened done.length).Tracks (done ++ [.closer opened.kind]) := by
  have hnew := hpending.encloses
  have hopener : opened.index < done.length := hnew.lt
  have halternative : ∀ alternative, opened.alternative = some alternative →
      alternative < size := by
    intro alternative hcase
    rw [hcase] at hnew
    have := hnew.alternative_between
    omega
  have hpartner := partner_close hsize (by omega : opened.index < size) hdone halternative
  have helse := else_close hsize (by omega : opened.index < size) done.length
  -- The only block that the new line closes is the innermost open one.
  have hsplit : ∀ {opener alternative closer},
      Encloses (done ++ [.closer opened.kind]) opener alternative closer →
      (opener = opened.index ∧ alternative = opened.alternative ∧ closer = done.length) ∨
        Encloses done opener alternative closer := by
    intro opener alternative closer henclosed
    rcases henclosed.of_concat with rfl | hold
    · have hscan : OpenBlock.after? 0 [] (done ++ [.closer opened.kind]) = some outer := by
        rw [OpenBlock.after_concat, hpending.after, Nat.zero_add]
        exact if_pos rfl
      obtain ⟨hsame, hother⟩ := henclosed.unique_of_closer hnew hscan
      exact .inl ⟨hsame, hother, rfl⟩
    · exact .inr hold
  refine ⟨?_, ?_, ?_, ?_⟩
  · intro index other hother
    rw [hpartner] at hother
    split at hother
    · rename_i hcase
      obtain rfl := Option.some.inj hother
      rw [hcase] at hnew
      exact .inr (.inr ⟨_, hnew⟩)
    · split at hother
      · rename_i hcase
        obtain rfl := Option.some.inj hother
        subst hcase
        exact .inr (.inl ⟨_, hnew⟩)
      · split at hother
        · rename_i hcase
          obtain rfl := Option.some.inj hother
          subst hcase
          exact .inl ⟨_, hnew⟩
        · exact (h.partner index other hother).append _
  · intro index other hother
    rw [helse] at hother
    split at hother
    · rename_i hcase
      subst hcase
      cases hblock : opened.alternative with
      | none =>
          rw [hblock, Option.none_or] at hother
          obtain ⟨closer, henclosed⟩ := h.alternative _ _ hother
          exact ⟨closer, henclosed.append _⟩
      | some alternative =>
          rw [hblock] at hother hnew
          obtain rfl := Option.some.inj hother
          exact ⟨_, hnew⟩
    · obtain ⟨closer, henclosed⟩ := h.alternative _ _ hother
      exact ⟨closer, henclosed.append _⟩
  · intro opener alternative closer henclosed
    rw [hpartner, hpartner]
    rcases hsplit henclosed with ⟨rfl, rfl, rfl⟩ | hold
    · grind
    · have := h.closed _ _ _ hold
      grind
  · intro opener alternative closer henclosed
    rw [hpartner, helse]
    rcases hsplit henclosed with ⟨rfl, hcase, rfl⟩ | hold
    · rw [← hcase]
      simp
    · have := h.closed_else _ _ _ hold
      cases opened.alternative <;> grind

/-- The map after a line that fits holds the pairs of the lines up to it. -/
theorem next {map : BlockMap} {done : List LineKind} {stack following : List OpenBlock}
    {kind : LineKind} {size : Nat} (h : map.Tracks done) (hpending : Pending done stack)
    (hsize : map.Sized size) (hdone : done.length < size)
    (hnext : OpenBlock.next? done.length stack kind = some following) :
    (map.next done.length stack kind).Tracks (done ++ [kind]) := by
  cases kind with
  | skipped | statement | opener | otherwise =>
      have hmap : ∀ {kind : LineKind}, (∀ block, kind ≠ .closer block) →
          map.next done.length stack kind = map := by
        intro kind hkind
        unfold BlockMap.next
        split
        · exact absurd rfl (hkind _)
        · rfl
      rw [hmap (by simp)]
      exact h.concat (by simp)
  | closer kind =>
      obtain ⟨opened, rfl, rfl⟩ := OpenBlock.next_closer hnext
      exact h.close hpending hsize hdone

/-- The empty map holds the pairs of no lines. -/
theorem empty (size : Nat) : (BlockMap.empty size).Tracks [] := by
  have hpartner : ∀ index, (BlockMap.empty size).partner? index = none := by
    intro index
    simp only [partner?, BlockMap.empty, Array.getElem?_replicate]
    split <;> rfl
  have helse : ∀ index, (BlockMap.empty size).else? index = none := by
    intro index
    simp only [else?, BlockMap.empty, Array.getElem?_replicate]
    split <;> rfl
  have hnone : ∀ {opener alternative closer}, ¬ Encloses [] opener alternative closer := by
    intro opener alternative closer h
    obtain ⟨_, hkind, -, -⟩ := h.kind_at
    cases hkind
  refine ⟨?_, ?_, fun _ _ _ h ↦ (hnone h).elim, fun _ _ _ h ↦ (hnone h).elim⟩
  · intro index other hother
    cases (hpartner index).symm.trans hother
  · intro index other hother
    cases (helse index).symm.trans hother

end Tracks

/-- The pass over lines that fit goes on with the blocks that the scan finds open, and with a map of
the lines up to there. -/
theorem build_from_after (firstLine : Nat) {size : Nat} {done lines : List LineKind}
    {stack following : List OpenBlock} {map : BlockMap}
    (hscan : OpenBlock.after? done.length stack lines = some following)
    (hpending : Pending done stack) (hmap : map.Tracks done) (hsize : map.Sized size)
    (hroom : done.length + lines.length ≤ size) :
    ∃ final : BlockMap, final.Tracks (done ++ lines) ∧ ∀ rest,
      buildFrom firstLine done.length (lines ++ rest) stack map =
        buildFrom firstLine (done.length + lines.length) rest following final := by
  induction lines generalizing done stack map with
  | nil =>
      obtain rfl : stack = following := Option.some.inj hscan
      exact ⟨map, by simpa using hmap, fun rest ↦ rfl⟩
  | cons kind lines ih =>
      rw [List.length_cons] at hroom
      rw [OpenBlock.after?] at hscan
      obtain ⟨middle, hnext, hrest⟩ := Option.bind_eq_some_iff.mp hscan
      have hlength : (done ++ [kind]).length = done.length + 1 := by simp
      rw [← hlength] at hrest
      obtain ⟨final, hfinal, hbuild⟩ := ih hrest (hpending.next hnext)
        (hmap.next hpending hsize (by omega) hnext) (hsize.next _ _ _) (by omega)
      refine ⟨final, by simpa using hfinal, fun rest ↦ ?_⟩
      rw [List.cons_append, build_from_next hnext, ← hlength, hbuild, hlength, List.length_cons,
        Nat.add_right_comm, Nat.add_assoc]

/-- The pass over all lines, when the first of them fit. -/
theorem build_after (firstLine : Nat) {lines : List Text} {first rest : List LineKind}
    {stack : List OpenBlock} (hlines : lines.map Line.kind = first ++ rest)
    (hscan : OpenBlock.after? 0 [] first = some stack) :
    ∃ map : BlockMap, map.Tracks first ∧
      build lines firstLine = buildFrom firstLine first.length rest stack map := by
  have hlength : lines.length = first.length + rest.length := by
    rw [← List.length_map Line.kind, hlines, List.length_append]
  have hsize : (BlockMap.empty lines.length).Sized lines.length :=
    ⟨by simp [BlockMap.empty], by simp [BlockMap.empty]⟩
  have hpending : Pending [] [] := .closed .empty
  have hscan : OpenBlock.after? ([] : List LineKind).length [] first = some stack := hscan
  obtain ⟨map, hmap, hbuild⟩ := build_from_after firstLine hscan hpending (.empty _) hsize
    (by rw [List.length_nil]; omega)
  refine ⟨map, hmap, ?_⟩
  rw [build, hlines]
  simpa using hbuild rest

/-- Lines that nest have a map of them. -/
theorem build_of_well_nested {lines : List Text} (h : WellNested (lines.map Line.kind))
    (firstLine : Nat) :
    ∃ map, build lines firstLine = .ok map ∧ map.Tracks (lines.map Line.kind) := by
  obtain ⟨map, hmap, hbuild⟩ := build_after firstLine (List.append_nil _).symm
    (well_nested_iff_after.mp h)
  exact ⟨map, hbuild, hmap⟩

/-- Lines with an open block at their end are refused at the innermost one. -/
theorem build_of_open {lines : List Text} {opened : OpenBlock} {outer : List OpenBlock}
    (h : OpenBlock.after? 0 [] (lines.map Line.kind) = some (opened :: outer)) (firstLine : Nat) :
    ∃ problem, build lines firstLine = .error ⟨firstLine + opened.index, problem⟩ := by
  obtain ⟨map, -, hbuild⟩ := build_after firstLine (List.append_nil _).symm h
  exact ⟨_, hbuild⟩

/-- Lines with one that does not fit are refused at the first such line. -/
theorem build_of_misfit {lines : List Text} {before rest : List LineKind} {kind : LineKind}
    {stack : List OpenBlock} (hlines : lines.map Line.kind = before ++ kind :: rest)
    (hscan : OpenBlock.after? 0 [] before = some stack)
    (hnext : OpenBlock.next? before.length stack kind = none) (firstLine : Nat) :
    ∃ problem, build lines firstLine = .error ⟨firstLine + before.length, problem⟩ := by
  obtain ⟨map, -, hbuild⟩ := build_after firstLine hlines hscan
  rw [hbuild]
  exact build_from_refused hnext rest map

/-- The lines nest exactly when they have a map. -/
theorem build_ok_iff {lines : List Text} {firstLine : Nat} :
    (∃ map, build lines firstLine = .ok map) ↔ WellNested (lines.map Line.kind) := by
  constructor
  · rintro ⟨map, hmap⟩
    cases hscan : OpenBlock.after? 0 [] (lines.map Line.kind) with
    | none =>
        obtain ⟨before, kind, rest, stack, hlines, hbefore, hnext⟩ :=
          OpenBlock.first_misfit hscan
        rw [Nat.zero_add] at hnext
        obtain ⟨_, hbuild⟩ := build_of_misfit hlines hbefore hnext firstLine
        cases hmap.symm.trans hbuild
    | some stack =>
        cases stack with
        | nil => exact well_nested_iff_after.mpr hscan
        | cons opened outer =>
            obtain ⟨_, hbuild⟩ := build_of_open hscan firstLine
            cases hmap.symm.trans hbuild
  · intro h
    obtain ⟨map, hmap, -⟩ := build_of_well_nested h firstLine
    exact ⟨map, hmap⟩

/-- The map holds exactly the pairs of the lines, and has an entry for every opener, closer and
`else`. -/
structure Describes (map : BlockMap) (kinds : List LineKind) : Prop where
  partner_iff : ∀ index other, map.partner? index = some other ↔ Partner kinds index other
  else_iff : ∀ opener alternative, map.else? opener = some alternative ↔
    ElseOf kinds opener alternative
  partner_isSome : ∀ index, (map.partner? index).isSome ↔
    ∃ kind, kinds[index]? = some kind ∧ kind.isMark

/-- A map that tracks lines that nest describes them. -/
theorem Tracks.describes {map : BlockMap} {kinds : List LineKind} (h : map.Tracks kinds)
    (hkinds : WellNested kinds) : map.Describes kinds := by
  have hscan := well_nested_iff_after.mp hkinds
  have hpartner : ∀ index other, map.partner? index = some other ↔ Partner kinds index other := by
    intro index other
    refine ⟨h.partner index other, fun hother ↦ ?_⟩
    have hentry : (map.partner? index).isSome := by
      rcases hother with ⟨_, hblock⟩ | ⟨_, hblock⟩ | ⟨_, hblock⟩
      · exact (h.closed _ _ _ hblock).1
      · exact (h.closed _ _ _ hblock).2
      · exact (h.closed_else _ _ _ hblock).1
    obtain ⟨found, hfound⟩ := Option.isSome_iff_exists.mp hentry
    rw [hfound, (h.partner index found hfound).unique hother hscan]
  refine ⟨hpartner, ?_, ?_⟩
  · intro opener alternative
    refine ⟨h.alternative opener alternative, fun helse ↦ ?_⟩
    obtain ⟨_, hblock⟩ := helse
    obtain ⟨found, hfound⟩ := Option.isSome_iff_exists.mp (h.closed_else _ _ _ hblock).2
    rw [hfound, (h.alternative opener found hfound).unique ⟨_, hblock⟩ hscan]
  · intro index
    constructor
    · intro hentry
      obtain ⟨other, hother⟩ := Option.isSome_iff_exists.mp hentry
      exact (h.partner index other hother).is_mark
    · rintro ⟨kind, hkind, hmark⟩
      obtain ⟨other, hother⟩ := hkinds.partner index kind hkind hmark
      rw [(hpartner index other).mpr hother]
      rfl

/-- The map of lines describes them. -/
theorem build_describes {lines : List Text} {firstLine : Nat} {map : BlockMap}
    (h : build lines firstLine = .ok map) : map.Describes (lines.map Line.kind) := by
  have hnested := build_ok_iff.mp ⟨map, h⟩
  obtain ⟨found, hfound, htracks⟩ := build_of_well_nested hnested firstLine
  obtain rfl : map = found := Except.ok.inj (h.symm.trans hfound)
  exact htracks.describes hnested

/-- Lines with one that does not fit have their fault there. -/
theorem nesting_fault_of_misfit {lines : List Text} {before rest : List LineKind} {kind : LineKind}
    {stack : List OpenBlock} (hlines : lines.map Line.kind = before ++ kind :: rest)
    (hscan : OpenBlock.after? 0 [] before = some stack)
    (hnext : OpenBlock.next? before.length stack kind = none) :
    FirstMisfit lines before.length := by
  have htake : ∀ count, (lines.take count).map Line.kind =
      (before ++ kind :: rest).take count := by
    intro count
    rw [List.map_take, hlines]
  refine ⟨?_, ?_, ?_⟩
  · have := congrArg List.length hlines
    simp only [List.length_map, List.length_append, List.length_cons] at this
    omega
  · have hmisfit : (before ++ kind :: rest).take (before.length + 1) = before ++ [kind] := by
      rw [List.take_length_add_append]
      rfl
    rw [completable_iff_after, htake, hmisfit, OpenBlock.after_concat, hscan, Option.bind_some,
      Nat.zero_add, hnext]
    exact Bool.false_ne_true
  · intro count hcount
    obtain ⟨found, hfound⟩ := OpenBlock.after_take hscan count
    rw [completable_iff_after, htake, List.take_append_of_le_length hcount, hfound]
    rfl

/-- A refusal names a line at which the nesting fails. -/
theorem build_error {lines : List Text} {firstLine : Nat} {cause : BlockError}
    (h : build lines firstLine = .error cause) :
    ∃ index, cause.line = firstLine + index ∧ NestingFault lines index := by
  cases hscan : OpenBlock.after? 0 [] (lines.map Line.kind) with
  | none =>
      obtain ⟨before, kind, rest, stack, hlines, hbefore, hnext⟩ := OpenBlock.first_misfit hscan
      rw [Nat.zero_add] at hnext
      obtain ⟨problem, hbuild⟩ := build_of_misfit hlines hbefore hnext firstLine
      obtain rfl := Except.error.inj (h.symm.trans hbuild)
      exact ⟨_, rfl, .inl (nesting_fault_of_misfit hlines hbefore hnext)⟩
  | some stack =>
      cases stack with
      | nil =>
          obtain ⟨map, hmap, -⟩ :=
            build_of_well_nested (well_nested_iff_after.mpr hscan) firstLine
          cases h.symm.trans hmap
      | cons opened outer =>
          obtain ⟨problem, hbuild⟩ := build_of_open hscan firstLine
          obtain rfl := Except.error.inj (h.symm.trans hbuild)
          obtain ⟨before, inner, offset, hlines, -, hinner, hindex, -⟩ :=
            (Pending.of_after hscan).innermost
          refine ⟨_, rfl, .inr ⟨?_, before, _, offset, inner, hlines, hinner, hindex⟩⟩
          intro count
          obtain ⟨found, hfound⟩ := OpenBlock.after_take hscan count
          rw [completable_iff_after, List.map_take, hfound]
          rfl

/-- Lines have at most one fault. -/
theorem nesting_fault_unique {lines : List Text} {index other : Nat}
    (h : NestingFault lines index) (hother : NestingFault lines other) : index = other := by
  rcases h with ⟨-, hbad, hgood⟩ | ⟨hall, hopen⟩
  · rcases hother with ⟨-, hotherBad, hotherGood⟩ | ⟨hall, -⟩
    · rcases Nat.lt_trichotomy index other with hlt | heq | hgt
      · exact absurd (hotherGood _ hlt) hbad
      · exact heq
      · exact absurd (hgood _ hgt) hotherBad
    · exact absurd (hall _) hbad
  · rcases hother with ⟨-, hbad, -⟩ | ⟨-, hotherOpen⟩
    · exact absurd (hall _) hbad
    · have hscan := completable_iff_after.mp (hall lines.length)
      rw [List.take_length] at hscan
      obtain ⟨found, hfound⟩ := Option.isSome_iff_exists.mp hscan
      -- The scan has the opener of the innermost open block on top.
      have htop : ∀ {opener}, InnermostOpen (lines.map Line.kind) opener →
          found.head?.map (·.index) = some opener := by
        rintro opener ⟨before, kind, offset, inner, hlines, hinner, rfl⟩
        rw [hlines] at hfound
        obtain ⟨outer, houter⟩ := OpenBlock.after_take hfound before.length
        rw [List.take_left' rfl] at houter
        rw [OpenBlock.after_opened houter hinner] at hfound
        obtain rfl := Option.some.inj hfound
        rfl
      exact Option.some.inj ((htop hopen).symm.trans (htop hotherOpen))

/-- The pass over lines ends with a map exactly when the lines nest. The map then holds the pairs of
the lines and nothing else. Otherwise the error names the one place where the nesting fails. -/
theorem build_describes_or_locates (lines : List Text) (firstLine : Nat) :
    match build lines firstLine with
    | .ok map => WellNested (lines.map Line.kind) ∧ map.Describes (lines.map Line.kind)
    | .error cause => ¬ WellNested (lines.map Line.kind) ∧
        ∃ index, cause.line = firstLine + index ∧ NestingFault lines index ∧
          ∀ other, NestingFault lines other → other = index := by
  cases hbuild : build lines firstLine with
  | ok map => exact ⟨build_ok_iff.mp ⟨map, hbuild⟩, build_describes hbuild⟩
  | error cause =>
      refine ⟨fun hnested ↦ ?_, ?_⟩
      · obtain ⟨map, hmap⟩ := build_ok_iff.mpr hnested
        cases hbuild.symm.trans hmap
      · obtain ⟨index, hline, hfault⟩ := build_error hbuild
        exact ⟨index, hline, hfault, fun other hother ↦ nesting_fault_unique hother hfault⟩

end BlockMap

namespace Block

variable {lines : Array Text} {firstLine : Nat}

/-- Lines that have a map are a block. -/
theorem of_lines_ok {map : BlockMap} (h : BlockMap.build lines.toList firstLine = .ok map) :
    ∃ block, ofLines lines firstLine = .ok block ∧ block.lines = lines ∧
      block.firstLine = firstLine := by
  unfold ofLines
  split
  next => exact ⟨_, rfl, rfl, rfl⟩
  next hcause => cases h.symm.trans hcause

/-- The lines of a block and the number of the first of them. -/
theorem lines_of_ok {block : Block} (h : ofLines lines firstLine = .ok block) :
    block.lines = lines ∧ block.firstLine = firstLine := by
  unfold ofLines at h
  split at h
  next =>
    obtain rfl := Except.ok.inj h
    exact ⟨rfl, rfl⟩
  next => cases h

/-- Lines that do not nest are no block. -/
theorem of_lines_error {cause : BlockError}
    (h : BlockMap.build lines.toList firstLine = .error cause) :
    ofLines lines firstLine = .error cause := by
  unfold ofLines
  split
  next hmap => cases h.symm.trans hmap
  next hcause => exact congrArg Except.error (Except.error.inj (hcause.symm.trans h))

/-- The kinds of the lines of a block. -/
def kinds (block : Block) : List LineKind :=
  block.lines.toList.map Line.kind

/-- There is one kind for each line. -/
theorem length_kinds (block : Block) : block.kinds.length = block.lines.size := by
  rw [kinds, List.length_map, Array.length_toList]

/-- The kind of a line. -/
theorem kind_at {block : Block} {index : Nat} {line : Text}
    (h : block.lines[index]? = some line) : block.kinds[index]? = some (Line.kind line) := by
  rw [kinds, List.getElem?_map, Array.getElem?_toList, h]
  rfl

/-- The lines of a block nest. -/
theorem well_nested (block : Block) : WellNested (block.lines.toList.map Line.kind) :=
  BlockMap.build_ok_iff.mp ⟨block.map, block.nested⟩

end Block

end PenScript
