import PenScript.Proofs.Block.WellNested

/-!
# Blocks in a program

`Encloses` says which opener, `else` and closer belong together, in terms of the grammar alone: the
lines between them nest. In lines that the scan gets through each of the three determines the
others, and in lines that nest every opener, closer and `else` belongs to a block.
-/

namespace PenScript

/-- The lines hold a block with its opener and its closer at these indices. Its `else`, if there is
one, is at the index in the middle. -/
def Encloses (kinds : List LineKind) (opener : Nat) (alternative : Option Nat) (closer : Nat) :
    Prop :=
  ∃ before kind offset inner after,
    kinds = before ++ .opener kind :: (inner ++ .closer kind :: after) ∧
      Interior kind offset inner ∧ opener = before.length ∧
      alternative = offset.map (opener + 1 + ·) ∧ closer = opener + 1 + inner.length

/-- The line at the second index is the closer of the block that the line at the first index opens
or has as its `else`, or the opener of the block that it closes. -/
def Partner (kinds : List LineKind) (index partner : Nat) : Prop :=
  (∃ alternative, Encloses kinds index alternative partner) ∨
    (∃ alternative, Encloses kinds partner alternative index) ∨
    ∃ opener, Encloses kinds opener (some index) partner

/-- The conditional that opens at the first index has its `else` at the second one. -/
def ElseOf (kinds : List LineKind) (opener alternative : Nat) : Prop :=
  ∃ closer, Encloses kinds opener (some alternative) closer

/-- The line opens or closes a block or is an `else`. -/
def LineKind.isMark : LineKind → Bool
  | .opener _ | .closer _ | .otherwise => true
  | .skipped | .statement => false

namespace OpenBlock

/-- A block that is open after a line was open before it or is opened by it. -/
theorem index_of_next {index : Nat} {stack following : List OpenBlock} {kind : LineKind}
    (h : next? index stack kind = some following) {opened : OpenBlock}
    (hopened : opened ∈ following) :
    opened.index = index ∨ ∃ earlier ∈ stack, earlier.index = opened.index := by
  cases kind with
  | skipped | statement =>
      obtain rfl : stack = following := Option.some.inj h
      exact .inr ⟨opened, hopened, rfl⟩
  | opener kind =>
      obtain rfl := Option.some.inj h
      rcases List.mem_cons.mp hopened with rfl | hmem
      · exact .inl rfl
      · exact .inr ⟨opened, hmem, rfl⟩
  | otherwise =>
      obtain ⟨opener, outer, rfl, rfl⟩ := next_otherwise h
      rcases List.mem_cons.mp hopened with rfl | hmem
      · exact .inr ⟨_, List.mem_cons_self, rfl⟩
      · exact .inr ⟨opened, List.mem_cons_of_mem _ hmem, rfl⟩
  | closer kind =>
      obtain ⟨top, rfl, -⟩ := next_closer h
      exact .inr ⟨opened, List.mem_cons_of_mem _ hopened, rfl⟩

/-- A block that is open after more lines was open before them or is opened by one of them. -/
theorem index_of_after {index : Nat} {stack following : List OpenBlock} {lines : List LineKind}
    (h : after? index stack lines = some following) {opened : OpenBlock}
    (hopened : opened ∈ following) :
    (index ≤ opened.index ∧ opened.index < index + lines.length) ∨
      ∃ earlier ∈ stack, earlier.index = opened.index := by
  induction lines generalizing index stack with
  | nil =>
      obtain rfl : stack = following := Option.some.inj h
      exact .inr ⟨opened, hopened, rfl⟩
  | cons kind rest ih =>
      rw [after?] at h
      obtain ⟨middle, hnext, hrest⟩ := Option.bind_eq_some_iff.mp h
      rw [List.length_cons]
      rcases ih hrest with hnew | ⟨earlier, hmem, hindex⟩
      · left
        omega
      · rcases index_of_next hnext hmem with hnew | ⟨first, hfirst, hsame⟩
        · left
          omega
        · exact .inr ⟨first, hfirst, hsame.trans hindex⟩

end OpenBlock

namespace OpenBlock

/-- The scan gets through every start of the lines that it gets through. -/
theorem after_take {kinds : List LineKind} {found : List OpenBlock}
    (hscan : after? 0 [] kinds = some found) (index : Nat) :
    ∃ stack, after? 0 [] (kinds.take index) = some stack := by
  rw [← List.take_append_drop index kinds, after_append, Option.bind_eq_some_iff] at hscan
  obtain ⟨stack, hstack, -⟩ := hscan
  exact ⟨stack, hstack⟩

/-- The blocks that are open before a line are opened before it. -/
theorem index_lt_of_after {kinds : List LineKind} {index : Nat} {stack : List OpenBlock}
    (hscan : after? 0 [] (kinds.take index) = some stack) {opened : OpenBlock}
    (hopened : opened ∈ stack) : opened.index < index := by
  rcases index_of_after hscan hopened with ⟨-, hlt⟩ | ⟨_, hmem, -⟩
  · have := List.length_take_le index kinds
    omega
  · cases hmem

/-- A block that is open at one place of the lines was open at an earlier one or is opened between
the two. -/
theorem index_of_take {kinds : List LineKind} {first last : Nat}
    {stack following : List OpenBlock} (hle : first ≤ last) (hfirst : first ≤ kinds.length)
    (hstack : after? 0 [] (kinds.take first) = some stack)
    (hfollowing : after? 0 [] (kinds.take last) = some following) {opened : OpenBlock}
    (hopened : opened ∈ following) :
    first ≤ opened.index ∨ ∃ earlier ∈ stack, earlier.index = opened.index := by
  have hsplit : kinds.take last = kinds.take first ++ (kinds.take last).drop first := by
    have hboth := List.take_append_drop first (kinds.take last)
    rw [List.take_take, Nat.min_eq_left hle] at hboth
    exact hboth.symm
  rw [hsplit, after_append, hstack, Option.bind_some, List.length_take,
    Nat.min_eq_left hfirst] at hfollowing
  rcases index_of_after hfollowing hopened with ⟨hnew, -⟩ | hold
  · left
    omega
  · exact .inr hold

end OpenBlock

private theorem get_of_length {α : Type} {before after : List α} {item : α} {index : Nat}
    (hindex : index = before.length) : (before ++ item :: after)[index]? = some item := by
  simp [hindex]

namespace Encloses

variable {kinds : List LineKind} {opener closer : Nat} {alternative : Option Nat}

/-- The three lines of a block. -/
theorem kind_at (h : Encloses kinds opener alternative closer) :
    ∃ kind, kinds[opener]? = some (.opener kind) ∧ kinds[closer]? = some (.closer kind) ∧
      ∀ index, alternative = some index → kinds[index]? = some .otherwise := by
  obtain ⟨before, kind, offset, inner, after, rfl, hinner, rfl, rfl, rfl⟩ := h
  refine ⟨kind, by simp, ?_, ?_⟩
  · rw [← List.cons_append, ← List.append_assoc]
    exact get_of_length (by simp; omega)
  · intro index hindex
    cases hinner with
    | body => cases hindex
    | @branches yes no =>
        obtain rfl := Option.some.inj hindex
        rw [List.append_assoc, ← List.cons_append, ← List.append_assoc]
        exact get_of_length (by simp; omega)

/-- An opener comes before its closer. -/
theorem lt (h : Encloses kinds opener alternative closer) : opener < closer := by
  obtain ⟨_, _, _, _, _, -, -, rfl, -, rfl⟩ := h
  omega

/-- An `else` comes between its opener and its closer. -/
theorem alternative_between {index : Nat} (h : Encloses kinds opener (some index) closer) :
    opener < index ∧ index < closer := by
  obtain ⟨_, _, _, _, _, -, hinner, -, halternative, rfl⟩ := h
  cases hinner with
  | body => cases halternative
  | branches =>
      obtain rfl := Option.some.inj halternative
      simp only [List.length_append, List.length_cons]
      omega

/-- Just before its closer a block is the innermost one that is open. After the closer the open
blocks are those that were open before the opener. -/
theorem after_closer {found : List OpenBlock} (h : Encloses kinds opener alternative closer)
    (hscan : OpenBlock.after? 0 [] kinds = some found) :
    ∃ kind outer, OpenBlock.after? 0 [] (kinds.take opener) = some outer ∧
      OpenBlock.after? 0 [] (kinds.take closer) =
        some (⟨kind, opener, alternative⟩ :: outer) ∧
      OpenBlock.after? 0 [] (kinds.take (closer + 1)) = some outer := by
  obtain ⟨outer, houter⟩ := OpenBlock.after_take hscan opener
  obtain ⟨before, kind, offset, inner, after, rfl, hinner, rfl, rfl, rfl⟩ := h
  rw [List.take_left' rfl] at houter
  have hinside : OpenBlock.after? 0 [] (before ++ .opener kind :: inner) =
      some (⟨kind, before.length, offset.map (before.length + 1 + ·)⟩ :: outer) :=
    OpenBlock.after_opened houter hinner
  refine ⟨kind, outer, by rw [List.take_left' rfl, houter], ?_, ?_⟩
  · rw [← List.cons_append, ← List.append_assoc, List.take_left' (by simp; omega)]
    exact hinside
  · have hlast : before ++ .opener kind :: (inner ++ .closer kind :: after) =
        ((before ++ .opener kind :: inner) ++ [.closer kind]) ++ after := by simp
    rw [hlast, List.take_left' (by simp; omega), OpenBlock.after_concat, hinside]
    exact if_pos rfl

/-- Just before its `else` a conditional is the innermost block that is open. -/
theorem after_alternative {index : Nat} {found : List OpenBlock}
    (h : Encloses kinds opener (some index) closer)
    (hscan : OpenBlock.after? 0 [] kinds = some found) :
    ∃ outer, OpenBlock.after? 0 [] (kinds.take index) =
      some (⟨.conditional, opener, none⟩ :: outer) := by
  obtain ⟨outer, houter⟩ := OpenBlock.after_take hscan opener
  obtain ⟨before, kind, offset, inner, after, rfl, hinner, rfl, halternative, rfl⟩ := h
  rw [List.take_left' rfl] at houter
  cases hinner with
  | body => cases halternative
  | @branches yes no hyes hno =>
      obtain rfl := Option.some.inj halternative
      refine ⟨outer, ?_⟩
      have hbody : Interior .conditional none yes := .body hyes
      have hmiddle : before ++ .opener .conditional ::
          ((yes ++ .otherwise :: no) ++ .closer .conditional :: after) =
          (before ++ .opener .conditional :: yes) ++
            (.otherwise :: (no ++ .closer .conditional :: after)) := by simp
      rw [hmiddle, List.take_left' (by simp; omega)]
      exact OpenBlock.after_opened houter hbody

/-- A closer determines its opener and its `else`. -/
theorem unique_of_closer {otherOpener : Nat} {otherAlternative : Option Nat}
    {found : List OpenBlock} (h : Encloses kinds opener alternative closer)
    (hother : Encloses kinds otherOpener otherAlternative closer)
    (hscan : OpenBlock.after? 0 [] kinds = some found) :
    opener = otherOpener ∧ alternative = otherAlternative := by
  obtain ⟨_, _, -, hfirst, -⟩ := h.after_closer hscan
  obtain ⟨_, _, -, hsecond, -⟩ := hother.after_closer hscan
  have := hfirst.symm.trans hsecond
  simp only [Option.some.injEq, List.cons.injEq, OpenBlock.mk.injEq] at this
  exact ⟨this.1.2.1, this.1.2.2⟩

/-- After its closer a block is not open again. -/
theorem ne_of_open {place : Nat} {stack found : List OpenBlock}
    (h : Encloses kinds opener alternative closer)
    (hscan : OpenBlock.after? 0 [] kinds = some found) (hlt : closer < place)
    (hstack : OpenBlock.after? 0 [] (kinds.take place) = some stack) {opened : OpenBlock}
    (hopened : opened ∈ stack) : opened.index ≠ opener := by
  intro hindex
  obtain ⟨_, outer, hopener, -, hclosed⟩ := h.after_closer hscan
  have hsize : closer < kinds.length := by
    obtain ⟨_, -, hkind, -⟩ := h.kind_at
    exact (List.getElem?_eq_some_iff.mp hkind).1
  have hopenerLt := h.lt
  -- The opener is either older than the closed block or comes after its closer.
  rcases OpenBlock.index_of_take hlt hsize hclosed hstack hopened with
    hnew | ⟨earlier, hmem, hsame⟩
  · omega
  · have hold := OpenBlock.index_lt_of_after hopener hmem
    omega

/-- A block that is closed is not open again at a later closer. -/
theorem closer_not_lt {otherCloser : Nat} {otherAlternative : Option Nat}
    {found : List OpenBlock} (h : Encloses kinds opener alternative closer)
    (hother : Encloses kinds opener otherAlternative otherCloser)
    (hscan : OpenBlock.after? 0 [] kinds = some found) : ¬ closer < otherCloser := by
  intro hlt
  obtain ⟨kind, _, -, hopen, -⟩ := hother.after_closer hscan
  exact h.ne_of_open hscan hlt hopen List.mem_cons_self rfl

/-- An opener determines its closer. -/
theorem unique_of_opener {otherCloser : Nat} {otherAlternative : Option Nat}
    {found : List OpenBlock} (h : Encloses kinds opener alternative closer)
    (hother : Encloses kinds opener otherAlternative otherCloser)
    (hscan : OpenBlock.after? 0 [] kinds = some found) :
    closer = otherCloser ∧ alternative = otherAlternative := by
  have hcloser : closer = otherCloser :=
    Nat.le_antisymm (Nat.not_lt.mp (hother.closer_not_lt h hscan))
      (Nat.not_lt.mp (h.closer_not_lt hother hscan))
  subst hcloser
  exact ⟨rfl, (h.unique_of_closer hother hscan).2⟩

/-- An `else` determines its conditional. -/
theorem unique_of_alternative {index otherOpener otherCloser : Nat} {found : List OpenBlock}
    (h : Encloses kinds opener (some index) closer)
    (hother : Encloses kinds otherOpener (some index) otherCloser)
    (hscan : OpenBlock.after? 0 [] kinds = some found) :
    opener = otherOpener ∧ closer = otherCloser := by
  obtain ⟨_, hfirst⟩ := h.after_alternative hscan
  obtain ⟨_, hsecond⟩ := hother.after_alternative hscan
  have := hfirst.symm.trans hsecond
  simp only [Option.some.injEq, List.cons.injEq, OpenBlock.mk.injEq] at this
  obtain rfl := this.1.2.1
  exact ⟨rfl, (h.unique_of_opener hother hscan).1⟩

/-- More lines after a block leave it where it is. -/
theorem append (h : Encloses kinds opener alternative closer) (rest : List LineKind) :
    Encloses (kinds ++ rest) opener alternative closer := by
  obtain ⟨before, kind, offset, inner, after, rfl, hinner, hopener, halternative, hcloser⟩ := h
  exact ⟨before, kind, offset, inner, after ++ rest, by simp, hinner, hopener, halternative,
    hcloser⟩

/-- More lines before a block move it by their number. -/
theorem prepend (h : Encloses kinds opener alternative closer) (first : List LineKind) :
    Encloses (first ++ kinds) (first.length + opener) (alternative.map (first.length + ·))
      (first.length + closer) := by
  obtain ⟨before, kind, offset, inner, after, rfl, hinner, rfl, rfl, rfl⟩ := h
  refine ⟨first ++ before, kind, offset, inner, after, by simp, hinner, by simp, ?_, by omega⟩
  cases offset with
  | none => rfl
  | some offset => exact congrArg some (by simp only; omega)

/-- A block in lines with one more line is closed by that line or lies before it. -/
theorem of_concat {done : List LineKind} {last : LineKind}
    (h : Encloses (done ++ [last]) opener alternative closer) :
    closer = done.length ∨ Encloses done opener alternative closer := by
  obtain ⟨before, kind, offset, inner, after, heq, hinner, hopener, halternative, hcloser⟩ := h
  rcases List.eq_nil_or_concat after with rfl | ⟨start, final, rfl⟩
  · left
    have hlength := congrArg List.length heq
    simp only [List.length_append, List.length_cons, List.length_nil] at hlength
    omega
  · right
    have hsplit : before ++ .opener kind :: (inner ++ .closer kind :: start.concat final) =
        (before ++ .opener kind :: (inner ++ .closer kind :: start)) ++ [final] := by simp
    rw [hsplit] at heq
    obtain ⟨rfl, -⟩ := List.append_inj' heq rfl
    exact ⟨before, kind, offset, inner, start, rfl, hinner, hopener, halternative, hcloser⟩

end Encloses

/-- A closer that fits closes the innermost open block. -/
theorem Pending.encloses {done : List LineKind} {opened : OpenBlock} {outer : List OpenBlock}
    (h : Pending done (opened :: outer)) :
    Encloses (done ++ [.closer opened.kind]) opened.index opened.alternative done.length := by
  obtain ⟨before, inner, offset, rfl, -, hinner, hindex, halternative⟩ := h.innermost
  refine ⟨before, opened.kind, offset, inner, [], by simp, hinner, hindex, ?_, ?_⟩
  · rw [hindex, halternative]
  · rw [hindex, List.length_append, List.length_cons]
    omega

/-- A line of a program that nests has at most one partner. -/
theorem Partner.unique {kinds : List LineKind} {index partner other : Nat}
    {found : List OpenBlock} (h : Partner kinds index partner) (hother : Partner kinds index other)
    (hscan : OpenBlock.after? 0 [] kinds = some found) : partner = other := by
  -- The kind of the line says which of its three roles it plays in both pairs.
  rcases h with ⟨_, hopener⟩ | ⟨_, hcloser⟩ | ⟨_, helse⟩
  · obtain ⟨kind, hkind, -, -⟩ := hopener.kind_at
    rcases hother with ⟨_, hsecond⟩ | ⟨_, hsecond⟩ | ⟨_, hsecond⟩
    · exact (hopener.unique_of_opener hsecond hscan).1
    · obtain ⟨_, -, hclose, -⟩ := hsecond.kind_at
      cases hkind.symm.trans hclose
    · obtain ⟨_, -, -, helse⟩ := hsecond.kind_at
      cases hkind.symm.trans (helse _ rfl)
  · obtain ⟨kind, -, hkind, -⟩ := hcloser.kind_at
    rcases hother with ⟨_, hsecond⟩ | ⟨_, hsecond⟩ | ⟨_, hsecond⟩
    · obtain ⟨_, hopen, -, -⟩ := hsecond.kind_at
      cases hkind.symm.trans hopen
    · exact (hcloser.unique_of_closer hsecond hscan).1
    · obtain ⟨_, -, -, helse⟩ := hsecond.kind_at
      cases hkind.symm.trans (helse _ rfl)
  · obtain ⟨_, -, -, hkind⟩ := helse.kind_at
    rcases hother with ⟨_, hsecond⟩ | ⟨_, hsecond⟩ | ⟨_, hsecond⟩
    · obtain ⟨_, hopen, -, -⟩ := hsecond.kind_at
      cases (hkind _ rfl).symm.trans hopen
    · obtain ⟨_, -, hclose, -⟩ := hsecond.kind_at
      cases (hkind _ rfl).symm.trans hclose
    · exact (helse.unique_of_alternative hsecond hscan).2

/-- Only openers, closers and `else` lines have partners. -/
theorem Partner.is_mark {kinds : List LineKind} {index partner : Nat}
    (h : Partner kinds index partner) : ∃ kind, kinds[index]? = some kind ∧ kind.isMark := by
  rcases h with ⟨_, h⟩ | ⟨_, h⟩ | ⟨_, h⟩
  · obtain ⟨_, hkind, -, -⟩ := h.kind_at
    exact ⟨_, hkind, rfl⟩
  · obtain ⟨_, -, hkind, -⟩ := h.kind_at
    exact ⟨_, hkind, rfl⟩
  · obtain ⟨_, -, -, hkind⟩ := h.kind_at
    exact ⟨_, hkind _ rfl, rfl⟩

/-- More lines leave partners as they are. -/
theorem Partner.append {kinds : List LineKind} {index partner : Nat}
    (h : Partner kinds index partner) (rest : List LineKind) :
    Partner (kinds ++ rest) index partner := by
  rcases h with ⟨_, h⟩ | ⟨_, h⟩ | ⟨_, h⟩
  · exact .inl ⟨_, h.append rest⟩
  · exact .inr (.inl ⟨_, h.append rest⟩)
  · exact .inr (.inr ⟨_, h.append rest⟩)

/-- More lines in front move partners by their number. -/
theorem Partner.prepend {kinds : List LineKind} {index partner : Nat}
    (h : Partner kinds index partner) (first : List LineKind) :
    Partner (first ++ kinds) (first.length + index) (first.length + partner) := by
  rcases h with ⟨_, h⟩ | ⟨_, h⟩ | ⟨_, h⟩
  · exact .inl ⟨_, h.prepend first⟩
  · exact .inr (.inl ⟨_, h.prepend first⟩)
  · exact .inr (.inr ⟨_, h.prepend first⟩)

/-- A conditional has at most one `else`. -/
theorem ElseOf.unique {kinds : List LineKind} {opener alternative other : Nat}
    {found : List OpenBlock} (h : ElseOf kinds opener alternative)
    (hother : ElseOf kinds opener other)
    (hscan : OpenBlock.after? 0 [] kinds = some found) : alternative = other := by
  obtain ⟨_, hfirst⟩ := h
  obtain ⟨_, hsecond⟩ := hother
  exact Option.some.inj (hfirst.unique_of_opener hsecond hscan).2

/-- The opener and the closer around an interior are partners, an `else` in it is a partner of the
closer, and every other line inside and after the block keeps its partner. -/
theorem Interior.partner {kind : BlockKind} {offset : Option Nat} {inner rest : List LineKind}
    (hinner : Interior kind offset inner)
    (hinside : ∀ index line, inner[index]? = some line → line.isMark →
      offset = some index ∨ ∃ partner, Partner inner index partner)
    (hrest : ∀ index line, rest[index]? = some line → line.isMark →
      ∃ partner, Partner rest index partner)
    {index : Nat} {line : LineKind}
    (hline : (.opener kind :: (inner ++ .closer kind :: rest))[index]? = some line)
    (hmark : line.isMark) :
    ∃ partner, Partner (.opener kind :: (inner ++ .closer kind :: rest)) index partner := by
  have hblock : Encloses (.opener kind :: (inner ++ .closer kind :: rest)) 0
      (offset.map (1 + ·)) (1 + inner.length) :=
    ⟨[], kind, offset, inner, rest, rfl, hinner, rfl, by simp, by simp⟩
  cases index with
  | zero => exact ⟨_, .inl ⟨_, hblock⟩⟩
  | succ index =>
      rw [List.getElem?_cons_succ] at hline
      rcases Nat.lt_trichotomy index inner.length with hlt | rfl | hgt
      · rw [List.getElem?_append_left hlt] at hline
        rcases hinside index line hline hmark with rfl | ⟨partner, hpartner⟩
        · rw [Option.map_some, Nat.add_comm 1 index] at hblock
          exact ⟨_, .inr (.inr ⟨_, hblock⟩)⟩
        · have hmoved := (hpartner.append (.closer kind :: rest)).prepend [.opener kind]
          exact ⟨_, Nat.add_comm 1 index ▸ hmoved⟩
      · exact ⟨_, .inr (.inl ⟨_, Nat.add_comm 1 inner.length ▸ hblock⟩)⟩
      · obtain ⟨distance, rfl⟩ := Nat.exists_eq_add_of_lt hgt
        rw [List.getElem?_append_right (by omega)] at hline
        obtain ⟨partner, hpartner⟩ := hrest distance line
          (by simpa [Nat.add_assoc, Nat.add_sub_cancel_left] using hline) hmark
        have hmoved := hpartner.prepend (.opener kind :: (inner ++ [.closer kind]))
        have hindex : (LineKind.opener kind :: (inner ++ [.closer kind])).length + distance =
            inner.length + distance + 1 + 1 := by
          simp only [List.length_cons, List.length_append, List.length_nil]
          omega
        rw [hindex] at hmoved
        exact ⟨_, by simpa using hmoved⟩

/-- Every opener, closer and `else` of lines that nest has a partner. -/
theorem WellNested.partner {kinds : List LineKind} (h : WellNested kinds) (index : Nat)
    (line : LineKind) (hline : kinds[index]? = some line) (hmark : line.isMark) :
    ∃ partner, Partner kinds index partner := by
  induction h generalizing index line with
  | empty => cases hline
  | skipped _ ih | statement _ ih =>
      cases index with
      | zero =>
          obtain rfl := Option.some.inj hline
          cases hmark
      | succ index =>
          obtain ⟨partner, hpartner⟩ := ih index line hline hmark
          exact ⟨_, Nat.add_comm 1 index ▸ hpartner.prepend [_]⟩
  | block kind hbody _ ihbody ihrest =>
      refine (Interior.body hbody).partner ?_ ihrest hline hmark
      intro index line hline hmark
      exact .inr (ihbody index line hline hmark)
  | @branches yes no rest hyes hno _ ihyes ihno ihrest =>
      have hlines : LineKind.opener .conditional ::
          (yes ++ .otherwise :: (no ++ .closer .conditional :: rest)) =
          .opener .conditional :: ((yes ++ .otherwise :: no) ++ .closer .conditional :: rest) := by
        simp
      rw [hlines] at hline ⊢
      refine (Interior.branches hyes hno).partner ?_ ihrest hline hmark
      intro index line hline hmark
      rcases Nat.lt_trichotomy index yes.length with hlt | rfl | hgt
      · rw [List.getElem?_append_left hlt] at hline
        obtain ⟨partner, hpartner⟩ := ihyes index line hline hmark
        exact .inr ⟨_, hpartner.append _⟩
      · exact .inl rfl
      · obtain ⟨distance, rfl⟩ := Nat.exists_eq_add_of_lt hgt
        rw [List.getElem?_append_right (by omega)] at hline
        obtain ⟨partner, hpartner⟩ := ihno distance line
          (by simpa [Nat.add_assoc, Nat.add_sub_cancel_left] using hline) hmark
        have hmoved := hpartner.prepend (yes ++ [.otherwise])
        have hindex : (yes ++ [LineKind.otherwise]).length + distance =
            yes.length + distance + 1 := by
          simp only [List.length_append, List.length_cons, List.length_nil]
          omega
        rw [hindex] at hmoved
        exact .inr ⟨_, by simpa using hmoved⟩

end PenScript
