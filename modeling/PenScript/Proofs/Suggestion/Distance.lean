import Mathlib.Data.List.Induction
import PenScript.Proofs.Suggestion.Edits

/-!
# Distances and suggestions

`Suggestion.distance` fills a table row by row, and the entry in a row and a column is the cost of
two prefixes of the texts (`tableRow`). The table grows at the ends of the prefixes, where `edits`
takes the first characters off, so the cost is that of the reversed prefixes; this is no difference
in the end, because edits can be made from either side.

`Suggestion.closest?` looks through the candidates once and keeps the best one so far (`Chosen`).
`suggestions_are_optimal` says what the two come to.
-/

namespace PenScript.Suggestion

/-! ### The table -/

/-- The prefixes of a text that are at least as long as the first part of it, the shortest first.
That part and the prefixes are given from their ends. -/
def prefixes : Text → Text → List Text
  | done, [] => [done]
  | done, c :: rest => done :: prefixes (c :: done) rest

/-- The row of the table for a prefix of the first text, which is given from its end. -/
def tableRow (text other : Text) : List Nat :=
  (prefixes [] other).map (edits text)

/-- The prefixes have one length after another. -/
theorem prefixes_length (done rest : Text) :
    (prefixes done rest).map List.length = List.range' done.length (rest.length + 1) := by
  induction rest generalizing done with
  | nil => rfl
  | cons c rest ih =>
      rw [prefixes, List.map_cons, ih, List.length_cons, List.length_cons, ← List.range'_succ]

/-- The longest prefix is the whole text. -/
theorem prefixes_last (done rest : Text) :
    (prefixes done rest).getLast? = some (rest.reverse ++ done) := by
  induction rest generalizing done with
  | nil => rfl
  | cons c rest ih => simp [prefixes, List.getLast?_cons, ih]

/-- The rest of a row from the row above it. -/
theorem fill_row_prefixes (c : Char) (text done rest : Text) :
    fillRow c (edits (c :: text) done) (edits text done) rest
        ((prefixes done rest).tail.map (edits text)) =
      (prefixes done rest).tail.map (edits (c :: text)) := by
  induction rest generalizing done with
  | nil => rfl
  | cons d rest ih =>
      obtain ⟨longer, hlonger⟩ : ∃ longer, prefixes (d :: done) rest = (d :: done) :: longer := by
        cases rest with
        | nil => exact ⟨[], rfl⟩
        | cons e rest => exact ⟨_, rfl⟩
      have hrest := ih (d :: done)
      rw [hlonger] at hrest
      rw [prefixes, List.tail_cons, hlonger, List.map_cons, List.map_cons, fillRow,
        ← edits_cons_cons]
      exact congrArg _ hrest

/-- One more character makes the next row. -/
theorem next_row_table (c : Char) (text other : Text) :
    nextRow other (tableRow text other) c = tableRow (c :: text) other := by
  have hfirst : ∀ text, tableRow text other =
      text.length :: (prefixes [] other).tail.map (edits text) := by
    intro text
    cases other with
    | nil => rw [tableRow, prefixes, List.map_cons, edits_nil_right, List.tail_cons]
    | cons d other => rw [tableRow, prefixes, List.map_cons, edits_nil_right, List.tail_cons]
  have hfill := fill_row_prefixes c text [] other
  rw [edits_nil_right, edits_nil_right, List.length_cons] at hfill
  rw [hfirst, hfirst, nextRow, hfill, List.length_cons]

/-- All rows of the table. -/
theorem foldl_next_row (text done other : Text) :
    text.foldl (nextRow other) (tableRow done other) = tableRow (text.reverse ++ done) other := by
  induction text generalizing done with
  | nil => rfl
  | cons c text ih => simp [next_row_table, ih]

/-- The last entry of the last row is the cost of the two texts from their ends. -/
theorem distance_eq_edits (text other : Text) :
    distance text other = edits text.reverse other.reverse := by
  have hstart : List.range (other.length + 1) = tableRow [] other := by
    have hlength := prefixes_length [] other
    rw [List.length_nil, ← List.range_eq_range'] at hlength
    rw [tableRow, ← hlength]
    exact List.map_congr_left fun _ _ ↦ (edits_nil_left _).symm
  have hlast : (tableRow text.reverse other).getLast? =
      some (edits text.reverse other.reverse) := by
    rw [tableRow, List.getLast?_map, prefixes_last, List.append_nil]
    rfl
  rw [distance, hstart, foldl_next_row, List.append_nil, List.getLastD_eq_getLast?, hlast]
  rfl

/-- The distance is the least number of edits that turn one text into the other. -/
theorem least_distance (text other : Text) :
    IsLeast {count | Edits count text other} (distance text other) := by
  have hleast := least_edits text.reverse other.reverse
  simp only [Edits.reverse_iff] at hleast
  rw [distance_eq_edits]
  exact hleast

/-! ### The best candidate -/

/-- The candidate is the first of those that are nearest to the name: the ones before it are farther
away, and no one after it is nearer. -/
def FirstNearest (name : Text) (candidates : List Text) (found : Text) : Prop :=
  ∃ before after, candidates = before ++ found :: after ∧
    (∀ other ∈ before, distance name found < distance name other) ∧
      ∀ other ∈ after, distance name found ≤ distance name other

/-- The best of the candidates within the threshold, with its distance. -/
def Chosen (name : Text) (threshold : Nat) (candidates : List Text) : Option (Nat × Text) → Prop
  | none => ∀ other ∈ candidates, threshold < distance name other
  | some (least, found) =>
      least = distance name found ∧ least ≤ threshold ∧ FirstNearest name candidates found

/-- The best candidate so far, after one more candidate. -/
def choose (name : Text) (threshold : Nat) (best : Option (Nat × Text)) (candidate : Text) :
    Option (Nat × Text) :=
  if distance name candidate ≤ threshold then nearer best (distance name candidate, candidate)
  else best

variable {name found : Text} {threshold : Nat} {candidates : List Text}

/-- There is one first nearest candidate at most. -/
theorem FirstNearest.unique {other : Text} (h : FirstNearest name candidates found)
    (hother : FirstNearest name candidates other) : found = other := by
  obtain ⟨before, after, rfl, hbefore, hafter⟩ := h
  obtain ⟨first, last, hsplit, hfirst, hlast⟩ := hother
  -- A candidate that stands before the other one would be both nearer and not nearer.
  rcases List.append_eq_append_iff.mp hsplit with ⟨between, rfl, hrest⟩ | ⟨between, rfl, hrest⟩
  · cases between with
    | nil => exact (List.cons.inj hrest).1
    | cons head between =>
        obtain ⟨rfl, rfl⟩ := List.cons.inj hrest
        have hlt := hfirst found (by simp)
        have hle := hafter other (by simp)
        omega
  · cases between with
    | nil => exact (List.cons.inj hrest).1.symm
    | cons head between =>
        obtain ⟨rfl, rfl⟩ := List.cons.inj hrest
        have hlt := hbefore other (by simp)
        have hle := hlast found (by simp)
        omega

/-- A candidate is the first nearest one of more candidates when those are not nearer. -/
theorem FirstNearest.concat (h : FirstNearest name candidates found) {other : Text}
    (hother : distance name found ≤ distance name other) :
    FirstNearest name (candidates ++ [other]) found := by
  obtain ⟨before, after, rfl, hbefore, hafter⟩ := h
  refine ⟨before, after ++ [other], by simp, hbefore, ?_⟩
  intro another hanother
  rcases List.mem_append.mp hanother with hmem | hmem
  · exact hafter another hmem
  · rwa [List.mem_singleton.mp hmem]

/-- The first nearest candidate is one of the nearest. -/
theorem FirstNearest.le (h : FirstNearest name candidates found) {other : Text}
    (hother : other ∈ candidates) : distance name found ≤ distance name other := by
  obtain ⟨before, after, rfl, hbefore, hafter⟩ := h
  rcases List.mem_append.mp hother with hmem | hmem
  · exact Nat.le_of_lt (hbefore other hmem)
  · rcases List.mem_cons.mp hmem with rfl | hmem
    · exact Nat.le_refl _
    · exact hafter other hmem

/-- One more candidate is compared with the best one so far. -/
theorem Chosen.concat {best : Option (Nat × Text)} (h : Chosen name threshold candidates best)
    (candidate : Text) :
    Chosen name threshold (candidates ++ [candidate]) (choose name threshold best candidate) := by
  have hlast : (∀ other ∈ candidates, distance name candidate < distance name other) →
      FirstNearest name (candidates ++ [candidate]) candidate := by
    intro hfarther
    exact ⟨candidates, [], rfl, hfarther, fun _ hmem ↦ nomatch hmem⟩
  unfold choose
  by_cases hnear : distance name candidate ≤ threshold
  · rw [if_pos hnear]
    cases best with
    | none =>
        refine ⟨rfl, hnear, hlast fun other hother ↦ ?_⟩
        exact Nat.lt_of_le_of_lt hnear (h other hother)
    | some best =>
        obtain ⟨least, found⟩ := best
        obtain ⟨rfl, hle, hfound⟩ := h
        simp only [nearer]
        by_cases hnearer : distance name candidate < distance name found
        · rw [if_pos hnearer]
          refine ⟨rfl, hnear, hlast fun other hother ↦ ?_⟩
          exact Nat.lt_of_lt_of_le hnearer (hfound.le hother)
        · rw [if_neg hnearer]
          exact ⟨rfl, hle, hfound.concat (by omega)⟩
  · rw [if_neg hnear]
    cases best with
    | none =>
        intro other hother
        rcases List.mem_append.mp hother with hmem | hmem
        · exact h other hmem
        · rw [List.mem_singleton.mp hmem]
          omega
    | some best =>
        obtain ⟨least, found⟩ := best
        obtain ⟨rfl, hle, hfound⟩ := h
        exact ⟨rfl, hle, hfound.concat (by omega)⟩

/-- After all candidates the best of them is chosen. -/
theorem chosen_foldl (name : Text) (threshold : Nat) (candidates : List Text) :
    Chosen name threshold candidates (candidates.foldl (choose name threshold) none) := by
  induction candidates using List.reverseRecOn with
  | nil => exact fun _ hmem ↦ nomatch hmem
  | append_singleton candidates candidate ih =>
      rw [List.foldl_append]
      exact ih.concat candidate

/-- The suggestion is the best candidate. -/
theorem closest_eq (name : Text) (candidates : List Text) (threshold : Nat) :
    closest? name candidates threshold =
      (candidates.foldl (choose name threshold) none).map (·.2) := by
  unfold closest?
  simp only [List.foldl_filter, List.foldl_map, decide_eq_true_eq]
  rfl

/-- The distance of two texts is the least number of insertions, deletions and replacements of one
character that turn one into the other. The suggestion for a name is the first of the candidates
that are nearest to it, if they are within the threshold, and there is none exactly when every
candidate is farther away. -/
theorem suggestions_are_optimal :
    (∀ text other, IsLeast {count | Edits count text other} (distance text other)) ∧
    ∀ name candidates threshold,
      (∀ found, closest? name candidates threshold = some found ↔
        FirstNearest name candidates found ∧ distance name found ≤ threshold) ∧
      (closest? name candidates threshold = none ↔
        ∀ candidate ∈ candidates, threshold < distance name candidate) := by
  refine ⟨least_distance, fun name candidates threshold ↦ ?_⟩
  have hchosen := chosen_foldl name threshold candidates
  rw [closest_eq]
  cases hbest : candidates.foldl (choose name threshold) none with
  | none =>
      rw [hbest] at hchosen
      refine ⟨fun found ↦ ⟨?_, ?_⟩, ⟨fun _ ↦ hchosen, fun _ ↦ rfl⟩⟩
      · intro h
        cases h
      · rintro ⟨⟨before, after, rfl, -, -⟩, hle⟩
        have hfarther := hchosen found (by simp)
        omega
  | some best =>
      obtain ⟨least, nearest⟩ := best
      rw [hbest] at hchosen
      obtain ⟨rfl, hle, hnearest⟩ := hchosen
      refine ⟨fun found ↦ ⟨?_, ?_⟩, ⟨?_, ?_⟩⟩
      · intro h
        obtain rfl : nearest = found := Option.some.inj h
        exact ⟨hnearest, hle⟩
      · rintro ⟨hfound, -⟩
        rw [hnearest.unique hfound]
        rfl
      · intro h
        cases h
      · intro h
        obtain ⟨before, after, rfl, -, -⟩ := hnearest
        have hfarther := h nearest (by simp)
        omega

example : closest? "circel".toList ["clear".toList, "circle".toList, "circe".toList] 2 =
    some "circe".toList := by decide

end PenScript.Suggestion
