import PenScript.Text

/-!
# Maps by name

A map from names to values, kept in the order of the names by code point. The order belongs to the
type, so two maps with the same entries are equal, and a listing needs no sorting.
-/

namespace PenScript

/-- Values under names, in the order of the names. -/
structure NameMap (α : Type) where
  entries : List (Text × α)
  sorted : entries.Pairwise fun left right ↦ left.1 < right.1

namespace NameMap

variable {α : Type}

/-- The map without entries. -/
def empty : NameMap α := ⟨[], .nil⟩

/-- Puts a value under a name into sorted entries, in place of the value that the name had. -/
def insertEntry (name : Text) (value : α) : List (Text × α) → List (Text × α)
  | [] => [(name, value)]
  | entry :: rest =>
      if name = entry.1 then (name, value) :: rest
      else if name < entry.1 then (name, value) :: entry :: rest
      else entry :: insertEntry name value rest

/-- An entry after an insertion is the new one or an old one. -/
theorem mem_insert_entry {name : Text} {value : α} {entry : Text × α}
    {entries : List (Text × α)} (mem : entry ∈ insertEntry name value entries) :
    entry = (name, value) ∨ entry ∈ entries := by
  induction entries with
  | nil => simpa [insertEntry] using mem
  | cons first rest ih =>
      rw [insertEntry] at mem
      split at mem
      · rcases List.mem_cons.mp mem with rfl | mem
        · exact .inl rfl
        · exact .inr (List.mem_cons_of_mem _ mem)
      · split at mem
        · rcases List.mem_cons.mp mem with rfl | mem
          · exact .inl rfl
          · exact .inr mem
        · rcases List.mem_cons.mp mem with rfl | mem
          · exact .inr List.mem_cons_self
          · exact (ih mem).imp id (List.mem_cons_of_mem _)

/-- Insertion keeps the entries sorted. -/
theorem sorted_insert_entry (name : Text) (value : α) {entries : List (Text × α)}
    (sorted : entries.Pairwise fun left right ↦ left.1 < right.1) :
    (insertEntry name value entries).Pairwise fun left right ↦ left.1 < right.1 := by
  induction entries with
  | nil => simp [insertEntry]
  | cons first rest ih =>
      have hfirst : ∀ {entry}, entry ∈ rest → first.1 < entry.1 := List.rel_of_pairwise_cons sorted
      have hrest := sorted.of_cons
      rw [insertEntry]
      split
      · rename_i heq
        exact hrest.cons fun entry mem ↦ by simpa [heq] using hfirst mem
      · split
        · rename_i hlt
          refine sorted.cons fun entry mem ↦ ?_
          rcases List.mem_cons.mp mem with rfl | mem
          · exact hlt
          · exact List.lt_trans hlt (hfirst mem)
        · rename_i hne hlt
          refine (ih hrest).cons fun entry mem ↦ ?_
          rcases mem_insert_entry mem with rfl | mem
          · exact (List.le_iff_lt_or_eq.mp (List.not_lt.mp hlt)).resolve_right (Ne.symm hne)
          · exact hfirst mem

/-- The map with a value under a name, in place of the value that the name had. -/
def insert (map : NameMap α) (name : Text) (value : α) : NameMap α :=
  ⟨insertEntry name value map.entries, sorted_insert_entry name value map.sorted⟩

/-- The value under a name. -/
def get? (map : NameMap α) (name : Text) : Option α :=
  map.entries.lookup name

/-- There is a value under the name. -/
def contains (map : NameMap α) (name : Text) : Bool :=
  (map.get? name).isSome

/-- The number of entries. -/
def size (map : NameMap α) : Nat :=
  map.entries.length

/-- The map has no entries. -/
def isEmpty (map : NameMap α) : Bool :=
  map.entries.isEmpty

/-- The values in the order of their names. -/
def values (map : NameMap α) : List α :=
  map.entries.map (·.2)

end NameMap

end PenScript
