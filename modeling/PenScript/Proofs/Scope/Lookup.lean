import Mathlib.Data.List.Nodup
import PenScript.Interpreter

/-!
# Looking names up

What a map by name holds is told by its lookups: `NameMap.ext_get` says that two maps with the same
lookups are the same, and `NameMap.get_insert` what an insertion does to them. So the order in which
variables are set for the first time leaves no trace (`NameMap.of_list_perm`).

`Scope.Yields` says which value the variables at the end of a method give to its name, in terms of
lookups alone, and `Scope.yields_iff` that it is the result of the method.
-/

namespace PenScript

namespace NameMap

variable {α : Type} {map first second : NameMap α} {name other : Text} {value : α}

/-- An entry of a map is found under its name. -/
theorem mem_entries_iff : (name, value) ∈ map.entries ↔ map.get? name = some value := by
  rw [get?, List.lookup_eq_some_iff]
  constructor
  · intro hmem
    obtain ⟨before, after, hentries⟩ := List.append_of_mem hmem
    refine ⟨before, after, hentries, fun entry hentry ↦ ?_⟩
    have hlt : entry.1 < name := by
      have hsorted := map.sorted
      rw [hentries] at hsorted
      exact (List.pairwise_append.mp hsorted).2.2 entry hentry (name, value) List.mem_cons_self
    rw [bne_iff_ne]
    rintro rfl
    exact List.lt_irrefl _ hlt
  · rintro ⟨before, after, hentries, -⟩
    rw [hentries]
    exact List.mem_append_right before List.mem_cons_self

/-- Two maps that find the same values under the same names are the same. -/
theorem ext_get (h : ∀ name, first.get? name = second.get? name) : first = second := by
  have hdistinct : ∀ map : NameMap α, map.entries.Nodup := by
    intro map
    refine map.sorted.imp fun hlt ↦ ?_
    rintro rfl
    exact List.lt_irrefl _ hlt
  have hperm : first.entries.Perm second.entries := by
    rw [List.perm_ext_iff_of_nodup (hdistinct first) (hdistinct second)]
    rintro ⟨name, value⟩
    rw [mem_entries_iff, mem_entries_iff, h]
  have hentries := List.Perm.eq_of_pairwise
    (fun _ _ _ _ hlt hgt ↦ absurd (List.lt_trans hlt hgt) (List.lt_irrefl _))
    first.sorted second.sorted hperm
  cases first
  cases second
  obtain rfl := hentries
  rfl

/-- A look-up tests the first entry and goes on with the others. -/
theorem lookup_entry (entry : Text × α) (rest : List (Text × α)) :
    (entry :: rest).lookup other = if other = entry.1 then some entry.2 else rest.lookup other := by
  rw [List.lookup_cons]
  by_cases hname : other = entry.1
  · rw [if_pos hname, beq_iff_eq.mpr hname]
  · rw [if_neg hname, beq_eq_false_iff_ne.mpr hname]

/-- An insertion changes what is found under its own name and nothing else. -/
theorem get_insert :
    (map.insert name value).get? other = if other = name then some value else map.get? other := by
  obtain ⟨entries, sorted⟩ := map
  show (insertEntry name value entries).lookup other =
    if other = name then some value else entries.lookup other
  clear sorted
  induction entries with
  | nil => exact lookup_entry (name, value) []
  | cons entry rest ih =>
      rw [insertEntry]
      by_cases hsame : name = entry.1
      · rw [if_pos hsame, lookup_entry, lookup_entry, ← hsame]
        by_cases hname : other = name
        · rw [if_pos hname, if_pos hname]
        · rw [if_neg hname, if_neg hname, if_neg hname]
      · rw [if_neg hsame]
        by_cases hlt : name < entry.1
        · rw [if_pos hlt, lookup_entry]
        · rw [if_neg hlt, lookup_entry, lookup_entry, ih]
          by_cases hname : other = name
          · have hother : other ≠ entry.1 := hname ▸ hsame
            rw [if_neg hother, if_pos hname, if_pos hname]
          · rw [if_neg hname, if_neg hname]

/-- Insertions under different names can be swapped. -/
theorem insert_comm (hname : name ≠ other) (found : α) :
    (map.insert name value).insert other found = (map.insert other found).insert name value := by
  apply ext_get
  intro place
  simp only [get_insert]
  by_cases hfirst : place = name
  · have hother : place ≠ other := hfirst ▸ hname
    simp [hfirst, hname]
  · simp [hfirst]

/-- The map with the values under the names, where a later value replaces an earlier one. -/
def ofList (bindings : List (Text × α)) : NameMap α :=
  bindings.foldl (fun map binding ↦ map.insert binding.1 binding.2) NameMap.empty

/-- The order in which different names get their values makes no difference. -/
theorem of_list_perm {bindings others : List (Text × α)} (hperm : bindings.Perm others)
    (hdistinct : (bindings.map Prod.fst).Nodup) : ofList bindings = ofList others := by
  refine hperm.foldl_eq' (fun binding hbinding next hnext map ↦ ?_) empty
  by_cases hname : binding.1 = next.1
  · -- Two bindings of one name are the same binding.
    obtain rfl : binding = next :=
      List.inj_on_of_nodup_map hdistinct hbinding hnext hname
    rfl
  · exact insert_comm hname next.2

section Related

variable {β : Type} {near : α → β → Prop} {others : NameMap β}

/-- Two maps have the same names, and values under them that are alike. -/
def Related (near : α → β → Prop) (map : NameMap α) (others : NameMap β) : Prop :=
  List.Forall₂ (fun entry twin ↦ entry.1 = twin.1 ∧ near entry.2 twin.2) map.entries others.entries

/-- Maps that are alike find values that are alike. -/
theorem Related.get (h : map.Related near others) (name : Text) :
    Option.Rel near (map.get? name) (others.get? name) := by
  obtain ⟨entries, sorted⟩ := map
  obtain ⟨twins, sortedTwins⟩ := others
  show Option.Rel near (entries.lookup name) (twins.lookup name)
  have hentries : List.Forall₂ (fun entry twin ↦ entry.1 = twin.1 ∧ near entry.2 twin.2)
    entries twins := h
  clear h sorted sortedTwins
  induction hentries with
  | nil => exact .none
  | @cons entry twin _ _ hfirst _ ih =>
      rw [lookup_entry, lookup_entry, ← hfirst.1]
      by_cases hname : name = entry.1
      · rw [if_pos hname, if_pos hname]
        exact .some hfirst.2
      · rw [if_neg hname, if_neg hname]
        exact ih

/-- Values that are alike keep maps alike when they are put in under one name. -/
theorem Related.insert (h : map.Related near others) (name : Text) {value : α} {twin : β}
    (hvalue : near value twin) : (map.insert name value).Related near (others.insert name twin) := by
  obtain ⟨entries, sorted⟩ := map
  obtain ⟨twins, sortedTwins⟩ := others
  show List.Forall₂ (fun entry twin ↦ entry.1 = twin.1 ∧ near entry.2 twin.2)
    (insertEntry name value entries) (insertEntry name twin twins)
  have hentries : List.Forall₂ (fun entry twin ↦ entry.1 = twin.1 ∧ near entry.2 twin.2)
    entries twins := h
  clear h sorted sortedTwins
  induction hentries with
  | nil => exact .cons ⟨rfl, hvalue⟩ .nil
  | @cons entry other _ _ hfirst hrest ih =>
      rw [insertEntry, insertEntry, ← hfirst.1]
      by_cases hname : name = entry.1
      · rw [if_pos hname, if_pos hname]
        exact .cons ⟨rfl, hvalue⟩ hrest
      · rw [if_neg hname, if_neg hname]
        by_cases hlt : name < entry.1
        · rw [if_pos hlt, if_pos hlt]
          exact .cons ⟨rfl, hvalue⟩ (.cons hfirst hrest)
        · rw [if_neg hlt, if_neg hlt]
          exact .cons hfirst ih

end Related

end NameMap

/-- The value that variables give to the name of a method: that of the variable with exactly this
name, or else of the variable with the smallest of the names that differ from it in letter case
only, or else zero. -/
inductive Scope.Yields (scope : Scope) (name : Text) : Value → Prop where
  | exact {value : Value} : scope.get? name = some value → Yields scope name value
  | smallest {other : Text} {value : Value} :
      scope.get? name = none → scope.get? other = some value →
      Text.sameIgnoringCase other name = true →
      (∀ third found, scope.get? third = some found →
        Text.sameIgnoringCase third name = true → ¬ third < other) →
      Yields scope name value
  | zero :
      (∀ other found, scope.get? other = some found →
        Text.sameIgnoringCase other name = false) → Yields scope name (.integer 0)

/-- The first entry with a name that is the same but for letter case has the smallest such name. -/
theorem Scope.find_eq_some_iff {scope : Scope} {name other : Text} {value : Value} :
    (scope.entries.find? fun entry ↦ Text.sameIgnoringCase entry.1 name) =
        some (other, value) ↔
      scope.get? other = some value ∧ Text.sameIgnoringCase other name = true ∧
        ∀ third found, scope.get? third = some found →
          Text.sameIgnoringCase third name = true → ¬ third < other := by
  have hsorted := scope.sorted
  rw [List.find?_eq_some_iff_append]
  constructor
  · rintro ⟨hsame, before, after, hentries, hbefore⟩
    rw [hentries] at hsorted
    refine ⟨?_, hsame, fun third found hthird hmatches ↦ ?_⟩
    · rw [← NameMap.mem_entries_iff, hentries]
      exact List.mem_append_right before List.mem_cons_self
    · rw [← NameMap.mem_entries_iff, hentries, List.mem_append, List.mem_cons] at hthird
      rcases hthird with hearlier | heq | hlater
      · have hmisses := hbefore _ hearlier
        rw [hmatches] at hmisses
        cases hmisses
      · obtain ⟨rfl, -⟩ := Prod.mk.inj heq
        exact List.lt_irrefl third
      · have hrest := (List.pairwise_append.mp hsorted).2.1
        have hlt : other < third := List.rel_of_pairwise_cons hrest hlater
        exact fun hgt ↦ List.lt_irrefl _ (List.lt_trans hlt hgt)
  · rintro ⟨hfound, hsame, hsmallest⟩
    obtain ⟨before, after, hentries⟩ :=
      List.append_of_mem (NameMap.mem_entries_iff.mpr hfound)
    refine ⟨hsame, before, after, hentries, fun entry hentry ↦ ?_⟩
    rw [hentries] at hsorted
    have hlt : entry.1 < other :=
      (List.pairwise_append.mp hsorted).2.2 entry hentry (other, value) List.mem_cons_self
    rw [Bool.not_eq_true']
    cases hmatches : Text.sameIgnoringCase entry.1 name with
    | false => rfl
    | true =>
        have hmem : (entry.1, entry.2) ∈ scope.entries := by
          rw [hentries]
          exact List.mem_append_left _ hentry
        exact absurd hlt (hsmallest _ _ (NameMap.mem_entries_iff.mp hmem) hmatches)

/-- Variables give one value to the name of a method, which is its result. -/
theorem Scope.yields_iff {method : Method} {scope : Scope} {value : Value} :
    Scope.Yields scope method.name value ↔ method.result scope = value := by
  have hself : Text.sameIgnoringCase method.name method.name = true := beq_self_eq_true _
  constructor
  · intro h
    unfold Method.result Scope.findIgnoringCase
    cases h with
    | exact hfound => rw [hfound, Option.getD_some]
    | smallest hnone hfound hsame hsmallest =>
        rw [hnone]
        dsimp only
        rw [Scope.find_eq_some_iff.mpr ⟨hfound, hsame, hsmallest⟩, Option.map_some,
          Option.getD_some]
    | zero hmisses =>
        have hnone : scope.get? method.name = none := by
          cases hfound : scope.get? method.name with
          | none => rfl
          | some found => cases hself.symm.trans (hmisses _ _ hfound)
        have hfind : (scope.entries.find? fun entry ↦
            Text.sameIgnoringCase entry.1 method.name) = none := by
          rw [List.find?_eq_none]
          intro entry hentry
          rw [hmisses _ _ (NameMap.mem_entries_iff.mp hentry)]
          exact Bool.false_ne_true
        rw [hnone]
        dsimp only
        rw [hfind, Option.map_none, Option.getD_none]
  · rintro rfl
    unfold Method.result Scope.findIgnoringCase
    cases hfound : scope.get? method.name with
    | some found => exact .exact hfound
    | none =>
        dsimp only
        cases hfind : scope.entries.find? fun entry ↦
            Text.sameIgnoringCase entry.1 method.name with
        | some entry =>
            obtain ⟨hother, hsame, hsmallest⟩ := Scope.find_eq_some_iff.mp hfind
            exact .smallest hfound hother hsame hsmallest
        | none =>
            refine .zero fun other found hother ↦ ?_
            have hmisses := List.find?_eq_none.mp hfind _ (NameMap.mem_entries_iff.mpr hother)
            exact Bool.not_eq_true _ ▸ hmisses

end PenScript
