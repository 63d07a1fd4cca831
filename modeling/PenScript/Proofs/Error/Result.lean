/-!
# Computations that can fail

What the end of a computation tells about its steps.
-/

namespace PenScript

/-- A computation that ends with a value has had a value at each step. -/
theorem ok_of_bind {ε α β : Type} {first : Except ε α} {rest : α → Except ε β} {value : β}
    (h : first >>= rest = .ok value) : ∃ middle, first = .ok middle ∧ rest middle = .ok value := by
  cases first with
  | error error => cases h
  | ok middle => exact ⟨middle, rfl, h⟩

/-- A computation that fails does so in its first step, or after the value of that step. -/
theorem error_of_bind {ε α β : Type} {first : Except ε α} {rest : α → Except ε β} {error : ε}
    (h : first >>= rest = .error error) :
    first = .error error ∨ ∃ middle, first = .ok middle ∧ rest middle = .error error := by
  cases first with
  | error other => exact .inl (congrArg Except.error (Except.error.inj h))
  | ok middle => exact .inr ⟨middle, rfl, h⟩

/-- A computation that ends with a value has not been refused. -/
theorem ok_of_refused {ε α : Type} {refused : Prop} [Decidable refused] {error : ε}
    {next : PUnit → Except ε α} {rest : Except ε α} {value : α}
    (h : (if refused then (throw error : Except ε PUnit) >>= next else rest) = .ok value) :
    ¬ refused ∧ rest = .ok value := by
  split at h
  · cases h
  · exact ⟨‹_›, h⟩

/-- A computation that ends with a value does so whatever becomes of its errors. -/
theorem ok_of_map_error {α β γ : Type} {result : Except α γ} {f : α → β} {value : γ}
    (h : result.mapError f = .ok value) : result = .ok value := by
  cases result with
  | error error => cases h
  | ok found => exact congrArg Except.ok (Except.ok.inj h)

/-- What is computed from items in turn has the result of each of them. -/
theorem ok_of_mapM {ε α β : Type} {each : α → Except ε β} {items : List α} {results : List β}
    (h : items.mapM each = .ok results) :
    ∀ item ∈ items, ∃ result ∈ results, each item = .ok result := by
  induction items generalizing results with
  | nil => exact fun _ hmem ↦ nomatch hmem
  | cons item rest ih =>
      rw [List.mapM_cons] at h
      obtain ⟨first, hfirst, h⟩ := ok_of_bind h
      obtain ⟨others, hothers, h⟩ := ok_of_bind h
      obtain rfl := Except.ok.inj h
      refine List.forall_mem_cons.mpr ⟨⟨first, List.mem_cons_self, hfirst⟩, fun other hother ↦ ?_⟩
      obtain ⟨result, hmem, hresult⟩ := ih hothers other hother
      exact ⟨result, List.mem_cons_of_mem first hmem, hresult⟩

/-- Computations in turn have the values that they have when their errors are reported otherwise. -/
theorem mapM_of_map_error {ε δ α β : Type} {each : α → Except ε β} {report : α → ε → δ}
    {items : List α} {results : List β}
    (h : items.mapM (fun item ↦ (each item).mapError (report item)) = .ok results) :
    items.mapM each = .ok results := by
  induction items generalizing results with
  | nil => exact congrArg Except.ok (Except.ok.inj h)
  | cons item rest ih =>
      rw [List.mapM_cons] at h ⊢
      obtain ⟨first, hfirst, h⟩ := ok_of_bind h
      obtain ⟨others, hothers, h⟩ := ok_of_bind h
      rw [ok_of_map_error hfirst, ih hothers]
      exact congrArg Except.ok (Except.ok.inj h)

/-- Computations in turn fail with the first failure among them. -/
theorem mapM_error {ε α β : Type} {each : α → Except ε β} {before after : List α} {item : α}
    {error : ε} (hbefore : ∀ other ∈ before, ∃ result, each other = .ok result)
    (hitem : each item = .error error) : (before ++ item :: after).mapM each = .error error := by
  induction before with
  | nil =>
      rw [List.nil_append, List.mapM_cons, hitem]
      rfl
  | cons first rest ih =>
      obtain ⟨⟨result, hresult⟩, hrest⟩ := List.forall_mem_cons.mp hbefore
      rw [List.cons_append, List.mapM_cons, hresult, ih hrest]
      rfl

/-- Two computations that give the same for each of the items give the same for them in turn. -/
theorem mapM_congr {ε α β : Type} {each other : α → Except ε β} {items : List α}
    (h : ∀ item ∈ items, each item = other item) : items.mapM each = items.mapM other := by
  induction items with
  | nil => rfl
  | cons item rest ih =>
      obtain ⟨hitem, hrest⟩ := List.forall_mem_cons.mp h
      rw [List.mapM_cons, List.mapM_cons, hitem, ih hrest]

/-- A computation without a value of its own that has not failed. -/
theorem eq_ok_of_is_ok {ε : Type} {result : Except ε Unit} (h : result.isOk = true) :
    result = .ok () := by
  cases result with
  | error error => cases h
  | ok finished => rfl

/-- Two computations end in the same way: both fail, with errors that are related, or both have
values, which are related. -/
inductive SameEnd {ε δ α β : Type} (fault : ε → δ → Prop) (near : α → β → Prop) :
    Except ε α → Except δ β → Prop where
  | error {first : ε} {second : δ} : fault first second → SameEnd fault near (.error first)
      (.error second)
  | ok {value : α} {twin : β} : near value twin → SameEnd fault near (.ok value) (.ok twin)

namespace SameEnd

variable {ε δ α β γ κ : Type} {fault : ε → δ → Prop} {near : α → β → Prop} {next : γ → κ → Prop}
  {first : Except ε α} {second : Except δ β}

/-- Two computations that end in the same way go on in the same way, when what follows does so for
all values that are related. -/
theorem bind (h : SameEnd fault near first second) {rest : α → Except ε γ} {others : β → Except δ κ}
    (hrest : ∀ value twin, near value twin → SameEnd fault next (rest value) (others twin)) :
    SameEnd fault next (first >>= rest) (second >>= others) := by
  cases h with
  | error hfault => exact .error hfault
  | ok hnear => exact hrest _ _ hnear

/-- A computation ends in the same way as itself. -/
theorem refl {fault : ε → ε → Prop} {near : α → α → Prop} (hfault : ∀ error, fault error error)
    (hnear : ∀ value, near value value) (result : Except ε α) :
    SameEnd fault near result result := by
  cases result with
  | error error => exact .error (hfault error)
  | ok value => exact .ok (hnear value)

/-- Computations that end in the same way with nothing less than equality are the same. -/
theorem eq {first second : Except ε α} (h : SameEnd Eq Eq first second) : first = second := by
  cases h with
  | error hfault => exact congrArg Except.error hfault
  | ok hvalue => exact congrArg Except.ok hvalue

end SameEnd

end PenScript
