import PenScript.Proofs.Arguments.Words
import PenScript.Proofs.Command.Action
import PenScript.Proofs.Expression.Contents
import PenScript.Proofs.Program.Spelling
import PenScript.Proofs.Value.Places

/-!
# Stores and loads of elements

A load gives back what a store put in, and a store moves nothing else. Of the elements this is known
by their places (`element_stored`, `element_kept`). It remains that the two lines speak of the same
ones. They find the same index texts, although the store looks for the equals sign behind the
indices and the load for the one before the name (`Command.store_parts`, `Command.load_iff`). And
the index texts have the same values after the store as before it, because what was stored into is
an array (`Scope.Indexed.insert`). Together this is `load_after_store`.
-/

namespace PenScript

open Text

/-! ### The texts of a store and of a load -/

section Texts

variable {scope : Scope} {name target index value text : Text} {effect : Effect}

namespace Arguments

/-- The equals sign that separates two sides is the first one outside quotes and parentheses, when
it does not stand next to a character that makes it a comparison. -/
theorem assignment_from_append {previous : Option Char} {nesting : Nesting} {left right : Text}
    (hleft : Nesting.Encloses (· == '=') nesting left)
    (hfree : (nesting.after left).isFree '=' = true)
    (hplain : isComparing (left.getLast?.or previous) right.head? = false) :
    assignmentFrom previous nesting (left ++ '=' :: right) = some (left, right) := by
  induction left generalizing previous nesting with
  | nil =>
      rw [List.getLast?_nil, Option.none_or] at hplain
      rw [List.nil_append, assignmentFrom, if_pos]
      rw [Bool.and_eq_true, Bool.and_eq_true, hplain]
      exact ⟨⟨hfree, rfl⟩, rfl⟩
  | cons c left ih =>
      obtain ⟨hfirst, hrest⟩ := Nesting.encloses_cons.mp hleft
      have hnone : ¬ (nesting.isFree c && c == '=' &&
          !isComparing previous (left ++ '=' :: right).head?) = true := by
        rw [Bool.and_eq_true, Bool.and_eq_true]
        exact fun h ↦ Bool.noConfusion (h.1.1.symm.trans (hfirst h.1.2))
      have hlast : (c :: left).getLast?.or previous = left.getLast?.or (some c) := by
        rw [List.getLast?_cons]
        cases left.getLast? <;> rfl
      rw [List.cons_append, assignmentFrom, if_neg hnone, ih hrest hfree (hlast ▸ hplain)]
      rfl

/-- What is left of a blank ends with it, unless there is nothing left of it. -/
theorem last_of_blank (index : Text) : (trimStart (index ++ [' '])).getLast? = none ∨
    (trimStart (index ++ [' '])).getLast? = some ' ' := by
  obtain ⟨before, -, htext⟩ := exists_blanks_before (index ++ [' '])
  by_cases hnil : trimStart (index ++ [' ']) = []
  · exact .inl (by rw [hnil, List.getLast?_nil])
  · exact .inr (by rw [← List.getLast?_append_of_ne_nil before hnil, ← htext, List.getLast?_concat])

/-- What is right of a blank starts with it, unless there is nothing right of it. -/
theorem head_of_blank (value : Text) : (trimEnd (' ' :: value)).head? = none ∨
    (trimEnd (' ' :: value)).head? = some ' ' := by
  cases hright : trimEnd (' ' :: value) with
  | nil => exact .inl rfl
  | cons c rest =>
      obtain ⟨after, htext⟩ := trim_end_prefix (' ' :: value)
      rw [hright] at htext
      exact .inr (congrArg some (List.cons.inj htext).1)

/-- An index text and a value text are told apart by the equals sign between them. -/
theorem assignment_of_index (hbalanced : Text.Balanced index) (hencloses : Text.Encloses '=' index)
    (value : Text) :
    assignment? (trim (index ++ ' ' :: '=' :: ' ' :: value)) = some (trim index, trim value) := by
  have hblank : Blank [' '] := by decide
  have hsplit : trim (index ++ ' ' :: '=' :: ' ' :: value) =
      trimStart (index ++ [' ']) ++ '=' :: trimEnd (' ' :: value) := by
    rw [← List.singleton_append, ← List.append_assoc, trim, trim_start_append_cons rfl,
      trim_end_append_cons rfl]
  have hleft : Nesting.Encloses (· == '=') Nesting.start (index ++ [' ']) :=
    Nesting.encloses_append.mpr ⟨hencloses, Nesting.encloses_iff.mpr (by rw [hbalanced]; rfl)⟩
  have hfree : (Nesting.start.after (trimStart (index ++ [' ']))).isFree '=' = true := by
    rw [Nesting.after_trim_start, Nesting.after_append, hbalanced, Nesting.after_blank hblank]
    rfl
  -- The sign has a blank on either side, or nothing: it is no part of a comparison.
  have hplain : isComparing ((trimStart (index ++ [' '])).getLast?.or none)
      (trimEnd (' ' :: value)).head? = false := by
    rcases last_of_blank index with h | h <;> rcases head_of_blank value with h' | h' <;>
      rw [h, h'] <;> rfl
  have hindex : trim (trimStart (index ++ [' '])) = trim index :=
    (trim_trim_start _).trans (trim_append (List.forall_mem_nil _) hblank index)
  have hvalue : trim (trimEnd (' ' :: value)) = trim value :=
    (trim_trim_end _).trans (trim_cons_blank value)
  rw [assignment?, hsplit, assignment_from_append (Nesting.encloses_trim_start hleft) hfree hplain,
    Option.map_some]
  dsimp only
  rw [hindex, hvalue]

end Arguments

/-- In the scope the name is that of an array, and the index text has as many indices as it takes,
with these values. -/
structure Scope.Indexed (scope : Scope) (name index : Text) (array : Value)
    (indices : List Value) : Prop where
  held : scope.get? name = some array
  rank : array.rank? = some (Arguments.list index).length
  values : (Arguments.list index).mapM (Expression.evaluate scope) = .ok indices

namespace Command

/-- An array takes exactly as many indices as its rank says. -/
theorem check_rank_iff {array : Value} {given : Nat} :
    array.checkRank name given = .ok () ↔ array.rank? = some given := by
  refine ⟨check_rank_ok, fun h ↦ ?_⟩
  rw [Value.checkRank, h]
  exact if_pos rfl

/-- What a store with an equals sign does when it succeeds. -/
theorem store_parts (hname : isIdentifier name = true) (hbalanced : Text.Balanced index)
    (hencloses : Text.Encloses '=' index)
    (h : store scope (trim (name ++ ' ' :: (index ++ ' ' :: '=' :: ' ' :: value))) = .ok effect) :
    ∃ array indices number updated, scope.Indexed name index array indices ∧
      Expression.evaluate scope value = .ok number ∧
      array.setElement name indices number = .ok updated ∧ effect = .bind name updated := by
  obtain ⟨hword, hsome⟩ := word_of_identifier hname
  obtain ⟨found, hfound, h⟩ := ok_of_bind h
  rw [Line.split_word_congr (trim_trim _), Line.split_word_blank hword hsome] at hfound h
  rw [Arguments.identifier, if_pos hname] at hfound
  obtain rfl := Except.ok.inj hfound
  obtain ⟨array, harray, h⟩ := ok_of_bind h
  rw [storeParts, Arguments.assignment_of_index hbalanced hencloses] at h
  simp only [Arguments.list_trim, Expression.evaluate_trim] at h
  obtain ⟨-, h⟩ := ok_of_refused h
  obtain ⟨_, hrank, h⟩ := ok_of_bind h
  obtain ⟨indices, hindices, h⟩ := ok_of_bind h
  obtain ⟨number, hnumber, h⟩ := ok_of_bind h
  obtain ⟨updated, hupdated, h⟩ := ok_of_bind h
  exact ⟨array, indices, number, updated, ⟨variable_ok harray, check_rank_ok hrank, hindices⟩,
    hnumber, hupdated, (Except.ok.inj h).symm⟩

/-- A load with an equals sign succeeds when the index text leads to an element, and then gives it
to the target. -/
theorem load_iff (htarget : isIdentifier target = true) (hname : isIdentifier name = true) :
    load scope (trim (target ++ ' ' :: '=' :: ' ' :: (name ++ ' ' :: index))) = .ok effect ↔
      ∃ array indices found, scope.Indexed name index array indices ∧
        array.element name indices = .ok found ∧ effect = .bind target found := by
  obtain ⟨hword, hsome⟩ := word_of_identifier htarget
  obtain ⟨hletters, hnonempty⟩ := word_of_identifier hname
  have hequals : trim ('=' :: ' ' :: (name ++ ' ' :: index)) =
      '=' :: trimEnd (' ' :: (name ++ ' ' :: index)) := trim_end_append_cons rfl [] _
  have hblank : trim (trimEnd (' ' :: (name ++ ' ' :: index))) = trim (name ++ ' ' :: index) := by
    rw [trim_trim_end, trim_cons_blank]
  have hload : load scope (trim (target ++ ' ' :: '=' :: ' ' :: (name ++ ' ' :: index))) = (do
      let array ← variableOf scope name
      array.checkRank name (Arguments.list index).length
      let indices ← (Arguments.list index).mapM (Expression.evaluate scope)
      let found ← array.element name indices
      pure (.bind target found)) := by
    rw [load, Line.split_word_congr (trim_trim _), Line.split_word_blank hword hsome, hequals]
    simp only [Line.split_word_congr hblank, Line.split_word_blank hletters hnonempty,
      Arguments.identifier, if_pos htarget, if_pos hname, List.isEmpty_eq_false_iff.mpr hnonempty,
      Arguments.list_trim]
    rfl
  rw [hload]
  constructor
  · intro h
    obtain ⟨array, harray, h⟩ := ok_of_bind h
    obtain ⟨_, hrank, h⟩ := ok_of_bind h
    obtain ⟨indices, hindices, h⟩ := ok_of_bind h
    obtain ⟨found, hfound, h⟩ := ok_of_bind h
    exact ⟨array, indices, found, ⟨variable_ok harray, check_rank_ok hrank, hindices⟩, hfound,
      (Except.ok.inj h).symm⟩
  · rintro ⟨array, indices, found, hindexed, hfound, rfl⟩
    rw [variableOf, hindexed.held]
    simp only [check_rank_iff.mpr hindexed.rank, hindexed.values, hfound, bind, Except.bind]
    rfl

end Command

end Texts

/-! ### After a store -/

section Afterwards

variable {scope after : Scope} {array updated value : Value} {name other index target : Text}
  {indices : List Value}

/-- A store makes an array of the same type that takes as many indices. -/
theorem set_element_alike (h : array.setElement name indices value = .ok updated) :
    array.Alike updated ∧ updated.rank? = array.rank? := by
  cases array with
  | integer | real | boolean | string => cases h
  | integerArray | realArray | integerMatrix | realMatrix =>
      obtain ⟨number, -, h⟩ := ok_of_bind h
      obtain ⟨place, -, h⟩ := ok_of_bind h
      obtain rfl := Except.ok.inj h
      exact ⟨.arrays rfl rfl rfl, rfl⟩

/-- A scope is alike to the one in which a variable has a value that is alike to the one it had. -/
theorem Scope.Alike.insert (hheld : scope.get? name = some array) (halike : array.Alike updated) :
    scope.Alike (scope.insert name updated) := by
  intro other
  rw [NameMap.get_insert]
  split
  · rename_i hname
    rw [hname, hheld]
    exact .some halike
  · cases scope.get? other with
    | none => exact .none
    | some value => exact .some (.same value)

/-- Expressions with numbers as values have them in every scope that is alike. -/
theorem Expression.evaluate_numbers_alike (hscope : scope.Alike after) {texts : List Text}
    {numbers : List Value} (h : texts.mapM (evaluate scope) = .ok numbers)
    (hnumbers : ∀ number ∈ numbers, number.isNumber = true) :
    texts.mapM (evaluate after) = .ok numbers := by
  induction texts generalizing numbers with
  | nil =>
      rw [List.mapM_nil] at h ⊢
      exact h
  | cons text rest ih =>
      rw [List.mapM_cons] at h ⊢
      obtain ⟨first, hfirst, h⟩ := ok_of_bind h
      obtain ⟨others, hothers, h⟩ := ok_of_bind h
      obtain rfl := Except.ok.inj h
      obtain ⟨hnumber, hrest⟩ := List.forall_mem_cons.mp hnumbers
      rw [evaluate_number_alike hscope hfirst hnumber, ih hothers hrest]
      rfl

/-- Indices that denote an element denote numbers. -/
theorem numbers_of_element (h : array.element name indices = .ok value) :
    ∃ numbers, indexNumbers indices = .ok numbers := by
  obtain ⟨place, hplace, -⟩ := element_ok h
  obtain ⟨numbers, hnumbers, -⟩ := place_injective hplace hplace
  exact ⟨numbers, hnumbers⟩

/-- An index text leads into an array after a store as it did before. -/
theorem Scope.Indexed.insert (h : scope.Indexed name index array indices)
    (hnumbers : ∃ numbers, indexNumbers indices = .ok numbers) {others : List Value}
    (hstore : array.setElement name others value = .ok updated) :
    Scope.Indexed (scope.insert name updated) name index updated indices := by
  obtain ⟨numbers, hnumbers⟩ := hnumbers
  obtain ⟨halike, hrank⟩ := set_element_alike hstore
  refine ⟨?_, hrank.trans h.rank, ?_⟩
  · rw [NameMap.get_insert, if_pos rfl]
  · exact Expression.evaluate_numbers_alike (.insert h.held halike) h.values
      (number_of_index hnumbers)

end Afterwards

/-! ### Lines that store and load -/

/-- The line `poke array index = value`. -/
def storeLine (array index value : Text) : Text :=
  Command.poke.keyword ++ ' ' :: (array ++ ' ' :: (index ++ ' ' :: '=' :: ' ' :: value))

/-- The line `peek target = array index`. -/
def loadLine (target array index : Text) : Text :=
  Command.peek.keyword ++ ' ' :: (target ++ ' ' :: '=' :: ' ' :: (array ++ ' ' :: index))

/-- The numbers that an index text denotes. -/
def denotedIndices (scope : Scope) (index : Text) : Except Error (List Int64) := do
  let indices ← (Arguments.list index).mapM (Expression.evaluate scope)
  indexNumbers indices

section Lines

variable {scope : Scope} {array target index value : Text} {interpreter : Interpreter}
  {fuel : Nat} {outcome : Outcome}

/-- A line that stores is a store. -/
theorem store_line (harray : isIdentifier array = true) :
    Registry.standard.statement scope (storeLine array index value) =
      Command.store scope (trim (array ++ ' ' :: (index ++ ' ' :: '=' :: ' ' :: value))) := by
  have hfind : Registry.standard.find? Command.poke.keyword = some .poke := by decide
  rw [storeLine, Line.statement_keyword harray, Registry.dispatch, hfind]
  exact congrArg (Command.store scope) (trim_trim _)

/-- A line that loads is a load. -/
theorem load_line (htarget : isIdentifier target = true) :
    Registry.standard.statement scope (loadLine target array index) =
      Command.load scope (trim (target ++ ' ' :: '=' :: ' ' :: (array ++ ' ' :: index))) := by
  have hfind : Registry.standard.find? Command.peek.keyword = some .peek := by decide
  rw [loadLine, Line.statement_keyword htarget, Registry.dispatch, hfind]
  exact congrArg (Command.load scope) (trim_trim _)

/-- A load succeeds when the index text leads to an element, and then gives it to the target. -/
theorem perform_load (htarget : isIdentifier target = true) (harray : isIdentifier array = true) :
    interpreter.perform fuel scope
        (Registry.standard.statement scope (loadLine target array index)) = some outcome ∧
      outcome.result = .ok () ↔
    ∃ held indices found, scope.Indexed array index held indices ∧
      held.element array indices = .ok found ∧
      outcome = ⟨.ok (), scope.insert target found, interpreter⟩ := by
  rw [load_line htarget]
  constructor
  · rintro ⟨h, hok⟩
    obtain ⟨name, found, hload, rfl⟩ := Interpreter.perform_bind h hok fun effect heffect ↦ by
      obtain ⟨held, indices, found, -, -, heq⟩ := (Command.load_iff htarget harray).mp heffect
      exact ⟨target, found, heq⟩
    obtain ⟨held, indices, element, hindexed, helement, heffect⟩ :=
      (Command.load_iff htarget harray).mp hload
    obtain ⟨rfl, rfl⟩ := Effect.bind.inj heffect
    exact ⟨held, indices, found, hindexed, helement, rfl⟩
  · rintro ⟨held, indices, found, hindexed, helement, rfl⟩
    rw [(Command.load_iff htarget harray).mpr ⟨held, indices, found, hindexed, helement, rfl⟩]
    exact ⟨rfl, rfl⟩

/-- A line that stores and succeeds has stored what the array keeps of the value. -/
theorem perform_store (harray : isIdentifier array = true) (hbalanced : Text.Balanced index)
    (hencloses : Text.Encloses '=' index)
    (h : interpreter.perform fuel scope
      (Registry.standard.statement scope (storeLine array index value)) = some outcome)
    (hok : outcome.result = .ok ()) :
    ∃ held indices number updated, scope.Indexed array index held indices ∧
      Expression.evaluate scope value = .ok number ∧
      held.setElement array indices number = .ok updated ∧
      outcome = ⟨.ok (), scope.insert array updated, interpreter⟩ := by
  rw [store_line harray] at h
  obtain ⟨name, updated, hstore, rfl⟩ := Interpreter.perform_bind h hok fun effect heffect ↦
    (Command.store_element heffect).imp fun _ h ↦ h.imp fun _ h ↦ h.1
  obtain ⟨held, indices, number, stored, hindexed, hnumber, hset, heffect⟩ :=
    Command.store_parts harray hbalanced hencloses hstore
  obtain ⟨rfl, rfl⟩ := Effect.bind.inj heffect
  exact ⟨held, indices, number, updated, hindexed, hnumber, hset, rfl⟩

end Lines

/-- Let a line store a value into an element of an array and succeed, and let the index text have
its quotes and parentheses balanced and no equals sign outside them. Then loading the element into
any variable succeeds afterwards and gives what the array keeps of the value: the integer itself, or
the number as a real one. And a load from the array that would have succeeded before succeeds
afterwards with the same element, when its index text denoted other numbers than that of the
store. -/
theorem load_after_store (interpreter : Interpreter) (fuel : Nat) (scope : Scope)
    (array index value target : Text) (stored : Outcome) (harray : Text.isIdentifier array = true)
    (htarget : Text.isIdentifier target = true) (hbalanced : Text.Balanced index)
    (hencloses : Text.Encloses '=' index)
    (hstore : interpreter.perform fuel scope
      (Registry.standard.statement scope (storeLine array index value)) = some stored)
    (hok : stored.result = .ok ()) :
    (∃ held number kept, scope.get? array = some held ∧
      Expression.evaluate scope value = .ok number ∧ held.kept? number = some kept ∧
      stored.interpreter.perform fuel stored.scope
          (Registry.standard.statement stored.scope (loadLine target array index)) =
        some ⟨.ok (), stored.scope.insert target kept, stored.interpreter⟩) ∧
    ∀ other loaded, interpreter.perform fuel scope
          (Registry.standard.statement scope (loadLine target array other)) = some loaded →
      loaded.result = .ok () → denotedIndices scope other ≠ denotedIndices scope index →
      ∃ found, loaded.scope = scope.insert target found ∧
        stored.interpreter.perform fuel stored.scope
            (Registry.standard.statement stored.scope (loadLine target array other)) =
          some ⟨.ok (), stored.scope.insert target found, stored.interpreter⟩ := by
  obtain ⟨held, indices, number, updated, hindexed, hnumber, hset, rfl⟩ :=
    perform_store harray hbalanced hencloses hstore hok
  obtain ⟨place, -, hplace, -⟩ := set_element_kept hset
  obtain ⟨numbers, hnumbers, -⟩ := place_injective hplace hplace
  constructor
  · obtain ⟨kept, hkept, helement⟩ := element_stored hset
    refine ⟨held, number, kept, hindexed.held, hnumber, hkept, ?_⟩
    exact ((perform_load htarget harray).mpr
      ⟨updated, indices, kept, hindexed.insert ⟨numbers, hnumbers⟩ hset, helement, rfl⟩).1
  · intro other loaded hload hloaded hother
    obtain ⟨same, others, found, hothers, hfound, rfl⟩ :=
      (perform_load htarget harray).mp ⟨hload, hloaded⟩
    obtain rfl := Option.some.inj (hindexed.held.symm.trans hothers.held)
    have hne : indexNumbers others ≠ indexNumbers indices := by
      unfold denotedIndices at hother
      rwa [hothers.values, hindexed.values] at hother
    refine ⟨found, rfl, ?_⟩
    exact ((perform_load htarget harray).mpr
      ⟨updated, others, found, hothers.insert (numbers_of_element hfound) hset,
        element_kept hset hfound hne, rfl⟩).1

/-- A store into a cell of a matrix, and a load of this cell and of one in another row. -/
theorem load_after_store_matrix : ∃ (scope : Scope) (stored loaded : Outcome),
    (Interpreter.new {} .standard).perform 0 scope (Registry.standard.statement scope
      (storeLine "a".toList "k (6 - 4)".toList "k * 7".toList)) = some stored ∧
    stored.result = .ok () ∧
    (Interpreter.new {} .standard).perform 0 scope (Registry.standard.statement scope
      (loadLine "x".toList "a".toList "0, k + 1".toList)) = some loaded ∧
    loaded.result = .ok () ∧
    stored.interpreter.perform 0 stored.scope (Registry.standard.statement stored.scope
        (loadLine "x".toList "a".toList "k (6 - 4)".toList)) =
      some ⟨.ok (), stored.scope.insert "x".toList (.integer 7), stored.interpreter⟩ ∧
    ∃ found, loaded.scope = scope.insert "x".toList found ∧
      stored.interpreter.perform 0 stored.scope (Registry.standard.statement stored.scope
          (loadLine "x".toList "a".toList "0, k + 1".toList)) =
        some ⟨.ok (), stored.scope.insert "x".toList found, stored.interpreter⟩ := by
  let scope : Scope := (NameMap.empty.insert "k".toList (.integer 1)).insert "a".toList
    (.integerMatrix (.constant 2 3 0))
  let perform (line : Text) := (Interpreter.new {} .standard).perform 0 scope
    (Registry.standard.statement scope line)
  have hstores : (perform (storeLine "a".toList "k (6 - 4)".toList "k * 7".toList)).map
      (·.result.isOk) = some true := by decide +kernel
  have hloads : (perform (loadLine "x".toList "a".toList "0, k + 1".toList)).map
      (·.result.isOk) = some true := by decide +kernel
  obtain ⟨stored, hstored, hstore⟩ := Option.map_eq_some_iff.mp hstores
  obtain ⟨loaded, hloaded, hload⟩ := Option.map_eq_some_iff.mp hloads
  have hstore := eq_ok_of_is_ok hstore
  have hload := eq_ok_of_is_ok hload
  obtain ⟨⟨held, number, kept, hheld, hnumber, hkept, hsame⟩, hothers⟩ := load_after_store
    (.new {} .standard) 0 scope "a".toList "k (6 - 4)".toList "k * 7".toList "x".toList stored
    (by decide) (by decide) (by decide) (by decide) hstored hstore
  have hseven : (Expression.evaluate scope "k * 7".toList).toOption.bind Value.integer? =
      some 7 := by decide +kernel
  rw [hnumber] at hseven
  obtain rfl := Option.some.inj (hheld : some (.integerMatrix (.constant 2 3 0)) = some held)
  change number.integer?.map Value.integer = some kept at hkept
  rw [show number.integer? = some 7 from hseven] at hkept
  obtain rfl := Option.some.inj hkept
  have hother : denotedIndices scope "0, k + 1".toList ≠ denotedIndices scope "k (6 - 4)".toList :=
    fun h ↦ absurd (congrArg Except.toOption h) (by decide +kernel)
  exact ⟨scope, stored, loaded, hstored, hstore, hloaded, hload, hsame,
    hothers _ loaded hloaded hload hother⟩

end PenScript
