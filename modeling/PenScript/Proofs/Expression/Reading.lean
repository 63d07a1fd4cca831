import PenScript.Proofs.Error.Result
import PenScript.Proofs.Expression.Parts
import PenScript.Proofs.Scope.Lookup
import PenScript.Proofs.Token.Names

/-!
# The variables that an expression reads

An expression reads those variables only whose names stand in it as whole words. So it is evaluated
alike in two scopes that have near values for these variables, for every nearness that the operators
do not see (`Expression.formula_near`): the functions of the grammar keep to the names among the
tokens, on any fuel (`Arithmetic.reads_near`), names among tokens stand in the text that was
scanned, and the parts that an expression is cut into stand in the expression.

With equality for nearness this is a frame property: a variable whose name does not stand in an
expression can be set to anything (`Expression.evaluate_insert`).
-/

namespace PenScript

open Text

/-- No operator tells near values apart. -/
structure Value.Indistinct (near : Value → Value → Prop) : Prop where
  refl (value : Value) : near value value
  apply_eq {left value right twin : Value} (hleft : near left value) (hright : near right twin)
    (operator : ArithmeticOperator) : operator.apply left right = operator.apply value twin
  negate_eq {value twin : Value} (h : near value twin) :
    Arithmetic.negate value = Arithmetic.negate twin
  to_number_eq {value twin : Value} (h : near value twin) : value.toNumber = twin.toNumber
  truth_eq {value twin : Value} (h : near value twin) :
    Expression.truth value = Expression.truth twin
  compare_eq {left value right twin : Value} (hleft : near left value) (hright : near right twin)
    (comparison : Comparison) : comparison.apply left right = comparison.apply value twin

/-- Equal values are not told apart. -/
theorem Value.Indistinct.eq : Indistinct Eq where
  refl _ := rfl
  apply_eq := by
    rintro left _ right _ rfl rfl operator
    rfl
  negate_eq := congrArg _
  to_number_eq := congrArg _
  truth_eq := congrArg _
  compare_eq := by
    rintro left _ right _ rfl rfl comparison
    rfl

variable {near : Value → Value → Prop} {scope after : Scope}

/-- The variables that stand in the text are set in both scopes or in neither, to near values. -/
def Scope.NearOn (near : Value → Value → Prop) (scope after : Scope) (text : Text) : Prop :=
  ∀ name, StandsIn name text → Option.Rel near (scope.get? name) (after.get? name)

/-- Scopes that are near on a text are near on each part that stands in it. -/
theorem Scope.NearOn.part {part whole : Text} (h : NearOn near scope after whole)
    (hpart : StandsIn part whole) : NearOn near scope after part :=
  fun name hname ↦ h name (hname.trans hpart)

/-! ### Arithmetic -/

namespace Arithmetic

/-- The variables among the tokens are set in both scopes or in neither, to near values. -/
def NearAt (near : Value → Value → Prop) (scope after : Scope) (tokens : List Token) : Prop :=
  ∀ name, .name name ∈ tokens → Option.Rel near (scope.get? name) (after.get? name)

variable {token : Token} {tokens : List Token}

theorem NearAt.rest (h : NearAt near scope after (token :: tokens)) :
    NearAt near scope after tokens :=
  fun name hname ↦ h name (List.mem_cons_of_mem token hname)

/-- Two readings fail alike, or read near values and leave the same tokens, whose variables are near
as well. -/
abbrev ReadNear (near : Value → Value → Prop) (scope after : Scope) : Reading → Reading → Prop :=
  SameEnd Eq fun first second ↦
    near first.1 second.1 ∧ first.2 = second.2 ∧ NearAt near scope after first.2

/-- Every rule of the grammar reads near in two scopes, on the given fuel. -/
structure ReadsNear (near : Value → Value → Prop) (scope after : Scope) (fuel : Nat) : Prop where
  sum : ∀ tokens, NearAt near scope after tokens →
    ReadNear near scope after (sum scope fuel tokens) (sum after fuel tokens)
  sumTail : ∀ value twin tokens, near value twin → NearAt near scope after tokens →
    ReadNear near scope after (sumTail scope fuel value tokens) (sumTail after fuel twin tokens)
  product : ∀ tokens, NearAt near scope after tokens →
    ReadNear near scope after (product scope fuel tokens) (product after fuel tokens)
  productTail : ∀ value twin tokens, near value twin → NearAt near scope after tokens →
    ReadNear near scope after (productTail scope fuel value tokens)
      (productTail after fuel twin tokens)
  factor : ∀ tokens, NearAt near scope after tokens →
    ReadNear near scope after (factor scope fuel tokens) (factor after fuel tokens)
  atom : ∀ tokens, NearAt near scope after tokens →
    ReadNear near scope after (atom scope fuel tokens) (atom after fuel tokens)

/-- Two readings with near values go on alike. -/
theorem ReadNear.bind {first second : Reading} {rest others : Value × List Token → Reading}
    (h : ReadNear near scope after first second)
    (hrest : ∀ value twin tokens, near value twin → NearAt near scope after tokens →
      ReadNear near scope after (rest (value, tokens)) (others (twin, tokens))) :
    ReadNear near scope after (first >>= rest) (second >>= others) := by
  refine SameEnd.bind h ?_
  rintro ⟨value, tokens⟩ ⟨twin, _⟩ ⟨hvalue, rfl, htokens⟩
  exact hrest value twin tokens hvalue htokens

/-- What is computed from near values is the same, and the readings go on alike. -/
theorem ReadNear.computed {first second : Except Fault Value} {rest others : Value → Reading}
    (heq : first = second)
    (hrest : ∀ value, ReadNear near scope after (rest value) (others value)) :
    ReadNear near scope after (first >>= rest) (second >>= others) := by
  subst heq
  cases first with
  | error fault => exact .error rfl
  | ok value => exact hrest value

/-- Every rule of the grammar reads near in two scopes, as long as the tokens name variables only
that are near. -/
theorem reads_near (hnear : Value.Indistinct near) (fuel : Nat) :
    ReadsNear near scope after fuel := by
  induction fuel with
  | zero =>
      constructor
      all_goals intros
      all_goals
        first
        | rw [Arithmetic.sum, Arithmetic.sum] | rw [Arithmetic.sumTail, Arithmetic.sumTail]
        | rw [Arithmetic.product, Arithmetic.product]
        | rw [Arithmetic.productTail, Arithmetic.productTail]
        | rw [Arithmetic.factor, Arithmetic.factor] | rw [Arithmetic.atom, Arithmetic.atom]
        exact .error rfl
  | succ fuel ih =>
      constructor
      case sum =>
        intro tokens htokens
        rw [Arithmetic.sum, Arithmetic.sum]
        exact (ih.product tokens htokens).bind fun value twin rest ↦ ih.sumTail value twin rest
      case product =>
        intro tokens htokens
        rw [Arithmetic.product, Arithmetic.product]
        exact (ih.factor tokens htokens).bind
          fun value twin rest ↦ ih.productTail value twin rest
      case sumTail =>
        intro value twin tokens hvalue htokens
        cases tokens with
        | nil =>
            rw [Arithmetic.sumTail, Arithmetic.sumTail]
            exact .ok ⟨hvalue, rfl, htokens⟩
        | cons token rest =>
            rw [Arithmetic.sumTail, Arithmetic.sumTail]
            split
            · exact .ok ⟨hvalue, rfl, htokens⟩
            · rename_i operator _
              refine (ih.product rest htokens.rest).bind fun right other tokens hright hothers ↦ ?_
              exact .computed (hnear.apply_eq hvalue hright operator) fun result ↦
                ih.sumTail result result tokens (hnear.refl result) hothers
      case productTail =>
        intro value twin tokens hvalue htokens
        cases tokens with
        | nil =>
            rw [Arithmetic.productTail, Arithmetic.productTail]
            exact .ok ⟨hvalue, rfl, htokens⟩
        | cons token rest =>
            rw [Arithmetic.productTail, Arithmetic.productTail]
            split
            · exact .ok ⟨hvalue, rfl, htokens⟩
            · rename_i operator _
              refine (ih.factor rest htokens.rest).bind fun right other tokens hright hothers ↦ ?_
              exact .computed (hnear.apply_eq hvalue hright operator) fun result ↦
                ih.productTail result result tokens (hnear.refl result) hothers
      case factor =>
        intro tokens htokens
        cases tokens with
        | nil => exact ih.atom [] htokens
        | cons token rest =>
            cases token with
            | minus =>
                refine (ih.factor rest htokens.rest).bind fun value twin tokens hvalue hothers ↦ ?_
                exact .computed (hnear.negate_eq hvalue) fun result ↦
                  .ok ⟨hnear.refl result, rfl, hothers⟩
            | plus =>
                refine (ih.factor rest htokens.rest).bind fun value twin tokens hvalue hothers ↦ ?_
                exact .computed (congrArg _ (hnear.to_number_eq hvalue)) fun result ↦
                  .ok ⟨hnear.refl result, rfl, hothers⟩
            | _ => exact ih.atom _ htokens
      case atom =>
        intro tokens htokens
        cases tokens with
        | nil => exact .error rfl
        | cons token rest =>
            cases token with
            | integer number | real number | boolean truth =>
                exact .ok ⟨hnear.refl _, rfl, htokens.rest⟩
            | name name =>
                -- The only rule that looks into the scopes.
                have hname := htokens name List.mem_cons_self
                rw [Arithmetic.atom, Arithmetic.atom]
                generalize scope.get? name = found, after.get? name = other at hname
                cases hname with
                | none => exact .error rfl
                | some hvalue => exact .ok ⟨hvalue, rfl, htokens.rest⟩
            | leftParen =>
                refine (ih.sum rest htokens.rest).bind fun value twin tokens hvalue hothers ↦ ?_
                dsimp only
                split
                · exact .ok ⟨hvalue, rfl, hothers.rest⟩
                · exact .error rfl
            | _ => exact .error rfl

/-- The value of an arithmetic expression depends on the variables that stand in it. -/
theorem evaluate_near (hnear : Value.Indistinct near) {text : Text}
    (h : scope.NearOn near after text) :
    SameEnd Eq near (evaluate scope text) (evaluate after text) := by
  unfold evaluate
  cases hscan : Token.scan (Text.trim text) with
  | error obstacle => exact .error rfl
  | ok tokens =>
      have htokens : NearAt near scope after tokens := fun name hname ↦
        h name ((Token.name_stands hscan hname).trans (.trim text))
      show SameEnd Eq near (ofTokens scope tokens) (ofTokens after tokens)
      unfold ofTokens
      split
      · exact .error rfl
      · refine SameEnd.bind ((reads_near hnear _).sum tokens htokens) ?_
        rintro ⟨value, rest⟩ ⟨twin, _⟩ ⟨hvalue, rfl, -⟩
        cases rest with
        | nil => exact .ok hvalue
        | cons token rest => exact .error rfl

end Arithmetic

/-! ### Formulas -/

namespace Expression

variable {text : Text}

/-- The value of a comparison depends on the variables that stand in it. -/
theorem comparison_near (hnear : Value.Indistinct near) (h : scope.NearOn near after text) :
    SameEnd Eq near (comparison scope text) (comparison after text) := by
  unfold comparison
  split
  · exact Arithmetic.evaluate_near hnear h
  · rename_i left operator right hfound
    obtain ⟨hleft, hright⟩ := Nesting.sides_stand Comparison.front_parts hfound
    refine SameEnd.bind (Arithmetic.evaluate_near hnear (h.part hleft)) fun a b hfirst ↦ ?_
    refine SameEnd.bind (Arithmetic.evaluate_near hnear (h.part hright)) fun c d hsecond ↦ ?_
    rw [hnear.compare_eq hfirst hsecond]
    cases operator.apply b d with
    | error fault => exact .error rfl
    | ok result => exact .ok (hnear.refl _)

/-- A part of a formula that is read as a truth value is one in both scopes, the same. -/
theorem truth_near (hnear : Value.Indistinct near) {first second : Except Fault Value}
    (h : SameEnd Eq near first second) : first.bind truth = second.bind truth := by
  cases h with
  | error hfault => exact congrArg Except.error hfault
  | ok hvalue => exact hnear.truth_eq hvalue

/-- The value of a formula depends on the variables that stand in it. -/
theorem formula_near (hnear : Value.Indistinct near) (h : scope.NearOn near after text) :
    SameEnd Eq near (formula scope text) (formula after text) := by
  fun_induction formula scope text with
  | case1 text hempty =>
      rw [formula_eq, if_pos hempty]
      exact .error rfl
  | case2 text hsome left connective right hfound _ ihleft ihright =>
      obtain ⟨hleft, hright⟩ := Nesting.sides_stand Connective.front_parts hfound
      have hcore := h.part (core_stands text)
      rw [formula_eq after, if_neg hsome, hfound]
      simp only [truth_near hnear (ihleft (hcore.part hleft)),
        truth_near hnear (ihright (hcore.part hright))]
      exact .refl (fun _ ↦ rfl) hnear.refl _
  | case3 text hsome hfound rest hnegated _ ih =>
      have hrest := (h.part (core_stands text)).part (negated_stands hnegated)
      rw [formula_eq after, if_neg hsome, hfound]
      simp only [hnegated, truth_near hnear (ih hrest)]
      exact .refl (fun _ ↦ rfl) hnear.refl _
  | case4 text hsome hfound hnegated =>
      rw [formula_eq after, if_neg hsome, hfound]
      simp only [hnegated]
      exact comparison_near hnear (h.part (core_stands text))

/-! ### Expressions -/

/-- The value of a formula is the same in scopes that agree on the variables that stand in it. -/
theorem formula_agree (h : scope.NearOn Eq after text) : formula scope text = formula after text :=
  (formula_near .eq h).eq

/-- An operand of a concatenation has the same value in scopes that agree on the variables that
stand in it. -/
theorem segment_agree (h : scope.NearOn Eq after text) :
    segment scope text = segment after text := by
  unfold segment
  simp only [formula_agree (h.part (.trim text))]

/-- A concatenation has the same value in scopes that agree on the variables that stand in it. -/
theorem concatenation_agree (h : scope.NearOn Eq after text) :
    concatenation scope text = concatenation after text := by
  have hparts : ∀ part ∈ splitOutside '+' text, segment scope part = segment after part :=
    fun part hpart ↦ segment_agree (h.part (part_stands (by decide) hpart))
  rw [concatenation, concatenation, mapM_congr hparts]

/-- An expression has the same value in scopes that agree on the variables that stand in it. -/
theorem value_agree (h : scope.NearOn Eq after text) : value scope text = value after text := by
  unfold value
  rw [concatenation_agree (h.part (core_stands text)), formula_agree h]

/-- Variables are read as whole words: to set a variable whose name does not stand in an expression
changes neither its value nor its truth value, nor the failure when there is one. -/
theorem evaluate_insert {name : Text} (h : ¬ StandsIn name text) (scope : Scope) (found : Value) :
    evaluate (scope.insert name found) text = evaluate scope text ∧
      condition (scope.insert name found) text = condition scope text := by
  have hagree : Scope.NearOn Eq (scope.insert name found) scope text := by
    intro other hother
    have hdifferent : other ≠ name := by
      rintro rfl
      exact h hother
    rw [NameMap.get_insert, if_neg hdifferent]
    cases scope.get? other with
    | none => exact .none
    | some value => exact .some rfl
  rw [evaluate, condition, value_agree hagree]
  exact ⟨rfl, rfl⟩

/-- A name inside longer names is not read, also where one of them follows a numeral. -/
theorem evaluate_insert_inside_names :
    ¬ StandsIn "x".toList "(2max - x_1) * 1ex".toList ∧
      evaluate (NameMap.insert NameMap.empty "x".toList (.integer 1))
          "(2max - x_1) * 1ex".toList =
        evaluate NameMap.empty "(2max - x_1) * 1ex".toList ∧
      condition (NameMap.insert NameMap.empty "x".toList (.integer 1))
          "(2max - x_1) * 1ex".toList =
        condition NameMap.empty "(2max - x_1) * 1ex".toList :=
  have habsent : ¬ StandsIn "x".toList "(2max - x_1) * 1ex".toList := by decide
  ⟨habsent, evaluate_insert habsent NameMap.empty (.integer 1)⟩

end Expression

end PenScript
