import PenScript.Proofs.Expression.Arithmetic

/-!
# Texts of formulas

The structure of a logical expression and the texts it can be written as. `Written` is the grammar
of formulas: a connective has an operand on its left and a whole formula on its right, so all
connectives group to the right, and an operand is arithmetic, a comparison, a negated operand, or a
formula in parentheses. Where a text is cut depends on the characters outside its parentheses only,
and `Written.formula` follows the grammar cut by cut.
-/

namespace PenScript

open Text

/-- The text of a connective. -/
def Connective.text : Connective → Text
  | .conjunction => ['&', '&']
  | .disjunction => ['|', '|']

/-- The text of a comparison. -/
def Comparison.text : Comparison → Text
  | .lessOrEqual => ['<', '=']
  | .greaterOrEqual => ['>', '=']
  | .equal => ['=', '=']
  | .different => ['!', '=']
  | .less => ['<']
  | .greater => ['>']

open Expression

/-- The structure of a logical expression. -/
inductive Formula where
  | arithmetic (tree : Arithmetic.Tree)
  | comparison (operator : Comparison) (left right : Arithmetic.Tree)
  | negation (operand : Formula)
  | connective (operator : Connective) (left right : Formula)

namespace Formula

/-- The value of a formula. Both operands of a connective are evaluated, the left one first, and
each is read as a truth value. -/
def evaluate (scope : Scope) : Formula → Except Fault Value
  | .arithmetic tree => tree.evaluate scope
  | .comparison operator left right => do
      let a ← left.evaluate scope
      let b ← right.evaluate scope
      let result ← operator.apply a b
      pure (.boolean result)
  | .negation operand => do
      let a ← (operand.evaluate scope).bind truth
      pure (.boolean (!a))
  | .connective operator left right => do
      let a ← (left.evaluate scope).bind truth
      let b ← (right.evaluate scope).bind truth
      pure (.boolean (operator.apply a b))

/-- What a text is: an operand of a connective, or a formula. -/
inductive Grade where
  | operand
  | formula

/-- The characters that a text of this grade may have outside its parentheses. -/
def Grade.Free : Grade → Char → Prop
  | .operand, c => c ≠ '&' ∧ c ≠ '|'
  | .formula, _ => True

/-- The text is written for this formula, with any blanks between its parts. -/
inductive Written : Grade → Text → Formula → Prop where
  | arithmetic {text : Text} {tree : Arithmetic.Tree} (h : Arithmetic.Written text tree) :
      Written .operand text (.arithmetic tree)
  | comparison {left right : Text} {a b : Arithmetic.Tree} (operator : Comparison)
      (hleft : Arithmetic.Written left a) (hright : Arithmetic.Written right b) :
      Written .operand (left ++ operator.text ++ right) (.comparison operator a b)
  | negation {before text : Text} {formula : Formula} (hbefore : Blank before)
      (h : Written .operand text formula) :
      Written .operand (before ++ '!' :: text) (.negation formula)
  | parentheses {before text after : Text} {formula : Formula} (hbefore : Blank before)
      (hafter : Blank after) (h : Written .formula text formula) :
      Written .operand (before ++ '(' :: (text ++ ')' :: after)) formula
  | operand {text : Text} {formula : Formula} (h : Written .operand text formula) :
      Written .formula text formula
  | connective {left right : Text} {first second : Formula} (operator : Connective)
      (hleft : Written .operand left first) (hright : Written .formula right second) :
      Written .formula (left ++ operator.text ++ right) (.connective operator first second)

/-! ### The characters of a text -/

theorem comparison_chars (operator : Comparison) :
    ∀ c ∈ operator.text, Nesting.isMark c = false ∧ isBlank c = false ∧ c ≠ '&' ∧ c ≠ '|' := by
  cases operator <;> simp [Comparison.text, Nesting.isMark, isBlank]

theorem connective_chars (operator : Connective) :
    ∀ c ∈ operator.text, Nesting.isMark c = false ∧ isBlank c = false ∧ c ≠ '!' := by
  cases operator <;> simp [Connective.text, Nesting.isMark, isBlank]

variable {grade : Grade} {text left right : Text} {formula : Formula}

/-- A plain character may stand everywhere. -/
theorem Grade.free_of_plain (grade : Grade) {c : Char} (h : IsPlain c) : grade.Free c := by
  cases grade with
  | operand => exact ⟨h.1, h.2.1⟩
  | formula => trivial

/-- The text of a formula is sealed, and an operand has no connective outside its parentheses. -/
theorem Written.sealed (h : Written grade text formula) : Sealed grade.Free text := by
  induction h with
  | arithmetic h => exact h.sealed.mono fun c ↦ Grade.free_of_plain _
  | comparison operator hleft hright =>
      have hoperator : Sealed Grade.operand.Free operator.text := .of_forall fun c hc ↦
        ⟨(comparison_chars operator c hc).1, (comparison_chars operator c hc).2.2⟩
      exact ((hleft.sealed.mono fun c ↦ Grade.free_of_plain _).append hoperator).append
        (hright.sealed.mono fun c ↦ Grade.free_of_plain _)
  | negation hbefore _ ih =>
      exact ((Arithmetic.sealed_of_blank hbefore).mono fun c ↦ Grade.free_of_plain _).append
        (.char rfl ⟨by decide, by decide⟩ ih)
  | parentheses hbefore hafter _ ih =>
      exact ((Arithmetic.sealed_of_blank hbefore).mono fun c ↦ Grade.free_of_plain _).append
        (.parentheses ih
          ((Arithmetic.sealed_of_blank hafter).mono fun c ↦ Grade.free_of_plain _))
  | operand _ ih => exact ih.mono fun _ _ ↦ trivial
  | connective operator _ _ ihleft ihright =>
      have hoperator : Sealed Grade.formula.Free operator.text := .of_forall fun c hc ↦
        ⟨(connective_chars operator c hc).1, trivial⟩
      exact ((ihleft.mono fun _ _ ↦ trivial).append hoperator).append ihright

/-- What starts with blanks and goes on with a parenthesis or an exclamation mark does not start
with an equals sign. -/
theorem head_of_blanks {before rest : Text} {d : Char} (hbefore : Blank before) (hd : d ≠ '=') :
    (before ++ d :: rest).head? ≠ some '=' := by
  cases before with
  | nil => simpa using hd
  | cons c before =>
      intro h
      obtain rfl := Option.some.inj h
      have hblank := hbefore '=' List.mem_cons_self
      cases hblank

/-- An arithmetic expression starts with no operator. -/
theorem arithmetic_head {tree : Arithmetic.Tree} (h : Arithmetic.Written text tree) :
    ∃ c rest, text = c :: rest ∧ (c = '(' ∨ IsPlain c) := by
  cases text with
  | nil => exact absurd rfl h.ne_nil
  | cons c rest => exact ⟨c, rest, rfl, h.sealed.head⟩

/-- No operand starts with an equals sign. -/
theorem Written.head (h : Written grade text formula) (hgrade : grade = .operand) :
    text.head? ≠ some '=' := by
  have harithmetic : ∀ {text tree} (rest : Text), Arithmetic.Written text tree →
      (text ++ rest).head? ≠ some '=' := by
    intro text tree rest h
    obtain ⟨c, others, rfl, hc⟩ := arithmetic_head h
    intro hhead
    obtain rfl := Option.some.inj hhead
    rcases hc with hc | hc
    · cases hc
    · exact hc.2.2.2.2.2 rfl
  cases h with
  | arithmetic h => simpa using harithmetic [] h
  | comparison operator hleft hright =>
      rw [List.append_assoc]
      exact harithmetic _ hleft
  | negation hbefore _ => exact head_of_blanks hbefore (by decide)
  | parentheses hbefore _ _ => exact head_of_blanks hbefore (by decide)
  | operand | connective => cases hgrade

/-! ### The operator of a text -/

/-- The first comparison of a text is the one behind an arithmetic expression. A comparison of two
characters is not taken for the one that is its first character, because nothing that follows a
comparison starts with an equals sign. -/
theorem find_comparison (hleft : Sealed IsPlain left) (operator : Comparison)
    (hright : right.head? ≠ some '=') :
    Nesting.findOperator Comparison.front? Nesting.start (left ++ operator.text ++ right) =
      some (left, operator, right) := by
  have hfront : Comparison.front? (operator.text ++ right) = some (operator, right) := by
    cases operator with
    | less | greater =>
        cases right with
        | nil => rfl
        | cons c rest =>
            unfold Comparison.front?
            split <;> simp_all [Comparison.text]
    | _ => rfl
  have hnone := fun c rest (hc : IsPlain c) ↦ Comparison.front_eq_none rest hc
  rw [List.append_assoc]
  cases operator <;> exact hleft.find_operator_first hnone rfl hfront

/-- The first connective of a text is the one behind an operand. -/
theorem find_connective (hleft : Sealed Grade.operand.Free left) (operator : Connective) :
    Nesting.findOperator Connective.front? Nesting.start (left ++ operator.text ++ right) =
      some (left, operator, right) := by
  have hnone := fun c rest (hc : Grade.operand.Free c) ↦ Connective.front_eq_none rest hc
  rw [List.append_assoc]
  cases operator <;> exact hleft.find_operator_first hnone rfl rfl

/-- An operand has no connective. -/
theorem find_connective_none (h : Sealed Grade.operand.Free text) :
    Nesting.findOperator Connective.front? Nesting.start text = none :=
  h.find_operator_none fun _ rest hc ↦ Connective.front_eq_none rest hc

/-- A text with an operator behind a sealed part is only trimmed. -/
theorem core_around {free : Char → Prop} {operator : Text} (hleft : Sealed free left)
    (hsome : operator ≠ [])
    (hoperator : ∀ c ∈ operator, Nesting.isMark c = false ∧ isBlank c = false) (right : Text) :
    core (left ++ operator ++ right) = trimStart left ++ operator ++ trimEnd right := by
  have htrim := trim_around hsome (fun c hc ↦ (hoperator c hc).2) left right
  rw [core_of_not_enclosed, htrim]
  rw [htrim]
  obtain ⟨c, rest, rfl⟩ := List.exists_cons_of_ne_nil hsome
  rw [List.append_assoc]
  refine enclosed_none (hleft.trim_start.after 0) ?_
  rintro rfl
  have hmark := (hoperator '(' List.mem_cons_self).1
  cases hmark

/-- Trimming the end of a text does not change what it starts with. -/
theorem head_trim_end {c : Char} (h : text.head? ≠ some c) : (trimEnd text).head? ≠ some c := by
  intro hhead
  obtain ⟨rest, hrest⟩ := trim_end_prefix text
  rw [← hrest, List.head?_append, hhead] at h
  exact h rfl

/-! ### The value of a text -/

variable {first second : Formula} {a b : Arithmetic.Tree} {scope : Scope}

/-- A connective is applied to the values of what is left and right of it. -/
theorem formula_connective (operator : Connective) (hleft : Sealed Grade.operand.Free left)
    (hfirst : Expression.formula scope left = first.evaluate scope)
    (hsecond : Expression.formula scope right = second.evaluate scope) :
    Expression.formula scope (left ++ operator.text ++ right) =
      (Formula.connective operator first second).evaluate scope := by
  have hcore : core (left ++ operator.text ++ right) =
      trimStart left ++ operator.text ++ trimEnd right :=
    core_around hleft (by cases operator <;> decide)
      (fun c hc ↦ ⟨(connective_chars operator c hc).1, (connective_chars operator c hc).2.1⟩) right
  have hsome : ¬ (trimStart left ++ operator.text ++ trimEnd right).isEmpty = true := by
    cases operator <;> simp [Connective.text]
  rw [formula_eq, hcore, if_neg hsome, find_connective hleft.trim_start]
  dsimp only
  rw [formula_congr (core_congr (trim_trim_start left)), hfirst,
    formula_congr (core_congr (trim_trim_end right)), hsecond]
  rfl

/-- A comparison is applied to the values of the arithmetic left and right of it. -/
theorem formula_comparison (operator : Comparison) (hleft : Arithmetic.Written left a)
    (hright : Arithmetic.Written right b) :
    Expression.formula scope (left ++ operator.text ++ right) =
      (Formula.comparison operator a b).evaluate scope := by
  have hcore : core (left ++ operator.text ++ right) =
      trimStart left ++ operator.text ++ trimEnd right :=
    core_around hleft.sealed (by cases operator <;> decide)
      (fun c hc ↦ ⟨(comparison_chars operator c hc).1, (comparison_chars operator c hc).2.1⟩) right
  have hstart : Arithmetic.Written (trimStart left) a := hleft.congr (trim_trim_start left)
  have hend : Arithmetic.Written (trimEnd right) b := hright.congr (trim_trim_end right)
  have hsealed := (Written.comparison operator hstart hend).sealed
  obtain ⟨c, others, hc, hopens⟩ := arithmetic_head hstart
  have hnegated : negated? (trimStart left ++ operator.text ++ trimEnd right) = none := by
    rw [hc]
    refine negated_eq_none ?_
    rcases hopens with rfl | hplain
    · decide
    · exact hplain.2.2.1
  have hsome : ¬ (trimStart left ++ operator.text ++ trimEnd right).isEmpty = true := by
    simp [hc]
  have hhead := (Written.arithmetic hend).head rfl
  rw [formula_eq, hcore, if_neg hsome, find_connective_none hsealed]
  dsimp only
  rw [hnegated]
  dsimp only
  rw [Expression.comparison, find_comparison hstart.sealed operator hhead]
  dsimp only
  rw [hstart.evaluate, hend.evaluate]
  rfl

/-- A negation is applied to the value of everything behind it. -/
theorem formula_negation {before : Text} (hbefore : Blank before)
    (h : Written .operand text formula)
    (hvalue : Expression.formula scope text = formula.evaluate scope) :
    Expression.formula scope (before ++ '!' :: text) =
      (Formula.negation formula).evaluate scope := by
  have htrim : trim (before ++ '!' :: text) = '!' :: trimEnd text := by
    have haround :=
      trim_around (List.cons_ne_nil '!' []) (List.forall_mem_singleton.mpr rfl) before text
    rwa [trim_start_blank hbefore, List.nil_append, List.append_assoc] at haround
  have hcore : core (before ++ '!' :: text) = '!' :: trimEnd text := by
    rw [core_of_not_enclosed, htrim]
    rw [htrim]
    rfl
  have hsealed : Sealed Grade.operand.Free ('!' :: trimEnd text) :=
    .char rfl ⟨by decide, by decide⟩ h.sealed.trim_end
  have hnegated : negated? ('!' :: trimEnd text) = some (trimEnd text) :=
    if_neg (head_trim_end (h.head rfl))
  have hsome : ¬ ('!' :: trimEnd text).isEmpty = true := Bool.false_ne_true
  rw [formula_eq, hcore, if_neg hsome, find_connective_none hsealed]
  dsimp only
  rw [hnegated]
  dsimp only
  rw [formula_congr (core_congr (trim_trim_end text)), hvalue]
  rfl

/-- The value of a text that is written for a formula is the value of that formula. -/
theorem Written.value (h : Written grade text formula) (scope : Scope) :
    Expression.formula scope text = formula.evaluate scope := by
  induction h with
  | arithmetic h => exact h.formula scope
  | comparison operator hleft hright => exact formula_comparison operator hleft hright
  | negation hbefore h ih => exact formula_negation hbefore h ih
  | parentheses hbefore hafter h ih =>
      rw [formula_congr (core_parentheses hbefore hafter h.sealed), ih]
  | operand _ ih => exact ih
  | connective operator hleft _ ihleft ihright =>
      exact formula_connective operator hleft.sealed ihleft ihright

end Formula

open Formula

/-- A logical expression is evaluated as it is written. A connective applies to the operand on its
left and to all that follows it, and a negation to the one operand behind it. The blanks between the
parts change nothing, a failure is the first one of this evaluation, and further parentheses change
neither the value nor the failure. -/
theorem formula_follows_structure {text : Text} {formula : Formula}
    (h : Written .formula text formula) (scope : Scope) :
    Expression.evaluate scope text = Expression.report text (formula.evaluate scope) ∧
      ∀ before after, Blank before → Blank after →
        Expression.value scope (before ++ '(' :: (text ++ ')' :: after)) =
          Expression.value scope text := by
  have hvalue : Expression.value scope text = formula.evaluate scope :=
    (Arithmetic.value_of_sealed h.sealed scope).trans (h.value scope)
  refine ⟨by rw [Expression.evaluate, hvalue], fun before after hbefore hafter ↦ ?_⟩
  have hparentheses := Written.parentheses hbefore hafter h
  rw [hvalue, Arithmetic.value_of_sealed hparentheses.sealed, hparentheses.value]

/-- The negation reaches over the comparison, and no further. -/
theorem formula_follows_structure_negation :
    Expression.evaluate NameMap.empty "!2 <= 1 && (false || true)".toList =
      .ok (.boolean true) := by
  have hleaf (leaf : Arithmetic.Leaf) {text : Text} (h : Token.Spelled [leaf.token] text) :
      Arithmetic.Written text (.atom leaf) := by
    simpa using Arithmetic.Written.intro (List.forall_mem_nil _) (List.forall_mem_nil _) h
      (Arithmetic.Tree.derives_render (.atom leaf) 1)
  have hblank : Token.Spelled [] [' '] := .nil (by decide)
  have htwo := hleaf (.integer 2) (@Token.Spelled.word [] ['2'] [' '] _ _ (by decide)
    (.integer (by decide) (by decide) rfl) (by decide) hblank)
  have hone := hleaf (.integer 1) (@Token.Spelled.word [' '] ['1'] [' '] _ _ (by decide)
    (.integer (by decide) (by decide) rfl) (by decide) hblank)
  have hfalse := hleaf (.boolean false) (@Token.Spelled.word [] "false".toList [' '] _ _ (by decide)
    (.word rfl) (by decide) hblank)
  have htrue := hleaf (.boolean true) (@Token.Spelled.word [' '] "true".toList [] _ _ (by decide)
    (.word rfl) (by decide) (.nil (by decide)))
  have hnegation := Written.negation (List.forall_mem_nil _) (.comparison .lessOrEqual htwo hone)
  have hinside :=
    Written.connective .disjunction (.arithmetic hfalse) (.operand (.arithmetic htrue))
  have hright := Written.operand (@Written.parentheses [' '] _ [] _ (by decide) (by decide) hinside)
  have hwritten := Written.connective .conjunction hnegation hright
  exact (formula_follows_structure hwritten NameMap.empty).1

end PenScript
