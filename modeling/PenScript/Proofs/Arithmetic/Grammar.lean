import PenScript.Proofs.Arithmetic.Tree

/-!
# The grammar of arithmetic

`Derives` is the grammar as a relation between tokens and syntax trees. Reading and evaluation are
one pass in `Arithmetic.ofTokens`, and that pass is the grammar: on a sentence it computes what
`Tree.evaluate` computes for the tree of the sentence, value or fault (`Derives.read_eq`), a value is
always that of a sentence (`found_of_read`), and a sentence has one tree (`Derives.unique`).

The tokens of `Tree.render` are a sentence for their tree, and none with fewer tokens exists
(`Tree.derives_render`, `Derives.length_render_le`).
-/

namespace PenScript

namespace Arithmetic

/-- A part of the grammar. The further terms of a sum are read with the tree of all before them, and
so are the further factors of a product. -/
inductive Phrase where
  | sum
  | terms (left : Tree)
  | product
  | factors (left : Tree)
  | factor
  | atom

/-- The tokens are a sentence of the phrase, and this is its tree:

    sum     := product (('+' | '-') product)*
    product := factor (('*' | '/' | '%') factor)*
    factor  := ('-' | '+') factor | atom
    atom    := literal | name | '(' sum ')'

A repetition groups to the left. -/
inductive Derives : Phrase → List Token → Tree → Prop where
  | sum {first others left tree} :
      Derives .product first left → Derives (.terms left) others tree →
      Derives .sum (first ++ others) tree
  | noTerm {left} : Derives (.terms left) [] left
  | term {operator first others left right tree} :
      operator.precedence = 1 → Derives .product first right →
      Derives (.terms (.binary operator left right)) others tree →
      Derives (.terms left) (operator.token :: (first ++ others)) tree
  | product {first others left tree} :
      Derives .factor first left → Derives (.factors left) others tree →
      Derives .product (first ++ others) tree
  | noFactor {left} : Derives (.factors left) [] left
  | moreFactors {operator first others left right tree} :
      operator.precedence = 2 → Derives .factor first right →
      Derives (.factors (.binary operator left right)) others tree →
      Derives (.factors left) (operator.token :: (first ++ others)) tree
  | signed {sign tokens operand} :
      Derives .factor tokens operand →
      Derives .factor (sign.token :: tokens) (.signed sign operand)
  | unsigned {tokens tree} : Derives .atom tokens tree → Derives .factor tokens tree
  | leaf {leaf} : Derives .atom [leaf.token] (.atom leaf)
  | parentheses {tokens tree} :
      Derives .sum tokens tree → Derives .atom (.leftParen :: (tokens ++ [.rightParen])) tree

/-! ### Operators as tokens -/

theorem additive_eq_some_iff {token : Token} {operator : ArithmeticOperator} :
    ArithmeticOperator.additive? token = some operator ↔
      token = operator.token ∧ operator.precedence = 1 := by
  cases token <;> cases operator <;>
    simp [ArithmeticOperator.additive?, ArithmeticOperator.token, ArithmeticOperator.precedence]

theorem multiplicative_eq_some_iff {token : Token} {operator : ArithmeticOperator} :
    ArithmeticOperator.multiplicative? token = some operator ↔
      token = operator.token ∧ operator.precedence = 2 := by
  cases token <;> cases operator <;>
    simp [ArithmeticOperator.multiplicative?, ArithmeticOperator.token,
      ArithmeticOperator.precedence]

/-- A token is not an additive and a multiplicative operator at once. -/
theorem multiplicative_eq_none {operator : ArithmeticOperator} (h : operator.precedence = 1) :
    ArithmeticOperator.multiplicative? operator.token = none := by
  cases operator <;> first | rfl | cases h

/-! ### Reading a sentence -/

/-- What the phrase does not go on with: the further tokens start with no operator of it. -/
def Phrase.Halts : Phrase → List Token → Prop
  | .sum, rest | .terms _, rest =>
      ∀ token ∈ rest.head?, ArithmeticOperator.additive? token = none ∧
        ArithmeticOperator.multiplicative? token = none
  | .product, rest | .factors _, rest =>
      ∀ token ∈ rest.head?, ArithmeticOperator.multiplicative? token = none
  | .factor, _ | .atom, _ => True

/-- The reading of a phrase. Further terms and factors are read after the value of what is before
them. -/
def Phrase.read (scope : Scope) (fuel : Nat) : Phrase → List Token → Reading
  | .sum, tokens => Arithmetic.sum scope fuel tokens
  | .terms left, tokens => do
      let value ← left.evaluate scope
      sumTail scope fuel value tokens
  | .product, tokens => Arithmetic.product scope fuel tokens
  | .factors left, tokens => do
      let value ← left.evaluate scope
      productTail scope fuel value tokens
  | .factor, tokens => Arithmetic.factor scope fuel tokens
  | .atom, tokens => Arithmetic.atom scope fuel tokens

/-- More fuel than this reads a phrase of so many tokens. -/
def Phrase.fuel : Phrase → Nat → Nat
  | .sum, length => 4 * length + 3
  | .product, length => 4 * length + 2
  | .factor, length => 4 * length + 1
  | .terms _, length | .factors _, length | .atom, length => 4 * length

/-- The value of a tree, read before further tokens. -/
def Tree.reading (scope : Scope) (tree : Tree) (rest : List Token) : Reading :=
  (tree.evaluate scope).map (·, rest)

theorem Tree.reading_bind {α : Type} (scope : Scope) (tree : Tree) (rest : List Token)
    (next : Value × List Token → Except Fault α) :
    (tree.reading scope rest >>= next) =
      tree.evaluate scope >>= fun value ↦ next (value, rest) := by
  rw [Tree.reading]
  cases tree.evaluate scope <;> rfl

namespace Derives

variable {scope : Scope} {tokens rest : List Token} {tree left : Tree}

/-- A product is not read beyond the terms of a sum that follow it. -/
theorem product_halts (h : Derives (.terms left) tokens tree) (hrest : Phrase.sum.Halts rest) :
    Phrase.product.Halts (tokens ++ rest) := by
  cases h with
  | noTerm => exact fun token hmem ↦ (hrest token hmem).2
  | term hoperator _ _ =>
      intro token hmem
      obtain rfl := Option.some.inj hmem
      exact multiplicative_eq_none hoperator

/-- A sum is not read beyond a closing parenthesis. -/
theorem sum_halts_parenthesis : Phrase.sum.Halts (.rightParen :: rest) := by
  intro token hmem
  obtain rfl := Option.some.inj hmem
  exact ⟨rfl, rfl⟩

/-- Further terms end where none follows. -/
theorem sum_tail_of_halts {fuel : Nat} {value : Value} (h : Phrase.sum.Halts rest) :
    sumTail scope (fuel + 1) value rest = .ok (value, rest) := by
  cases rest with
  | nil => rw [sumTail]
  | cons token others =>
      rw [sumTail]
      simp only [(h token rfl).1]

/-- Further factors end where none follows. -/
theorem product_tail_of_halts {fuel : Nat} {value : Value} (h : Phrase.product.Halts rest) :
    productTail scope (fuel + 1) value rest = .ok (value, rest) := by
  cases rest with
  | nil => rw [productTail]
  | cons token others =>
      rw [productTail]
      simp only [h token rfl]

/-- An atom starts with no sign. -/
theorem factor_eq_atom {fuel : Nat} (h : Derives .atom tokens tree) :
    factor scope (fuel + 1) (tokens ++ rest) = atom scope fuel (tokens ++ rest) := by
  cases h with
  | @leaf leaf => cases leaf <;> rfl
  | parentheses _ => rfl

/-- A sign before an operand. -/
theorem factor_signed {fuel : Nat} (sign : Sign) :
    factor scope (fuel + 1) (sign.token :: tokens) = factor scope fuel tokens >>= fun reading ↦
      sign.apply reading.1 >>= fun value ↦ pure (value, reading.2) := by
  cases sign <;> rfl

/-- The reading of a sentence is the value of its tree, or the fault of its tree. -/
theorem read_eq {phrase : Phrase} (h : Derives phrase tokens tree) {fuel : Nat}
    (hhalts : phrase.Halts rest) (hfuel : phrase.fuel tokens.length < fuel) :
    phrase.read scope fuel (tokens ++ rest) = tree.reading scope rest := by
  induction h generalizing rest fuel with
  | @sum first others left tree _ hothers ihfirst ihothers =>
      obtain ⟨fuel, rfl⟩ : ∃ less, fuel = less + 1 := ⟨fuel - 1, by omega⟩
      simp only [Phrase.fuel, List.length_append] at hfuel ihfirst ihothers
      have hproduct : Arithmetic.product scope fuel (first ++ (others ++ rest)) = _ :=
        ihfirst (hothers.product_halts hhalts) (by omega)
      rw [List.append_assoc, Phrase.read, Arithmetic.sum, hproduct, Tree.reading_bind]
      exact ihothers hhalts (by omega)
  | @noTerm left =>
      obtain ⟨fuel, rfl⟩ : ∃ less, fuel = less + 1 := ⟨fuel - 1, by omega⟩
      rw [List.nil_append, Tree.reading, Phrase.read]
      simp only [sum_tail_of_halts hhalts]
      rfl
  | @term operator first others left right tree hoperator _ hothers ihfirst ihothers =>
      obtain ⟨fuel, rfl⟩ : ∃ less, fuel = less + 1 := ⟨fuel - 1, by omega⟩
      simp only [Phrase.fuel, List.length_append, List.length_cons] at hfuel ihfirst ihothers
      have hproduct : Arithmetic.product scope fuel (first ++ (others ++ rest)) = _ :=
        ihfirst (hothers.product_halts hhalts) (by omega)
      have hadditive := additive_eq_some_iff.mpr ⟨rfl, hoperator⟩
      rw [← ihothers hhalts (show _ < fuel by omega), Phrase.read, Phrase.read, List.cons_append,
        List.append_assoc]
      simp only [sumTail, hadditive, hproduct, Tree.reading_bind, Tree.evaluate, bind_assoc]
  | @product first others left tree _ hothers ihfirst ihothers =>
      obtain ⟨fuel, rfl⟩ : ∃ less, fuel = less + 1 := ⟨fuel - 1, by omega⟩
      simp only [Phrase.fuel, List.length_append] at hfuel ihfirst ihothers
      have hfactor : Arithmetic.factor scope fuel (first ++ (others ++ rest)) = _ :=
        ihfirst trivial (by omega)
      rw [List.append_assoc, Phrase.read, Arithmetic.product, hfactor, Tree.reading_bind]
      exact ihothers hhalts (by omega)
  | @noFactor left =>
      obtain ⟨fuel, rfl⟩ : ∃ less, fuel = less + 1 := ⟨fuel - 1, by omega⟩
      rw [List.nil_append, Tree.reading, Phrase.read]
      simp only [product_tail_of_halts hhalts]
      rfl
  | @moreFactors operator first others left right tree hoperator _ hothers ihfirst ihothers =>
      obtain ⟨fuel, rfl⟩ : ∃ less, fuel = less + 1 := ⟨fuel - 1, by omega⟩
      simp only [Phrase.fuel, List.length_append, List.length_cons] at hfuel ihfirst ihothers
      have hfactor : Arithmetic.factor scope fuel (first ++ (others ++ rest)) = _ :=
        ihfirst trivial (by omega)
      have hmultiplicative := multiplicative_eq_some_iff.mpr ⟨rfl, hoperator⟩
      rw [← ihothers hhalts (show _ < fuel by omega), Phrase.read, Phrase.read, List.cons_append,
        List.append_assoc]
      simp only [productTail, hmultiplicative, hfactor, Tree.reading_bind, Tree.evaluate,
        bind_assoc]
  | @signed sign tokens operand _ ih =>
      obtain ⟨fuel, rfl⟩ : ∃ less, fuel = less + 1 := ⟨fuel - 1, by omega⟩
      simp only [Phrase.fuel, List.length_cons] at hfuel ih
      have hfactor : Arithmetic.factor scope fuel (tokens ++ rest) = _ := ih trivial (by omega)
      rw [Phrase.read, List.cons_append, factor_signed, hfactor, Tree.reading_bind, Tree.reading,
        Tree.evaluate]
      cases operand.evaluate scope with
      | error fault => rfl
      | ok value =>
          change (sign.apply value >>= fun result ↦ pure (result, rest)) = (sign.apply value).map _
          cases sign.apply value <;> rfl
  | @unsigned tokens tree hatom ih =>
      obtain ⟨fuel, rfl⟩ : ∃ less, fuel = less + 1 := ⟨fuel - 1, by omega⟩
      rw [Phrase.read, factor_eq_atom hatom]
      simp only [Phrase.fuel] at hfuel ih
      exact ih trivial (by omega)
  | @leaf leaf =>
      obtain ⟨fuel, rfl⟩ : ∃ less, fuel = less + 1 := ⟨fuel - 1, by omega⟩
      rw [Phrase.read, List.singleton_append, Tree.reading, Tree.evaluate]
      cases leaf with
      | name text =>
          rw [Leaf.token, Arithmetic.atom, Leaf.evaluate]
          cases scope.get? text <;> rfl
      | _ => rfl
  | @parentheses tokens tree _ ih =>
      obtain ⟨fuel, rfl⟩ : ∃ less, fuel = less + 1 := ⟨fuel - 1, by omega⟩
      simp only [Phrase.fuel, List.length_append, List.length_cons, List.length_nil] at hfuel ih
      have hsum : Arithmetic.sum scope fuel (tokens ++ (.rightParen :: rest)) = _ :=
        ih sum_halts_parenthesis (by omega)
      rw [Phrase.read, List.cons_append, List.append_assoc, List.singleton_append,
        Arithmetic.atom, hsum, Tree.reading_bind, Tree.reading]
      cases tree.evaluate scope <;> rfl

end Derives

/-! ### A value is that of a sentence -/

/-- The tokens start with a sentence of the phrase whose tree has this value, and the others follow
it. -/
def Phrase.Found (phrase : Phrase) (scope : Scope) (tokens : List Token) (value : Value)
    (rest : List Token) : Prop :=
  ∃ first tree, tokens = first ++ rest ∧ Derives phrase first tree ∧
    tree.evaluate scope = .ok value

variable {scope : Scope} {tokens rest : List Token} {value : Value}

/-- A token that stands for a value is an atom. -/
theorem found_leaf {leaf : Leaf} (h : leaf.evaluate scope = .ok value) (rest : List Token) :
    Phrase.atom.Found scope (leaf.token :: rest) value rest :=
  ⟨[leaf.token], .atom leaf, rfl, .leaf, h⟩

/-- An atom is a token that stands for a value, or a sum between parentheses. -/
theorem found_of_atom {fuel : Nat}
    (ih : ∀ {tokens value rest}, sum scope fuel tokens = .ok (value, rest) →
      Phrase.sum.Found scope tokens value rest)
    (h : atom scope (fuel + 1) tokens = .ok (value, rest)) :
    Phrase.atom.Found scope tokens value rest := by
  cases tokens with
  | nil => cases h
  | cons token others =>
      cases token with
      | leftParen =>
          rw [atom] at h
          obtain ⟨⟨inner, after⟩, hsum, h⟩ := ok_of_bind h
          dsimp only at h
          split at h
          · cases h
            obtain ⟨first, tree, rfl, hderives, hvalue⟩ := ih hsum
            exact ⟨_, tree, by simp, .parentheses hderives, hvalue⟩
          · cases h
      | name text =>
          rw [atom] at h
          split at h
          · rename_i found hfound
            cases h
            have hname : (Leaf.name text).evaluate scope = .ok value := by
              rw [Leaf.evaluate, hfound]
            exact found_leaf hname _
          · cases h
      | integer number =>
          cases h
          exact found_leaf (show (Leaf.integer number).evaluate scope = _ from rfl) _
      | real number =>
          cases h
          exact found_leaf (show (Leaf.real number).evaluate scope = _ from rfl) _
      | boolean truth =>
          cases h
          exact found_leaf (show (Leaf.boolean truth).evaluate scope = _ from rfl) _
      | _ => cases h

/-- A factor is an operand after a sign, or an atom. -/
theorem found_of_factor {fuel : Nat}
    (ihfactor : ∀ {tokens value rest}, factor scope fuel tokens = .ok (value, rest) →
      Phrase.factor.Found scope tokens value rest)
    (ihatom : atom scope fuel tokens = .ok (value, rest) →
      Phrase.atom.Found scope tokens value rest)
    (h : factor scope (fuel + 1) tokens = .ok (value, rest)) :
    Phrase.factor.Found scope tokens value rest := by
  have hsigned : ∀ (sign : Sign) (others : List Token), tokens = sign.token :: others →
      Phrase.factor.Found scope tokens value rest := by
    rintro sign others rfl
    rw [Derives.factor_signed] at h
    obtain ⟨⟨a, after⟩, hfactor, h⟩ := ok_of_bind h
    obtain ⟨result, hresult, h⟩ := ok_of_bind h
    cases h
    obtain ⟨first, operand, rfl, hderives, ha⟩ := ihfactor hfactor
    refine ⟨sign.token :: first, .signed sign operand, rfl, .signed hderives, ?_⟩
    rw [Tree.evaluate, ha]
    exact hresult
  have hunsigned (hatom : atom scope fuel tokens = .ok (value, rest)) :
      Phrase.factor.Found scope tokens value rest := by
    obtain ⟨first, tree, rfl, hderives, hvalue⟩ := ihatom hatom
    exact ⟨first, tree, rfl, .unsigned hderives, hvalue⟩
  cases tokens with
  | nil => exact hunsigned h
  | cons token others =>
      cases token with
      | minus => exact hsigned .minus others rfl
      | plus => exact hsigned .plus others rfl
      | _ => exact hunsigned h

/-- Further terms are read after the value of what is before them. -/
theorem read_terms {left : Tree} {a : Value} (h : left.evaluate scope = .ok a) (fuel : Nat)
    (tokens : List Token) :
    (Phrase.terms left).read scope fuel tokens = sumTail scope fuel a tokens := by
  rw [Phrase.read, h]
  rfl

/-- Further factors are read after the value of what is before them. -/
theorem read_factors {left : Tree} {a : Value} (h : left.evaluate scope = .ok a) (fuel : Nat)
    (tokens : List Token) :
    (Phrase.factors left).read scope fuel tokens = productTail scope fuel a tokens := by
  rw [Phrase.read, h]
  rfl

/-- The value of an operator between two operands that have values. -/
theorem evaluate_binary {operator : ArithmeticOperator} {left right : Tree} {a b : Value}
    (ha : left.evaluate scope = .ok a) (hb : right.evaluate scope = .ok b) :
    (Tree.binary operator left right).evaluate scope = operator.apply a b := by
  rw [Tree.evaluate, ha, hb]
  rfl

/-- What is read with a value is a sentence whose tree has that value. -/
theorem found_of_read {phrase : Phrase} {fuel : Nat}
    (h : phrase.read scope fuel tokens = .ok (value, rest)) :
    phrase.Found scope tokens value rest := by
  induction fuel generalizing phrase tokens value rest with
  | zero =>
      cases phrase with
      | terms left | factors left =>
          obtain ⟨_, -, h⟩ := ok_of_bind h
          cases h
      | _ => cases h
  | succ fuel ih =>
      cases phrase with
      | sum =>
          rw [Phrase.read, sum] at h
          obtain ⟨⟨a, others⟩, hproduct, htail⟩ := ok_of_bind h
          have hfirst : Phrase.product.Found scope tokens a others := ih hproduct
          obtain ⟨first, left, rfl, hleft, ha⟩ := hfirst
          obtain ⟨more, tree, rfl, htree, hvalue⟩ := ih ((read_terms ha fuel others).trans htail)
          exact ⟨first ++ more, tree, by simp, .sum hleft htree, hvalue⟩
      | terms left =>
          obtain ⟨a, ha, hread⟩ := ok_of_bind h
          cases tokens with
          | nil =>
              cases hread
              exact ⟨[], left, rfl, .noTerm, ha⟩
          | cons token tokens =>
              rw [sumTail] at hread
              split at hread
              · cases hread
                exact ⟨[], left, rfl, .noTerm, ha⟩
              · rename_i operator hsymbol
                obtain ⟨rfl, hoperator⟩ := additive_eq_some_iff.mp hsymbol
                obtain ⟨⟨b, others⟩, hproduct, hread⟩ := ok_of_bind hread
                obtain ⟨result, hresult, htail⟩ := ok_of_bind hread
                have hfirst : Phrase.product.Found scope tokens b others := ih hproduct
                obtain ⟨first, right, rfl, hright, hb⟩ := hfirst
                have hresult := (evaluate_binary ha hb).trans hresult
                obtain ⟨more, tree, rfl, htree, hvalue⟩ :=
                  ih ((read_terms hresult fuel others).trans htail)
                exact ⟨_, tree, by simp, .term hoperator hright htree, hvalue⟩
      | product =>
          rw [Phrase.read, product] at h
          obtain ⟨⟨a, others⟩, hfactor, htail⟩ := ok_of_bind h
          have hfirst : Phrase.factor.Found scope tokens a others := ih hfactor
          obtain ⟨first, left, rfl, hleft, ha⟩ := hfirst
          obtain ⟨more, tree, rfl, htree, hvalue⟩ := ih ((read_factors ha fuel others).trans htail)
          exact ⟨first ++ more, tree, by simp, .product hleft htree, hvalue⟩
      | factors left =>
          obtain ⟨a, ha, hread⟩ := ok_of_bind h
          cases tokens with
          | nil =>
              cases hread
              exact ⟨[], left, rfl, .noFactor, ha⟩
          | cons token tokens =>
              rw [productTail] at hread
              split at hread
              · cases hread
                exact ⟨[], left, rfl, .noFactor, ha⟩
              · rename_i operator hsymbol
                obtain ⟨rfl, hoperator⟩ := multiplicative_eq_some_iff.mp hsymbol
                obtain ⟨⟨b, others⟩, hfactor, hread⟩ := ok_of_bind hread
                obtain ⟨result, hresult, htail⟩ := ok_of_bind hread
                have hfirst : Phrase.factor.Found scope tokens b others := ih hfactor
                obtain ⟨first, right, rfl, hright, hb⟩ := hfirst
                have hresult := (evaluate_binary ha hb).trans hresult
                obtain ⟨more, tree, rfl, htree, hvalue⟩ :=
                  ih ((read_factors hresult fuel others).trans htail)
                exact ⟨_, tree, by simp, .moreFactors hoperator hright htree, hvalue⟩
      | factor => exact found_of_factor (fun hfactor ↦ ih hfactor) (fun hatom ↦ ih hatom) h
      | atom => exact found_of_atom (fun hsum ↦ ih hsum) h

/-! ### One tree for each sentence -/

theorem operator_token_injective {operator other : ArithmeticOperator}
    (h : operator.token = other.token) : operator = other := by
  cases operator <;> cases other <;> first | rfl | cases h

theorem sign_token_injective {sign other : Sign} (h : sign.token = other.token) : sign = other := by
  cases sign <;> cases other <;> first | rfl | cases h

theorem leaf_token_injective {leaf other : Leaf} (h : leaf.token = other.token) : leaf = other := by
  cases leaf <;> cases other <;> cases h <;> rfl

/-- What comes after a sum is no operator of it. -/
theorem sum_not_halts {operator : ArithmeticOperator} (h : operator.precedence = 1) :
    ¬ Phrase.sum.Halts (operator.token :: tokens) := by
  intro hhalts
  have := (hhalts operator.token rfl).1
  rw [additive_eq_some_iff.mpr ⟨rfl, h⟩] at this
  cases this

/-- What comes after a product is no operator of it. -/
theorem product_not_halts {operator : ArithmeticOperator} (h : operator.precedence = 2) :
    ¬ Phrase.product.Halts (operator.token :: tokens) := by
  intro hhalts
  have := hhalts operator.token rfl
  rw [multiplicative_eq_some_iff.mpr ⟨rfl, h⟩] at this
  cases this

namespace Derives

/-- No atom starts with a sign. -/
theorem atom_ne_signed {tokens others rest rest' : List Token} {tree : Tree} {sign : Sign}
    (h : Derives .atom tokens tree) : tokens ++ rest ≠ sign.token :: others ++ rest' := by
  cases h with
  | @leaf leaf => cases leaf <;> cases sign <;> simp [Leaf.token, Sign.token]
  | parentheses _ => cases sign <;> simp [Sign.token]

/-- Two sentences that the same tokens start with are the same, when both end where their phrase
does not go on, and they have one tree. -/
theorem unique_of_append {phrase : Phrase} {tokens others rest rest' : List Token}
    {tree other : Tree} (h : Derives phrase tokens tree) (hother : Derives phrase others other)
    (htokens : tokens ++ rest = others ++ rest') (hrest : phrase.Halts rest)
    (hrest' : phrase.Halts rest') : tokens = others ∧ tree = other := by
  induction h generalizing others rest rest' other with
  | sum _ hterms ihfirst ihothers =>
      cases hother with
      | sum hfirst hterms' =>
          rw [List.append_assoc, List.append_assoc] at htokens
          obtain ⟨rfl, rfl⟩ := ihfirst hfirst htokens (hterms.product_halts hrest)
            (hterms'.product_halts hrest')
          obtain ⟨rfl, rfl⟩ := ihothers hterms' (List.append_cancel_left htokens) hrest hrest'
          exact ⟨rfl, rfl⟩
  | noTerm =>
      cases hother with
      | noTerm => exact ⟨rfl, rfl⟩
      | term hoperator _ _ =>
          rw [List.nil_append] at htokens
          subst htokens
          exact absurd hrest (sum_not_halts hoperator)
  | term hoperator _ hterms ihfirst ihothers =>
      cases hother with
      | noTerm =>
          rw [List.nil_append] at htokens
          subst htokens
          exact absurd hrest' (sum_not_halts hoperator)
      | term _ hfirst hterms' =>
          rw [List.cons_append, List.cons_append, List.append_assoc, List.append_assoc] at htokens
          obtain ⟨htoken, htail⟩ := List.cons.inj htokens
          obtain rfl := operator_token_injective htoken
          obtain ⟨rfl, rfl⟩ := ihfirst hfirst htail (hterms.product_halts hrest)
            (hterms'.product_halts hrest')
          obtain ⟨rfl, rfl⟩ := ihothers hterms' (List.append_cancel_left htail) hrest hrest'
          exact ⟨rfl, rfl⟩
  | product _ _ ihfirst ihothers =>
      cases hother with
      | product hfirst hfactors =>
          rw [List.append_assoc, List.append_assoc] at htokens
          obtain ⟨rfl, rfl⟩ := ihfirst hfirst htokens trivial trivial
          obtain ⟨rfl, rfl⟩ := ihothers hfactors (List.append_cancel_left htokens) hrest hrest'
          exact ⟨rfl, rfl⟩
  | noFactor =>
      cases hother with
      | noFactor => exact ⟨rfl, rfl⟩
      | moreFactors hoperator _ _ =>
          rw [List.nil_append] at htokens
          subst htokens
          exact absurd hrest (product_not_halts hoperator)
  | moreFactors hoperator _ _ ihfirst ihothers =>
      cases hother with
      | noFactor =>
          rw [List.nil_append] at htokens
          subst htokens
          exact absurd hrest' (product_not_halts hoperator)
      | moreFactors _ hfirst hfactors =>
          rw [List.cons_append, List.cons_append, List.append_assoc, List.append_assoc] at htokens
          obtain ⟨htoken, htail⟩ := List.cons.inj htokens
          obtain rfl := operator_token_injective htoken
          obtain ⟨rfl, rfl⟩ := ihfirst hfirst htail trivial trivial
          obtain ⟨rfl, rfl⟩ := ihothers hfactors (List.append_cancel_left htail) hrest hrest'
          exact ⟨rfl, rfl⟩
  | signed _ ih =>
      cases hother with
      | signed hoperand =>
          obtain ⟨htoken, htail⟩ := List.cons.inj htokens
          obtain rfl := sign_token_injective htoken
          obtain ⟨rfl, rfl⟩ := ih hoperand htail trivial trivial
          exact ⟨rfl, rfl⟩
      | unsigned hatom => exact absurd htokens.symm hatom.atom_ne_signed
  | unsigned hatom ih =>
      cases hother with
      | signed _ => exact absurd htokens hatom.atom_ne_signed
      | unsigned hatom' => exact ih hatom' htokens trivial trivial
  | @leaf leaf =>
      cases hother with
      | leaf =>
          obtain rfl := leaf_token_injective (List.cons.inj htokens).1
          exact ⟨rfl, rfl⟩
      | parentheses _ => cases leaf <;> cases htokens
  | parentheses _ ih =>
      cases hother with
      | @leaf leaf => cases leaf <;> cases htokens
      | parentheses hsum =>
          rw [List.cons_append, List.cons_append, List.append_assoc, List.append_assoc] at htokens
          have htail := (List.cons.inj htokens).2
          obtain ⟨rfl, rfl⟩ := ih hsum htail sum_halts_parenthesis sum_halts_parenthesis
          exact ⟨rfl, rfl⟩

/-- A sentence has one tree. -/
theorem unique {tokens : List Token} {tree other : Tree} (h : Derives .sum tokens tree)
    (hother : Derives .sum tokens other) : tree = other := by
  have hhalts : Phrase.sum.Halts [] := fun _ hmem ↦ nomatch hmem
  exact (h.unique_of_append hother rfl hhalts hhalts).2

/-! ### The tokens of a tree -/

/-- A sum may have one more term at its end. -/
theorem add_term {phrase : Phrase} {operator : ArithmeticOperator} {tokens more : List Token}
    {left tree right : Tree} (h : Derives phrase tokens tree) (hphrase : phrase = .terms left)
    (hoperator : operator.precedence = 1) (hright : Derives .product more right) :
    Derives (.terms left) (tokens ++ operator.token :: more) (.binary operator tree right) := by
  induction h generalizing left with
  | noTerm =>
      cases hphrase
      simpa using Derives.term hoperator hright .noTerm
  | term hfirst hterm _ _ ih =>
      cases hphrase
      simpa using Derives.term hfirst hterm (ih rfl)
  | _ => cases hphrase

/-- A product may have one more factor at its end. -/
theorem add_factor {phrase : Phrase} {operator : ArithmeticOperator} {tokens more : List Token}
    {left tree right : Tree} (h : Derives phrase tokens tree) (hphrase : phrase = .factors left)
    (hoperator : operator.precedence = 2) (hright : Derives .factor more right) :
    Derives (.factors left) (tokens ++ operator.token :: more) (.binary operator tree right) := by
  induction h generalizing left with
  | noFactor =>
      cases hphrase
      simpa using Derives.moreFactors hoperator hright .noFactor
  | moreFactors hfirst hfactor _ _ ih =>
      cases hphrase
      simpa using Derives.moreFactors hfirst hfactor (ih rfl)
  | _ => cases hphrase

variable {operator : ArithmeticOperator} {tokens more : List Token} {left right tree : Tree}

/-- A sum and a product with `+` or `-` between them. -/
theorem sum_binary (hleft : Derives .sum tokens left) (hright : Derives .product more right)
    (hoperator : operator.precedence = 1) :
    Derives .sum (tokens ++ operator.token :: more) (.binary operator left right) := by
  cases hleft with
  | sum hfirst hothers => simpa using Derives.sum hfirst (hothers.add_term rfl hoperator hright)

/-- A product and a factor with `*`, `/` or `%` between them. -/
theorem product_binary (hleft : Derives .product tokens left) (hright : Derives .factor more right)
    (hoperator : operator.precedence = 2) :
    Derives .product (tokens ++ operator.token :: more) (.binary operator left right) := by
  cases hleft with
  | product hfirst hothers =>
      simpa using Derives.product hfirst (hothers.add_factor rfl hoperator hright)

/-- A factor is a product. -/
theorem product_of_factor (h : Derives .factor tokens tree) : Derives .product tokens tree := by
  simpa using Derives.product h .noFactor

/-- A product is a sum. -/
theorem sum_of_product (h : Derives .product tokens tree) : Derives .sum tokens tree := by
  simpa using Derives.sum h .noTerm

end Derives

/-- The phrase of a place for operators that bind at least so strongly. -/
def Phrase.ofPrecedence : Nat → Phrase
  | 0 | 1 => .sum
  | 2 => .product
  | _ => .factor

namespace Derives

variable {tokens : List Token} {tree : Tree}

/-- What may stand in the place for a strong operator may stand in that for a weaker one. -/
theorem weaken {least strong : Nat} (h : Derives (.ofPrecedence strong) tokens tree)
    (hle : least ≤ strong) : Derives (.ofPrecedence least) tokens tree := by
  match strong, least with
  | 0, 0 | 1, 0 | 1, 1 | 2, 2 => exact h
  | 2, 0 | 2, 1 => exact h.sum_of_product
  | _ + 3, 0 | _ + 3, 1 => exact h.product_of_factor.sum_of_product
  | _ + 3, 2 => exact h.product_of_factor
  | _ + 3, _ + 3 => exact h
  | 0, _ + 1 | 1, _ + 2 | 2, _ + 3 => omega

/-- A factor may stand in every place. -/
theorem anywhere (h : Derives .factor tokens tree) (least : Nat) :
    Derives (.ofPrecedence least) tokens tree :=
  have hstrong : Derives (.ofPrecedence (least + 3)) tokens tree := h
  hstrong.weaken (Nat.le_add_right least 3)

end Derives

/-- The tokens of a tree are a sentence for it. -/
theorem Tree.derives_render (tree : Tree) (least : Nat) :
    Derives (.ofPrecedence least) (tree.render least) tree := by
  induction tree generalizing least with
  | atom leaf => exact (Derives.unsigned .leaf).anywhere least
  | signed sign operand ih => exact (Derives.signed (ih 3)).anywhere least
  | binary operator left right ihleft ihright =>
      have hleft := ihleft operator.precedence
      have hright := ihright (operator.precedence + 1)
      have hinside : Derives (.ofPrecedence operator.precedence)
          (left.render operator.precedence ++
            operator.token :: right.render (operator.precedence + 1))
          (.binary operator left right) := by
        cases operator with
        | add | subtract => exact hleft.sum_binary hright rfl
        | multiply | divide | remainder => exact hleft.product_binary hright rfl
      rw [Tree.render, parenthesize]
      by_cases hneeded : operator.precedence < least
      · have hsum : Derives .sum _ _ := hinside.weaken (Nat.zero_le _)
        simpa [hneeded] using (Derives.unsigned (.parentheses hsum)).anywhere least
      · simpa [hneeded] using hinside.weaken (Nat.not_lt.mp hneeded)

/-- A tree in a place for stronger operators has at least as many tokens, and at most the two of a
pair of parentheses more. -/
theorem Tree.length_render_le (tree : Tree) {least strong : Nat} (h : least ≤ strong) :
    (tree.render least).length ≤ (tree.render strong).length ∧
      (tree.render strong).length ≤ (tree.render least).length + 2 := by
  cases tree with
  | atom leaf => exact ⟨Nat.le_refl _, Nat.le_add_right _ _⟩
  | signed sign operand => exact ⟨Nat.le_refl _, Nat.le_add_right _ _⟩
  | binary operator left right =>
      rw [Tree.render, Tree.render, parenthesize, parenthesize]
      split <;> split <;> simp_all <;> omega

/-- The place in which a phrase stands. -/
def Phrase.least : Phrase → Nat
  | .sum | .terms _ => 1
  | .product | .factors _ => 2
  | .factor | .atom => 3

/-- The number of tokens that the tree before a phrase is rendered with. -/
def Phrase.before : Phrase → Nat
  | .terms left => (left.render 1).length
  | .factors left => (left.render 2).length
  | _ => 0

/-- No sentence for a tree has fewer tokens than its rendering. -/
theorem Derives.length_render_le {phrase : Phrase} {tokens : List Token} {tree : Tree}
    (h : Derives phrase tokens tree) :
    (tree.render phrase.least).length ≤ phrase.before + tokens.length := by
  induction h with
  | @sum first others left tree _ _ ihfirst ihothers =>
      have hweaker := (left.length_render_le (show 1 ≤ 2 by decide)).1
      simp only [Phrase.least, Phrase.before, List.length_append] at ihfirst ihothers ⊢
      omega
  | @term operator first others left right tree hoperator _ _ ihfirst ihothers =>
      simp only [Phrase.least, Phrase.before, List.length_append, List.length_cons, Tree.render,
        hoperator, parenthesize, Nat.lt_irrefl, decide_false, Bool.false_eq_true, if_false,
        Nat.reduceAdd] at ihfirst ihothers ⊢
      omega
  | @product first others left tree _ _ ihfirst ihothers =>
      have hweaker := (left.length_render_le (show 2 ≤ 3 by decide)).1
      simp only [Phrase.least, Phrase.before, List.length_append] at ihfirst ihothers ⊢
      omega
  | @moreFactors operator first others left right tree hoperator _ _ ihfirst ihothers =>
      simp only [Phrase.least, Phrase.before, List.length_append, List.length_cons, Tree.render,
        hoperator, parenthesize, Nat.lt_irrefl, decide_false, Bool.false_eq_true, if_false,
        Nat.reduceAdd] at ihfirst ihothers ⊢
      omega
  | signed _ ih =>
      simp only [Phrase.least, Phrase.before, List.length_cons, Tree.render] at ih ⊢
      omega
  | @parentheses tokens tree _ ih =>
      have hpair := (tree.length_render_le (show 1 ≤ 3 by decide)).2
      simp only [Phrase.least, Phrase.before, List.length_append, List.length_cons,
        List.length_nil] at ih ⊢
      omega
  | unsigned _ ih => exact ih
  | noTerm | noFactor | leaf => simp [Phrase.least, Phrase.before, Tree.render]

/-! ### Token lists -/

theorem Phrase.halts_nil (phrase : Phrase) : phrase.Halts [] := by
  cases phrase <;> simp [Phrase.Halts]

/-- A sentence is not empty. -/
theorem Derives.ne_nil {tokens : List Token} {tree : Tree} (h : Derives .sum tokens tree) :
    tokens ≠ [] := by
  rintro rfl
  have hlength : (tree.render 1).length ≤ 0 := h.length_render_le
  have hempty : tree.render 1 = [] := List.length_eq_zero_iff.mp (Nat.le_zero.mp hlength)
  cases tree with
  | binary operator left right =>
      rw [Tree.render, parenthesize] at hempty
      split at hempty <;> simp at hempty
  | _ => simp [Tree.render] at hempty

/-- The value of a sentence is that of its tree, and so is its fault. -/
theorem of_tokens_eq {tokens : List Token} {tree : Tree} (h : Derives .sum tokens tree)
    (scope : Scope) : ofTokens scope tokens = tree.evaluate scope := by
  have hfuel : Phrase.sum.fuel tokens.length < 6 * tokens.length + 6 := by
    rw [Phrase.fuel]
    omega
  have hread : sum scope _ (tokens ++ []) = _ := h.read_eq (Phrase.halts_nil .sum) hfuel
  rw [List.append_nil] at hread
  rw [ofTokens, if_neg (by simpa using h.ne_nil), hread, Tree.reading_bind]
  exact bind_pure (tree.evaluate scope)

/-- A token list has a value when it is a sentence and its tree has that value. -/
theorem of_tokens_eq_ok_iff {scope : Scope} {tokens : List Token} {value : Value} :
    ofTokens scope tokens = .ok value ↔
      ∃ tree, Derives .sum tokens tree ∧ tree.evaluate scope = .ok value := by
  constructor
  · intro h
    rw [ofTokens] at h
    split at h
    · cases h
    · obtain ⟨⟨found, rest⟩, hsum, h⟩ := ok_of_bind h
      cases rest with
      | nil =>
          cases h
          have hread : Phrase.sum.read scope (6 * tokens.length + 6) tokens = .ok (value, []) :=
            hsum
          obtain ⟨first, tree, rfl, hderives, hvalue⟩ := found_of_read hread
          exact ⟨tree, by simpa using hderives, hvalue⟩
      | cons token others => cases h
  · rintro ⟨tree, hderives, hvalue⟩
    exact (of_tokens_eq hderives scope).trans hvalue

end Arithmetic

end PenScript
