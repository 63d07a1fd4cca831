import PenScript.Arithmetic
import PenScript.Proofs.Error.Result

/-!
# Syntax trees of arithmetic

The structure of an arithmetic expression, its value, and its tokens. `Tree.evaluate` computes the
value from the leaves to the root, the left operand of an operator before the right one, so a fault
is that of the first node in post-order that fails (`Tree.first_fails`). `Tree.render` writes a tree
with parentheses only where the precedence of the operators or their grouping to the left requires
them.
-/

namespace PenScript

namespace Arithmetic

/-- A literal or a variable. -/
inductive Leaf where
  | integer (number : Int64)
  | real (number : Float)
  | boolean (truth : Bool)
  | name (text : Text)

/-- A sign before an operand. -/
inductive Sign where
  | plus
  | minus

/-- The structure of an arithmetic expression. -/
inductive Tree where
  | atom (leaf : Leaf)
  | signed (sign : Sign) (operand : Tree)
  | binary (operator : ArithmeticOperator) (left right : Tree)

/-- The value of a literal or of a variable. -/
def Leaf.evaluate (scope : Scope) : Leaf → Except Fault Value
  | .integer number => .ok (.integer number)
  | .real number => .ok (.real number)
  | .boolean truth => .ok (.boolean truth)
  | .name text =>
      match scope.get? text with
      | some value => .ok value
      | none => .error (.undefinedVariable text)

/-- The value of a sign before a value. A plus sign asks for a number and does not change it. -/
def Sign.apply : Sign → Value → Except Fault Value
  | .plus, value => value.toNumber.mapError .typeMismatch
  | .minus, value => negate value

namespace Tree

/-- The value of a tree, from its leaves to its root and from left to right. -/
def evaluate (scope : Scope) : Tree → Except Fault Value
  | .atom leaf => leaf.evaluate scope
  | .signed sign operand => do
      let value ← operand.evaluate scope
      sign.apply value
  | .binary operator left right => do
      let a ← left.evaluate scope
      let b ← right.evaluate scope
      operator.apply a b

/-! ### The first failing node -/

/-- The subtrees of a tree, one for each node, in post-order from left to right. -/
def nodes : Tree → List Tree
  | .atom leaf => [.atom leaf]
  | .signed sign operand => operand.nodes ++ [.signed sign operand]
  | .binary operator left right => left.nodes ++ right.nodes ++ [.binary operator left right]

/-- The tree has a value. -/
def HasValue (scope : Scope) (tree : Tree) : Prop :=
  ∃ value, tree.evaluate scope = .ok value

/-- The operands of the root have values, and what the root makes of them is this fault. -/
def Fails (scope : Scope) (fault : Fault) : Tree → Prop
  | .atom leaf => leaf.evaluate scope = .error fault
  | .signed sign operand =>
      ∃ value, operand.evaluate scope = .ok value ∧ sign.apply value = .error fault
  | .binary operator left right =>
      ∃ a b, left.evaluate scope = .ok a ∧ right.evaluate scope = .ok b ∧
        operator.apply a b = .error fault

/-- Among these nodes one fails with this fault, and all those before it have values. -/
def FirstFails (scope : Scope) (fault : Fault) (nodes : List Tree) : Prop :=
  ∃ earlier node later, nodes = earlier ++ node :: later ∧
    (∀ tree ∈ earlier, tree.HasValue scope) ∧ node.Fails scope fault

variable {scope : Scope} {fault : Fault}

/-- The first failing node stays the first one when nodes are added behind. -/
theorem FirstFails.append {nodes : List Tree} (h : FirstFails scope fault nodes)
    (others : List Tree) : FirstFails scope fault (nodes ++ others) := by
  obtain ⟨earlier, node, later, rfl, hearlier, hnode⟩ := h
  exact ⟨earlier, node, later ++ others, by simp, hearlier, hnode⟩

/-- It stays the first one when nodes with values are added in front. -/
theorem FirstFails.prepend {nodes others : List Tree} (h : FirstFails scope fault nodes)
    (hothers : ∀ tree ∈ others, tree.HasValue scope) :
    FirstFails scope fault (others ++ nodes) := by
  obtain ⟨earlier, node, later, rfl, hearlier, hnode⟩ := h
  refine ⟨others ++ earlier, node, later, by simp, fun tree hmem ↦ ?_, hnode⟩
  exact (List.mem_append.mp hmem).elim (hothers tree) (hearlier tree)

/-- A node that fails is the first one when all nodes before it have values. -/
theorem Fails.first {tree : Tree} (h : tree.Fails scope fault) {below : List Tree}
    (hbelow : ∀ tree ∈ below, tree.HasValue scope) : FirstFails scope fault (below ++ [tree]) :=
  ⟨below, tree, [], rfl, hbelow, h⟩

/-- When a tree has a value, all its nodes have. -/
theorem HasValue.nodes {tree : Tree} (h : tree.HasValue scope) :
    ∀ node ∈ tree.nodes, node.HasValue scope := by
  induction tree with
  | atom leaf =>
      intro node hmem
      exact List.mem_singleton.mp hmem ▸ h
  | signed sign operand ih =>
      have ⟨_, hvalue⟩ := h
      obtain ⟨value, hvalue, -⟩ := ok_of_bind hvalue
      intro node hmem
      rcases List.mem_append.mp hmem with hmem | hmem
      · exact ih ⟨value, hvalue⟩ node hmem
      · exact List.mem_singleton.mp hmem ▸ h
  | binary operator left right ihleft ihright =>
      have ⟨_, hvalue⟩ := h
      obtain ⟨a, ha, hvalue⟩ := ok_of_bind hvalue
      obtain ⟨b, hb, -⟩ := ok_of_bind hvalue
      intro node hmem
      rcases List.mem_append.mp hmem with hmem | hmem
      · rcases List.mem_append.mp hmem with hmem | hmem
        · exact ihleft ⟨a, ha⟩ node hmem
        · exact ihright ⟨b, hb⟩ node hmem
      · exact List.mem_singleton.mp hmem ▸ h

/-- The fault of a tree is that of its first failing node in post-order. -/
theorem first_fails {tree : Tree} (h : tree.evaluate scope = .error fault) :
    FirstFails scope fault tree.nodes := by
  induction tree with
  | atom leaf =>
      have hfails : (atom leaf).Fails scope fault := h
      exact hfails.first (List.forall_mem_nil _)
  | signed sign operand ih =>
      rcases error_of_bind h with hoperand | ⟨value, hvalue, hsign⟩
      · exact (ih hoperand).append _
      · have hfails : (signed sign operand).Fails scope fault := ⟨value, hvalue, hsign⟩
        exact hfails.first (HasValue.nodes ⟨value, hvalue⟩)
  | binary operator left right ihleft ihright =>
      rw [nodes, List.append_assoc]
      rcases error_of_bind h with hleft | ⟨a, ha, h⟩
      · exact (ihleft hleft).append _
      · refine FirstFails.prepend ?_ (HasValue.nodes ⟨a, ha⟩)
        rcases error_of_bind h with hright | ⟨b, hb, happly⟩
        · exact (ihright hright).append _
        · have hfails : (binary operator left right).Fails scope fault := ⟨a, b, ha, hb, happly⟩
          exact hfails.first (HasValue.nodes ⟨b, hb⟩)

end Tree

/-! ### Tokens -/

/-- The token of a literal or of a variable. -/
def Leaf.token : Leaf → Token
  | .integer number => .integer number
  | .real number => .real number
  | .boolean truth => .boolean truth
  | .name text => .name text

/-- The token of a sign. -/
def Sign.token : Sign → Token
  | .plus => .plus
  | .minus => .minus

end Arithmetic

/-- The token of an operator. -/
def ArithmeticOperator.token : ArithmeticOperator → Token
  | .add => .plus
  | .subtract => .minus
  | .multiply => .star
  | .divide => .slash
  | .remainder => .percent

/-- How strongly an operator binds: `*`, `/` and `%` before `+` and `-`. -/
def ArithmeticOperator.precedence : ArithmeticOperator → Nat
  | .add | .subtract => 1
  | .multiply | .divide | .remainder => 2

namespace Arithmetic

/-- The tokens in parentheses, where they are needed. -/
def parenthesize (needed : Bool) (tokens : List Token) : List Token :=
  if needed then .leftParen :: (tokens ++ [.rightParen]) else tokens

/-- The tokens of a tree in a place for operators that bind at least so strongly. The right operand
of an operator is in parentheses also when its own operator binds equally strongly, because
operators group to the left. -/
def Tree.render (least : Nat) : Tree → List Token
  | .atom leaf => [leaf.token]
  | .signed sign operand => sign.token :: operand.render 3
  | .binary operator left right =>
      parenthesize (operator.precedence < least)
        (left.render operator.precedence ++
          operator.token :: right.render (operator.precedence + 1))

end Arithmetic

end PenScript
