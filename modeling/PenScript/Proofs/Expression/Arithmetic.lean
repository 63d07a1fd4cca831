import PenScript.Proofs.Arithmetic.Grammar
import PenScript.Proofs.Expression.Sealed
import PenScript.Proofs.Token.Spelling

/-!
# Texts of arithmetic expressions

An arithmetic expression that is written out has the value of its tree (`Written.formula`). On the
way to the grammar its text loses the parentheses that enclose it, and is found to have no
connective, negation or comparison; neither changes the tree.
-/

namespace PenScript

open Text

/-! ### Plain characters -/

/-- A character that no connective, negation or comparison is written with. -/
def Expression.IsPlain (c : Char) : Prop :=
  c ≠ '&' ∧ c ≠ '|' ∧ c ≠ '!' ∧ c ≠ '<' ∧ c ≠ '>' ∧ c ≠ '='

/-- The characters that mean something outside arithmetic. -/
def Expression.special : List Char :=
  ['"', '(', ')', '&', '|', '!', '<', '>', '=']

open Expression

variable {c : Char}

theorem Expression.plain_of_not_special (h : c ∉ special) :
    Nesting.isMark c = false ∧ IsPlain c := by
  simp only [special, List.mem_cons, not_or] at h
  simp [Nesting.isMark, IsPlain, h]

/-- Blanks are plain. -/
theorem Text.plain_of_blank (h : isBlank c = true) : Nesting.isMark c = false ∧ IsPlain c := by
  refine plain_of_not_special fun hmem ↦ ?_
  have hspecial : special.all (fun c ↦ !isBlank c) = true := rfl
  have hblank := List.all_eq_true.mp hspecial c hmem
  rw [h] at hblank
  cases hblank

namespace Token

/-- Words are plain. -/
theorem IsWordChar.plain (h : IsWordChar c) : Nesting.isMark c = false ∧ IsPlain c := by
  refine plain_of_not_special fun hmem ↦ ?_
  have hspecial : special.all (fun c ↦ !isNameChar c) = true := rfl
  have hname := List.all_eq_true.mp hspecial c hmem
  rcases h with h | rfl | rfl | rfl
  · rw [h] at hname
    cases hname
  all_goals simp [special] at hmem

/-- Marks other than parentheses are plain. -/
theorem plain_of_mark {token : Token} (h : ofMark? c = some token) (hleft : c ≠ '(')
    (hright : c ≠ ')') : Nesting.isMark c = false ∧ IsPlain c := by
  refine plain_of_not_special fun hmem ↦ ?_
  have hmark := (mark_iff c).mp (by rw [h]; rfl)
  rcases hmark with rfl | rfl | rfl | rfl | rfl | rfl | rfl
  · simp [special] at hmem
  · simp [special] at hmem
  · simp [special] at hmem
  · simp [special] at hmem
  · simp [special] at hmem
  · exact hleft rfl
  · exact hright rfl

end Token

/-- No connective starts with this character. -/
theorem Connective.front_eq_none (rest : Text) (h : c ≠ '&' ∧ c ≠ '|') :
    Connective.front? (c :: rest) = none := by
  unfold Connective.front?
  split
  · exact absurd (List.cons.inj ‹_›).1 h.1
  · exact absurd (List.cons.inj ‹_›).1 h.2
  · rfl

/-- No comparison starts with a plain character. -/
theorem Comparison.front_eq_none (rest : Text) (h : IsPlain c) :
    Comparison.front? (c :: rest) = none := by
  obtain ⟨-, -, hnot, hless, hgreater, hequal⟩ := h
  unfold Comparison.front?
  split
  · exact absurd (List.cons.inj ‹_›).1 hless
  · exact absurd (List.cons.inj ‹_›).1 hgreater
  · exact absurd (List.cons.inj ‹_›).1 hequal
  · exact absurd (List.cons.inj ‹_›).1 hnot
  · exact absurd (List.cons.inj ‹_›).1 hless
  · exact absurd (List.cons.inj ‹_›).1 hgreater
  · rfl

/-- A text is no negation when it does not start with an exclamation mark. -/
theorem Expression.negated_eq_none {rest : Text} (h : c ≠ '!') : negated? (c :: rest) = none := by
  unfold negated?
  split
  · exact absurd (List.cons.inj ‹_›).1 h
  · rfl

namespace Arithmetic

open Token (Spelled Separators ofMark?)

variable {text : Text} {tokens : List Token} {tree : Tree} {scope : Scope}

/-- The text is an arithmetic expression with this tree, and blanks around it. -/
inductive Written : Text → Tree → Prop where
  | intro {before spelled after : Text} {tokens : List Token} {tree : Tree}
      (hbefore : Blank before) (hafter : Blank after) (hspelled : Spelled tokens spelled)
      (hderives : Derives .sum tokens tree) : Written (before ++ spelled ++ after) tree

/-- The value of an arithmetic expression is that of its tree. -/
theorem Written.evaluate (h : Written text tree) :
    Arithmetic.evaluate scope text = tree.evaluate scope := by
  obtain ⟨hbefore, hafter, hspelled, hderives⟩ := h
  rw [Arithmetic.evaluate, trim_append hbefore hafter, hspelled.trim.scan]
  exact of_tokens_eq hderives scope

/-- The blanks around an arithmetic expression do not matter. -/
theorem Written.congr {other : Text} (h : Written text tree)
    (htrim : Text.trim other = Text.trim text) : Written other tree := by
  obtain ⟨hbefore, hafter, hspelled, hderives⟩ := h
  obtain ⟨start, stop, hstart, hstop, hother⟩ := exists_blanks other
  rw [htrim, trim_append hbefore hafter] at hother
  rw [hother]
  exact .intro hstart hstop hspelled.trim hderives

/-- An arithmetic expression is not empty. -/
theorem Written.ne_nil (h : Written text tree) : text ≠ [] := by
  obtain ⟨-, -, hspelled, hderives⟩ := h
  intro hempty
  have hscan := hspelled.scan_from
  rw [(List.append_eq_nil_iff.mp (List.append_eq_nil_iff.mp hempty).1).2, Token.scanFrom] at hscan
  exact hderives.ne_nil (Except.ok.inj hscan).symm

/-! ### Parentheses -/

/-- Blanks are sealed. -/
theorem sealed_of_blank (h : Blank text) : Sealed IsPlain text :=
  .of_forall fun c hc ↦ plain_of_blank (h c hc)

/-- One token that is no parenthesis is sealed. -/
theorem sealed_singleton {token : Token} (h : Spelled [token] text)
    (htoken : token ≠ .leftParen ∧ token ≠ .rightParen) : Sealed IsPlain text := by
  cases h with
  | @mark blanks rest c _ _ hblanks hmark hrest =>
      have hc : c ≠ '(' ∧ c ≠ ')' := by
        constructor
        · rintro rfl
          exact htoken.1 (Option.some.inj hmark).symm
        · rintro rfl
          exact htoken.2 (Option.some.inj hmark).symm
      obtain ⟨hmark, hplain⟩ := Token.plain_of_mark hmark hc.1 hc.2
      cases hrest with
      | nil hrest =>
          exact (sealed_of_blank hblanks.blank).append
            (.char hmark hplain (sealed_of_blank hrest.blank))
  | @word blanks part rest _ _ hblanks hpart hends hrest =>
      cases hrest with
      | nil hrest =>
          exact ((sealed_of_blank hblanks.blank).append
            (.of_forall fun c hc ↦ (hpart.word_chars c hc).plain)).append
              (sealed_of_blank hrest.blank)

theorem leaf_token_ne (leaf : Leaf) : leaf.token ≠ .leftParen ∧ leaf.token ≠ .rightParen := by
  cases leaf <;> exact ⟨nofun, nofun⟩

theorem sign_token_ne (sign : Sign) : sign.token ≠ .leftParen ∧ sign.token ≠ .rightParen := by
  cases sign <;> exact ⟨nofun, nofun⟩

theorem operator_token_ne (operator : ArithmeticOperator) :
    operator.token ≠ .leftParen ∧ operator.token ≠ .rightParen := by
  cases operator <;> exact ⟨nofun, nofun⟩

/-- A token that is no parenthesis before a sealed text. -/
theorem sealed_cons {token : Token} (h : Spelled (token :: tokens) text)
    (htoken : token ≠ .leftParen ∧ token ≠ .rightParen)
    (htokens : ∀ {text}, Spelled tokens text → Sealed IsPlain text) : Sealed IsPlain text := by
  have hparts : Spelled ([token] ++ tokens) text := h
  obtain ⟨left, right, rfl, hleft, hright⟩ := hparts.split
  exact (sealed_singleton hleft htoken).append (htokens hright)

/-- A text in two parts that are sealed. -/
theorem sealed_append {first others : List Token} (h : Spelled (first ++ others) text)
    (hfirst : ∀ {text}, Spelled first text → Sealed IsPlain text)
    (hothers : ∀ {text}, Spelled others text → Sealed IsPlain text) : Sealed IsPlain text := by
  obtain ⟨left, right, rfl, hleft, hright⟩ := h.split
  exact (hfirst hleft).append (hothers hright)

/-- Tokens between parentheses are written between parentheses. -/
theorem spelled_parentheses (h : Spelled (.leftParen :: (tokens ++ [.rightParen])) text) :
    ∃ before inner stop after, Separators before ∧ Separators stop ∧ Separators after ∧
      Spelled tokens inner ∧ text = before ++ '(' :: (inner ++ stop ++ ')' :: after) := by
  obtain ⟨before, rest, hbefore, rfl, hrest⟩ := h.of_mark (c := '(') rfl
  obtain ⟨inner, close, rfl, hinner, hclose⟩ := hrest.split
  obtain ⟨stop, after, hstop, rfl, hafter⟩ := hclose.of_mark (c := ')') rfl
  cases hafter with
  | nil hafter => exact ⟨before, inner, stop, after, hbefore, hstop, hafter, hinner, by simp⟩

/-- The text of a sentence is sealed. -/
theorem Derives.sealed {phrase : Phrase} (h : Derives phrase tokens tree) {text : Text}
    (hspelled : Spelled tokens text) : Sealed IsPlain text := by
  induction h generalizing text with
  | sum _ _ ihfirst ihothers | product _ _ ihfirst ihothers =>
      exact sealed_append hspelled ihfirst ihothers
  | noTerm | noFactor =>
      cases hspelled with
      | nil hblanks => exact sealed_of_blank hblanks.blank
  | @term operator _ _ _ _ _ _ _ _ ihfirst ihothers
  | @moreFactors operator _ _ _ _ _ _ _ _ ihfirst ihothers =>
      exact sealed_cons hspelled (operator_token_ne operator) fun hrest ↦
        sealed_append hrest ihfirst ihothers
  | @signed sign _ _ _ ih => exact sealed_cons hspelled (sign_token_ne sign) ih
  | unsigned _ ih => exact ih hspelled
  | @leaf leaf => exact sealed_singleton hspelled (leaf_token_ne leaf)
  | parentheses _ ih =>
      obtain ⟨before, inner, stop, after, hbefore, hstop, hafter, hinner, rfl⟩ :=
        spelled_parentheses hspelled
      have hinside := (ih hinner).append (sealed_of_blank hstop.blank)
      exact (sealed_of_blank hbefore.blank).append
        (.parentheses (hinside.mono fun _ _ ↦ trivial) (sealed_of_blank hafter.blank))

/-- The text of an arithmetic expression is sealed. -/
theorem Written.sealed (h : Written text tree) : Sealed IsPlain text := by
  obtain ⟨hbefore, hafter, hspelled, hderives⟩ := h
  exact ((sealed_of_blank hbefore).append (hderives.sealed hspelled)).append
    (sealed_of_blank hafter)

/-! ### Parentheses that enclose an expression -/

/-- Either one pair of parentheses encloses the tokens, and the tree is that of the inside, or a
part that is sealed ends before a token that is no opening parenthesis. -/
def Opens (tokens : List Token) (tree : Tree) : Prop :=
  (∃ inner, tokens = .leftParen :: (inner ++ [.rightParen]) ∧ Derives .sum inner tree) ∨
    ∃ first token others, tokens = first ++ token :: others ∧ token ≠ .leftParen ∧
      ∀ {text}, Spelled first text → Sealed IsPlain text

/-- A repetition is empty, or starts with an operator. -/
def Continues (others : List Token) (tree left : Tree) : Prop :=
  (others = [] ∧ tree = left) ∨
    ∃ (operator : ArithmeticOperator) (rest : List Token), others = operator.token :: rest

/-- Tokens with a repetition behind them. -/
theorem Opens.append {first others : List Token} {left : Tree} (h : Opens first left)
    (hothers : Continues others tree left) : Opens (first ++ others) tree := by
  rcases hothers with ⟨rfl, rfl⟩ | ⟨operator, rest, rfl⟩
  · rwa [List.append_nil]
  · rcases h with ⟨inner, rfl, hinner⟩ | ⟨part, token, others, rfl, htoken, hpart⟩
    · refine .inr ⟨_, operator.token, rest, rfl, (operator_token_ne operator).1, ?_⟩
      exact (Derives.parentheses hinner).sealed
    · exact .inr ⟨part, token, others ++ operator.token :: rest, by simp, htoken, hpart⟩

/-- A single token that is no parenthesis opens nothing. -/
theorem Opens.token {token : Token} (htoken : token ≠ .leftParen) (others : List Token) :
    Opens (token :: others) tree := by
  refine .inr ⟨[], token, others, rfl, htoken, fun {text} hempty ↦ ?_⟩
  cases hempty with
  | nil hblanks => exact sealed_of_blank hblanks.blank

theorem Derives.continues_terms {left : Tree} (h : Derives (.terms left) tokens tree) :
    Continues tokens tree left := by
  cases h with
  | noTerm => exact .inl ⟨rfl, rfl⟩
  | term _ _ _ => exact .inr ⟨_, _, rfl⟩

theorem Derives.continues_factors {left : Tree} (h : Derives (.factors left) tokens tree) :
    Continues tokens tree left := by
  cases h with
  | noFactor => exact .inl ⟨rfl, rfl⟩
  | moreFactors _ _ _ => exact .inr ⟨_, _, rfl⟩

/-- How a sentence starts. -/
theorem Derives.opens (h : Derives .sum tokens tree) : Opens tokens tree := by
  cases h with
  | sum hproduct hterms =>
      refine Opens.append ?_ hterms.continues_terms
      cases hproduct with
      | product hfactor hfactors =>
          refine Opens.append ?_ hfactors.continues_factors
          cases hfactor with
          | @signed sign _ _ _ => exact .token (sign_token_ne sign).1 _
          | unsigned hatom =>
              cases hatom with
              | @leaf leaf => exact .token (leaf_token_ne leaf).1 _
              | parentheses hinner => exact .inl ⟨_, rfl, hinner⟩

/-- Either parentheses enclose an arithmetic expression, and its inside is one with the same tree,
or a part that is sealed ends before something else. -/
theorem Written.cases (h : Written text tree) :
    (∃ before inner after, Blank before ∧ Blank after ∧ Written inner tree ∧
      text = before ++ '(' :: (inner ++ ')' :: after)) ∨
    ∃ left c right, Text.trim text = left ++ c :: right ∧ Sealed IsPlain left ∧ c ≠ '(' := by
  obtain ⟨hbefore, hafter, hspelled, hderives⟩ := h
  rename_i before spelled after tokens
  rcases hderives.opens with ⟨inner, rfl, hinner⟩ | ⟨first, token, others, rfl, htoken, hfirst⟩
  · obtain ⟨start, middle, stop, finish, hstart, hstop, hfinish, hmiddle, rfl⟩ :=
      spelled_parentheses hspelled
    refine .inl ⟨before ++ start, middle ++ stop, finish ++ after,
      List.forall_mem_append.mpr ⟨hbefore, hstart.blank⟩,
      List.forall_mem_append.mpr ⟨hfinish.blank, hafter⟩, ?_, by simp⟩
    simpa using Written.intro (List.forall_mem_nil _) hstop.blank hmiddle hinner
  · rw [trim_append hbefore hafter]
    obtain ⟨left, right, htrim, hleft, hright⟩ := hspelled.trim.split
    refine .inr ?_
    rw [htrim]
    cases hright with
    | @mark blanks rest c _ _ hblanks hmark _ =>
        refine ⟨left ++ blanks, c, rest, by simp,
          (hfirst hleft).append (sealed_of_blank hblanks.blank), ?_⟩
        rintro rfl
        exact htoken (Option.some.inj hmark).symm
    | @word blanks part rest _ _ hblanks hpart _ _ =>
        obtain ⟨c, part, rfl⟩ := List.exists_cons_of_ne_nil hpart.ne_nil
        refine ⟨left ++ blanks, c, part ++ rest, by simp,
          (hfirst hleft).append (sealed_of_blank hblanks.blank), ?_⟩
        rintro rfl
        have hopen := (hpart.word_chars '(' List.mem_cons_self).plain.1
        cases hopen

/-! ### The value of the text -/

/-- What is left of an arithmetic expression has no further parentheses around it, or it has the
value of what is between them. -/
theorem Written.formula (h : Written text tree) (scope : Scope) :
    Expression.formula scope text = tree.evaluate scope := by
  induction hlength : text.length using Nat.strong_induction_on generalizing text with
  | _ length ih =>
      rcases h.cases with ⟨before, inner, after, hbefore, hafter, hinner, rfl⟩ |
        ⟨left, c, right, htrim, hleft, hc⟩
      · have hsealed : Sealed (fun _ ↦ True) inner := hinner.sealed.mono fun _ _ ↦ trivial
        rw [formula_congr (core_parentheses hbefore hafter hsealed)]
        refine ih inner.length ?_ hinner rfl
        simp only [List.length_append, List.length_cons] at hlength
        omega
      · have hcore : core text = Text.trim text :=
          core_of_not_enclosed (htrim ▸ enclosed_none (hleft.after 0) hc)
        have hwritten : Written (Text.trim text) tree := h.congr (trim_trim text)
        have hconnective := hwritten.sealed.find_operator_none fun c rest (hc : IsPlain c) ↦
          Connective.front_eq_none rest ⟨hc.1, hc.2.1⟩
        have hcomparison := hwritten.sealed.find_operator_none fun c rest (hc : IsPlain c) ↦
          Comparison.front_eq_none rest hc
        have hnegated : negated? (Text.trim text) = none := by
          cases hstart : Text.trim text with
          | nil => rfl
          | cons d others =>
              refine negated_eq_none ?_
              rcases (hstart ▸ hwritten.sealed : Sealed IsPlain (d :: others)).head with rfl | hd
              · decide
              · exact hd.2.2.1
        have hsome : ¬ (Text.trim text).isEmpty = true := by simp [htrim]
        rw [formula_eq, hcore, if_neg hsome, hconnective]
        dsimp only
        rw [hnegated]
        dsimp only
        rw [comparison, hcomparison]
        exact hwritten.evaluate

/-- The value of a sealed text is that of a formula. -/
theorem value_of_sealed {free : Char → Prop} (h : Sealed free text) (scope : Scope) :
    Expression.value scope text = Expression.formula scope text :=
  if_neg (by simpa using h.no_quote)

/-- The value of a text that the tokens of a tree are written as. -/
theorem evaluate_spelled (hspelled : Spelled (tree.render 1) text) (scope : Scope) :
    Expression.evaluate scope text = Expression.report text (tree.evaluate scope) := by
  have hwritten := Written.intro (List.forall_mem_nil _) (List.forall_mem_nil _) hspelled
    (tree.derives_render 1)
  rw [List.nil_append, List.append_nil] at hwritten
  rw [Expression.evaluate, value_of_sealed hwritten.sealed, hwritten.formula]

end Arithmetic

open Arithmetic

/-- Arithmetic is computed as its grammar says. A token list has a value exactly if it is a sentence
whose tree has that value; a sentence has one tree, and its fault is the fault of that tree. The
tokens of a tree, with parentheses only where they are needed, are the shortest sentence for it, and
a text that they are written as has the value of the tree. A fault is that of the first node in
post-order that fails. -/
theorem arithmetic_follows_grammar (scope : Scope) :
    (∀ tokens value, ofTokens scope tokens = .ok value ↔
      ∃ tree, Derives .sum tokens tree ∧ tree.evaluate scope = .ok value) ∧
    (∀ tokens tree, Derives .sum tokens tree → ofTokens scope tokens = tree.evaluate scope ∧
      ∀ other, Derives .sum tokens other → other = tree) ∧
    (∀ tree : Tree, Derives .sum (tree.render 1) tree ∧
      (∀ tokens, Derives .sum tokens tree → (tree.render 1).length ≤ tokens.length) ∧
      ∀ text, Token.Spelled (tree.render 1) text →
        Expression.evaluate scope text = Expression.report text (tree.evaluate scope)) ∧
    ∀ (tree : Tree) fault, tree.evaluate scope = .error fault →
      Tree.FirstFails scope fault tree.nodes := by
  refine ⟨fun tokens value ↦ of_tokens_eq_ok_iff, fun tokens tree hderives ↦
    ⟨of_tokens_eq hderives scope, fun other hother ↦ hother.unique hderives⟩, fun tree ↦ ?_,
    fun tree fault hfault ↦ Tree.first_fails hfault⟩
  have hrender : Derives .sum (tree.render 1) tree := tree.derives_render 1
  refine ⟨hrender, fun tokens hderives ↦ ?_, fun text hspelled ↦ evaluate_spelled hspelled scope⟩
  simpa [Phrase.least, Phrase.before] using hderives.length_render_le

/-- A product of a sum and an opposite needs one pair of parentheses. -/
theorem arithmetic_follows_grammar_product :
    let scope : Scope := NameMap.empty.insert ['x'] (.integer 4)
    let sum : Tree := .binary .add (.atom (.integer 1)) (.atom (.integer 2))
    let tree : Tree := .binary .multiply sum (.signed .minus (.atom (.name ['x'])))
    Token.Spelled (tree.render 1) "(1 + 2) * -x".toList ∧
      Expression.evaluate scope "(1 + 2) * -x".toList = .ok (.integer (-12)) := by
  intro scope sum tree
  have hname : Token.Spelled [.name ['x']] ['x'] :=
    @Token.Spelled.word [] ['x'] _ _ _ (by decide) (.word rfl) (by decide) (.nil (by decide))
  have hfactor : Token.Spelled [.rightParen, .star, .minus, .name ['x']] ") * -x".toList :=
    @Token.Spelled.mark [] _ ')' _ _ (by decide) rfl <|
    @Token.Spelled.mark [' '] _ '*' _ _ (by decide) rfl <|
    @Token.Spelled.mark [' '] _ '-' _ _ (by decide) rfl hname
  have hspelled : Token.Spelled (tree.render 1) "(1 + 2) * -x".toList :=
    @Token.Spelled.mark [] _ '(' _ _ (by decide) rfl <|
    @Token.Spelled.word [] ['1'] _ _ _ (by decide) (.integer (by decide) (by decide) rfl)
      (by decide) <|
    @Token.Spelled.mark [' '] _ '+' _ _ (by decide) rfl <|
    @Token.Spelled.word [' '] ['2'] _ _ _ (by decide) (.integer (by decide) (by decide) rfl)
      (by decide) hfactor
  exact ⟨hspelled, ((arithmetic_follows_grammar scope).2.2.1 tree).2.2 _ hspelled⟩

end PenScript
