import PenScript.Proofs.Error.Result
import PenScript.Proofs.Expression.Sealed

/-!
# Concatenation

A text with quotes is a concatenation: it is cut at its plus signs outside quotes and parentheses,
and the texts of the parts are joined. What a quoted part holds is never looked at, so it may
imitate any other syntax; the parts without quotes are formulas.

`Operand` is a part that can stand between two plus signs, and `Operand.value_joined` says how a
text that is joined from operands is evaluated. Parentheses at its two ends are no obstacle, because
no pair of them encloses a text with a plus sign outside (`enclosed_none`).
-/

namespace PenScript

open Text

/-! ### Quotes -/

namespace Nesting

variable {isCut : Char → Bool} {text : Text}

/-- Nothing but a quote ends a quote. -/
theorem next_quoted {c : Char} (hc : c ≠ '"') (depth : Int) :
    (Nesting.mk depth true).next c = ⟨depth, true⟩ := by
  rw [next, if_neg hc]
  rfl

/-- What a quote holds is skipped. -/
theorem skip_quoted (h : '"' ∉ text) (depth : Int) :
    (Nesting.mk depth true).after text = ⟨depth, true⟩ ∧ Encloses isCut ⟨depth, true⟩ text := by
  induction text with
  | nil => exact ⟨rfl, encloses_iff.mpr rfl⟩
  | cons c rest ih =>
      rw [List.mem_cons, not_or] at h
      obtain ⟨hafter, hencloses⟩ := ih h.2
      rw [after_cons, encloses_cons, next_quoted (Ne.symm h.1)]
      refine ⟨hafter, fun _ ↦ ?_, hencloses⟩
      simp [isFree, isOutside]

end Nesting

namespace Expression

/-- A part of a concatenation does not depend on the blanks around it. -/
theorem segment_trim (scope : Scope) (text : Text) :
    segment scope (trim text) = segment scope text := by
  unfold segment
  rw [trim_trim]

/-- The error that is reported names the text and the failure of its evaluation. -/
theorem error_of_report {α : Type} {text : Text} {result : Except Fault α} {error : Error}
    (h : report text result = .error error) :
    ∃ fault, error = .expression (trim text) fault ∧ result = .error fault := by
  cases result with
  | error fault => exact ⟨fault, (Except.error.inj h).symm, rfl⟩
  | ok value => cases h

/-- The text in quotes. -/
def quoted (inner : Text) : Text :=
  '"' :: (inner ++ ['"'])

section Quoted

variable {inner : Text}

/-- A text in quotes is balanced and encloses everything. -/
theorem quoted_balanced (h : '"' ∉ inner) (separator : Char) :
    Text.Balanced (quoted inner) ∧ Text.Encloses separator (quoted inner) := by
  obtain ⟨hafter, hencloses⟩ := @Nesting.skip_quoted (· == separator) inner h 0
  have hopen : Nesting.start.next '"' = ⟨0, true⟩ := rfl
  have hmark : ('"' == separator) = true → (Nesting.mk 0 true).isFree '"' = false := fun _ ↦ rfl
  constructor
  · rw [Text.Balanced, quoted, Nesting.after_cons, hopen, Nesting.after_append, hafter]
    rfl
  · rw [Text.Encloses, quoted, Nesting.encloses_cons, hopen, Nesting.encloses_append, hafter,
      Nesting.encloses_cons]
    exact ⟨fun _ ↦ rfl, hencloses, hmark, Nesting.encloses_iff.mpr rfl⟩

/-- There are no blanks around a text in quotes. -/
theorem trim_quoted (inner : Text) : trim (quoted inner) = quoted inner := by
  have hend : trimEnd (quoted inner) = quoted inner :=
    trim_end_append_cons (c := '"') rfl ('"' :: inner) []
  rw [trim, trimStart, quoted, List.dropWhile_cons_of_neg (by decide)]
  exact hend

/-- A text in quotes is a literal. -/
theorem literal_quoted (h : '"' ∉ inner) : literal? (quoted inner) = some inner := by
  have hcontains : inner.contains '"' = false := by
    rw [← Bool.not_eq_true, List.contains_iff_mem]
    exact h
  rw [quoted, literal?, drop_last_concat, Option.bind_some, hcontains]
  rfl

/-- A literal is in quotes. -/
theorem literal_none {text : Text} (h : '"' ∉ text) : literal? text = none := by
  unfold literal?
  split
  · exact absurd List.mem_cons_self h
  · rfl

end Quoted

/-! ### Values of parts -/

section Parts

variable {scope : Scope} {text : Text}

/-- A part with a quote is a literal, or else malformed, so its value is a text if it has one. -/
theorem segment_of_quote (hquote : '"' ∈ text) {found : Value}
    (h : segment scope text = .ok found) : ∃ string, found = .string string := by
  unfold segment at h
  dsimp only at h
  split at h
  · cases h
  · split at h
    · exact ⟨_, (Except.ok.inj h).symm⟩
    · rw [if_pos (List.contains_iff_mem.mpr ((mem_trim rfl).mpr hquote))] at h
      cases h

/-- Values with a text among them are not added. -/
theorem combined_of_string {values : List Value} {string : Text} (h : .string string ∈ values) :
    combined values = .ok (.string (values.flatMap Value.text)) := by
  have hmixed : ¬ values.all Value.isNumber = true := by
    intro hnumbers
    cases List.all_eq_true.mp hnumbers _ h
  unfold combined
  exact if_neg hmixed

/-- A text is only evaluated as a concatenation when it holds a quote. The part in which the quote
is fails or has a text for its value, so the values of the parts are never added. -/
theorem concatenation_of_quote (hquote : '"' ∈ text) (scope : Scope) :
    concatenation scope text = (do
      let values ← (splitOutside '+' text).mapM (segment scope)
      pure (.string (values.flatMap Value.text))) := by
  obtain ⟨part, hpart, hmem⟩ := @exists_mem_of_mem_join (splitOutside '+' text) ['+'] '"'
    (by decide) (by rwa [join_split_outside])
  unfold concatenation
  cases hvalues : (splitOutside '+' text).mapM (segment scope) with
  | error fault => rfl
  | ok values =>
      obtain ⟨found, hfound, hsegment⟩ := ok_of_mapM hvalues part hpart
      obtain ⟨string, rfl⟩ := segment_of_quote hmem hsegment
      exact combined_of_string hfound

/-- The value of a text with a quote. -/
theorem value_of_quote (hquote : '"' ∈ text) (scope : Scope) :
    value scope text = (do
      let values ← (splitOutside '+' (core text)).mapM (segment scope)
      pure (.string (values.flatMap Value.text))) := by
  rw [value, if_pos (List.contains_iff_mem.mpr hquote),
    concatenation_of_quote ((quote_mem_core text).mpr hquote)]

end Parts

/-! ### Operands -/

/-- A formula that can stand between plus signs: it is not blank, has no quotes, its parentheses are
balanced, and all plus signs of it are inside them. -/
structure Joinable (text : Text) : Prop where
  some : ¬ Blank text
  unquoted : '"' ∉ text
  balanced : Text.Balanced text
  encloses : Text.Encloses '+' text

instance (text : Text) : Decidable (Joinable text) :=
  decidable_of_iff (¬ Blank text ∧ '"' ∉ text ∧ Text.Balanced text ∧ Text.Encloses '+' text)
    ⟨fun ⟨h, h₁, h₂, h₃⟩ ↦ ⟨h, h₁, h₂, h₃⟩, fun ⟨h, h₁, h₂, h₃⟩ ↦ ⟨h, h₁, h₂, h₃⟩⟩

/-- An operand of a concatenation: a literal, which holds anything but quotes, or a formula. -/
inductive Operand where
  | literal (inner : Text) (unquoted : '"' ∉ inner)
  | formula (text : Text) (joinable : Joinable text)

namespace Operand

/-- The operand is a literal. -/
def IsLiteral : Operand → Prop
  | .literal _ _ => True
  | .formula _ _ => False

/-- An operand as it is written. -/
def text : Operand → Text
  | .literal inner _ => quoted inner
  | .formula text _ => text

/-- The value of an operand. -/
def value (scope : Scope) : Operand → Except Error Value
  | .literal inner _ => .ok (.string inner)
  | .formula text _ => evaluate scope text

/-- Operands with plus signs between them. -/
def joined (operands : List Operand) : Text :=
  join " + ".toList (operands.map text)

/-- An operand can be told from its neighbours. -/
theorem balanced (operand : Operand) :
    Text.Balanced operand.text ∧ Text.Encloses '+' operand.text := by
  cases operand with
  | literal inner h => exact quoted_balanced h '+'
  | formula text h => exact ⟨h.balanced, h.encloses⟩

/-- An operand between plus signs has its own value. -/
theorem segment_text (scope : Scope) (operand : Operand) :
    report operand.text (segment scope operand.text) = operand.value scope := by
  cases operand with
  | literal inner h =>
      have hsegment : segment scope (quoted inner) = .ok (.string inner) := by
        unfold segment
        simp only [trim_quoted, literal_quoted h]
        rfl
      rw [text, hsegment]
      rfl
  | formula text h =>
      have hnone : '"' ∉ trim text := mt (mem_trim rfl).mp h.unquoted
      have hsome : (trim text).isEmpty = false :=
        List.isEmpty_eq_false_iff.mpr (mt blank_of_trim h.some)
      have hsegment : segment scope text = Expression.value scope text := by
        unfold segment Expression.value
        simp only [hsome, literal_none hnone, List.contains_iff_mem, hnone, h.unquoted,
          formula_congr (core_congr (trim_trim text))]
        rfl
      rw [Operand.text, hsegment]
      rfl

/-! ### Operands with plus signs between them -/

variable {operands : List Operand}

theorem joined_cons (operand next : Operand) (rest : List Operand) :
    joined (operand :: next :: rest) =
      (operand.text ++ [' ']) ++ '+' :: ([' '] ++ joined (next :: rest)) := by
  simp only [joined, List.map_cons, join_cons_cons, List.append_assoc]
  rfl

/-- Joined operands are split into the operands again. -/
theorem map_trim_split_joined (hsome : operands ≠ []) :
    (splitOutside '+' (joined operands)).map trim =
      operands.map fun operand ↦ trim operand.text := by
  induction operands with
  | nil => exact absurd rfl hsome
  | cons operand rest ih =>
      obtain ⟨hbalanced, hencloses⟩ := operand.balanced
      cases rest with
      | nil =>
          rw [joined, List.map_singleton, join_singleton, split_outside_of_encloses hencloses]
          rfl
      | cons next rest =>
          have hblank : Blank [' '] := by decide
          have hnone : Blank [] := List.forall_mem_nil _
          have hpiece : Text.Balanced (operand.text ++ [' ']) := by
            rw [Text.Balanced, Nesting.after_append, Nesting.after_blank hblank]
            exact hbalanced
          have hfirst : Text.Encloses '+' (operand.text ++ [' ']) := by
            rw [Text.Encloses, Nesting.encloses_append, hbalanced]
            exact ⟨hencloses, (by decide : Text.Encloses '+' [' '])⟩
          have htrim : trim (operand.text ++ [' ']) = trim operand.text :=
            trim_append hnone hblank operand.text
          have hothers :=
            @map_trim_split_outside '+' rfl [' '] (joined (next :: rest)) [] hblank hnone
          rw [List.append_nil] at hothers
          rw [joined_cons, split_outside_cons rfl hpiece hfirst, List.map_cons, hothers,
            ih (List.cons_ne_nil _ _), htrim]
          rfl

/-- No parentheses enclose all operands, and a quote is in a literal among them. -/
theorem core_joined (hliteral : ∃ operand ∈ operands, operand.IsLiteral) :
    core (joined operands) = trim (joined operands) := by
  refine core_of_not_enclosed ?_
  match operands with
  | [] =>
      obtain ⟨_, hmem, -⟩ := hliteral
      cases hmem
  | [.literal inner h] =>
      have hjoined : joined [.literal inner h] = quoted inner := join_singleton _ _
      rw [hjoined, trim_quoted]
      rfl
  | [.formula text h] =>
      obtain ⟨_, hmem, hoperand⟩ := hliteral
      obtain rfl := List.mem_singleton.mp hmem
      cases hoperand
  | operand :: next :: rest =>
      obtain ⟨hbalanced, -⟩ := operand.balanced
      have hstart : Text.Balanced (trimStart (operand.text ++ [' '])) := by
        rw [Text.Balanced, Nesting.after_trim_start, Nesting.after_append, hbalanced]
        rfl
      have htrim := trim_around (List.cons_ne_nil '+' []) (List.forall_mem_singleton.mpr rfl)
        (operand.text ++ [' ']) ([' '] ++ joined (next :: rest))
      rw [List.append_assoc, List.singleton_append] at htrim
      rw [joined_cons, htrim, List.append_assoc, List.singleton_append]
      exact enclosed_none hstart (by decide)

/-- There is a quote in a text that is joined with a literal. -/
theorem quote_mem_joined (hliteral : ∃ operand ∈ operands, operand.IsLiteral) :
    '"' ∈ joined operands := by
  obtain ⟨operand, hmem, hoperand⟩ := hliteral
  cases operand with
  | literal inner h =>
      have hpiece : quoted inner ∈ operands.map text := List.mem_map_of_mem hmem
      exact mem_join_of_mem hpiece List.mem_cons_self
  | formula => cases hoperand

/-- A text that is joined from operands, a literal among them, has the texts of the values of the
operands for its value. -/
theorem value_joined (hliteral : ∃ operand ∈ operands, operand.IsLiteral) (scope : Scope) :
    Expression.value scope (joined operands) = (do
      let values ← operands.mapM fun operand ↦ segment scope operand.text
      pure (.string (values.flatMap Value.text))) := by
  have hsome : operands ≠ [] := by
    rintro rfl
    obtain ⟨_, hmem, -⟩ := hliteral
    cases hmem
  have hblanks := map_trim_split_joined hsome
  obtain ⟨before, after, hbefore, hafter, htext⟩ := exists_blanks (joined operands)
  have hparts : (splitOutside '+' (trim (joined operands))).map trim =
      operands.map fun operand ↦ trim operand.text := by
    rw [← hblanks]
    conv_rhs => rw [htext]
    exact (map_trim_split_outside rfl hbefore hafter).symm
  -- The parts are trimmed before they are evaluated, so only the trimmed parts matter.
  have hsegments (texts : List Text) :
      texts.mapM (segment scope) = (texts.map trim).mapM (segment scope) := by
    rw [List.mapM_map]
    exact mapM_congr fun text _ ↦ (segment_trim scope text).symm
  have hoperands : (operands.map fun operand ↦ trim operand.text).mapM (segment scope) =
      operands.mapM fun operand ↦ segment scope operand.text := by
    rw [List.mapM_map]
    exact mapM_congr fun operand _ ↦ segment_trim scope operand.text
  rw [value_of_quote (quote_mem_joined hliteral), core_joined hliteral, hsegments, hparts,
    hoperands]

end Operand

/-- A text with quotes has a text for its value, if it has one. -/
theorem string_of_quote {text : Text} (hquote : '"' ∈ text) {scope : Scope} {found : Value}
    (h : value scope text = .ok found) : ∃ string, found = .string string := by
  rw [value_of_quote hquote] at h
  obtain ⟨values, -, hfound⟩ := ok_of_bind h
  exact ⟨_, (Except.ok.inj hfound).symm⟩

/-- Operands with plus signs between them, at least one of which is a literal, are joined: the value
is the inside of the literals and the texts of the values of the other operands, in order. When an
operand fails, the whole fails with the cause of the first one that does. And a text with a quote
never has a value other than a text. -/
theorem concatenation_joins (scope : Scope) :
    (∀ operands : List Operand, (∃ operand ∈ operands, operand.IsLiteral) →
      (∀ values, operands.mapM (Operand.value scope) = .ok values →
        evaluate scope (Operand.joined operands) =
          .ok (.string (values.flatMap Value.text))) ∧
      ∀ before operand after error, operands = before ++ operand :: after →
        (∀ other ∈ before, ∃ value, other.value scope = .ok value) →
        operand.value scope = .error error →
        ∃ fault, error = .expression (trim operand.text) fault ∧
          evaluate scope (Operand.joined operands) =
            .error (.expression (trim (Operand.joined operands)) fault)) ∧
    ∀ text found, '"' ∈ text → evaluate scope text = .ok found →
      ∃ string, found = .string string := by
  refine ⟨fun operands hliteral ↦ ⟨fun values hvalues ↦ ?_, ?_⟩, fun text found hquote h ↦ ?_⟩
  · have hreported : operands.mapM
        (fun operand ↦ report operand.text (segment scope operand.text)) = .ok values :=
      (mapM_congr fun operand _ ↦ operand.segment_text scope).trans hvalues
    have hsegments : operands.mapM (fun operand ↦ segment scope operand.text) = .ok values :=
      mapM_of_map_error hreported
    rw [evaluate, Operand.value_joined hliteral, hsegments]
    rfl
  · rintro before operand after error rfl hbefore hoperand
    have hvalues : ∀ other ∈ before, ∃ value, segment scope other.text = .ok value := by
      intro other hmem
      obtain ⟨value, hvalue⟩ := hbefore other hmem
      exact ⟨value, ok_of_map_error (hvalue ▸ other.segment_text scope)⟩
    obtain ⟨fault, herror, hfault⟩ := error_of_report ((operand.segment_text scope).trans hoperand)
    have hsegments : (before ++ operand :: after).mapM
        (fun operand ↦ segment scope operand.text) = .error fault := mapM_error hvalues hfault
    refine ⟨fault, herror, ?_⟩
    rw [evaluate, Operand.value_joined hliteral, hsegments]
    rfl
  · exact string_of_quote hquote (ok_of_map_error h)

/-- Marks in a literal are text, and of two operands that fail the first one counts. -/
theorem concatenation_joins_marks :
    evaluate (NameMap.insert NameMap.empty "n".toList (.integer 4))
        "\"&& +(\" + (1 + n) * 2".toList = .ok (.string "&& +(10".toList) ∧
      evaluate NameMap.empty "\") \" + n + -m ".toList =
        .error (.expression "\") \" + n + -m".toList (.undefinedVariable "n".toList)) := by
  constructor
  · let scope : Scope := NameMap.insert NameMap.empty "n".toList (.integer 4)
    let operands : List Operand :=
      [.literal "&& +(".toList (by decide), .formula "(1 + n) * 2".toList (by decide)]
    have hcomputed : ((evaluate scope "(1 + n) * 2".toList).toOption.bind Value.integer?) =
        some 10 := by decide +kernel
    have hvalue : evaluate scope "(1 + n) * 2".toList = .ok (.integer 10) := by
      generalize evaluate scope "(1 + n) * 2".toList = result at hcomputed ⊢
      match result with
      | .ok (.integer number) => rw [Option.some.inj hcomputed]
    have hvalues : operands.mapM (Operand.value scope) =
        .ok [.string "&& +(".toList, .integer 10] := by
      simp only [operands, List.mapM_cons, List.mapM_nil, Operand.value, hvalue]
      rfl
    have htext : Operand.joined operands = "\"&& +(\" + (1 + n) * 2".toList := by decide
    have hjoins := ((concatenation_joins scope).1 operands ⟨_, List.mem_cons_self, trivial⟩).1 _
      hvalues
    rwa [htext] at hjoins
  · let operands : List Operand :=
      [.literal ") ".toList (by decide), .formula "n".toList (by decide),
        .formula "-m ".toList (by decide)]
    have hfault : evaluate NameMap.empty "n".toList =
        .error (.expression "n".toList (.undefinedVariable "n".toList)) := by
      with_unfolding_all rfl
    have htext : Operand.joined operands = "\") \" + n + -m ".toList := by decide
    obtain ⟨fault, herror, hjoins⟩ := ((concatenation_joins NameMap.empty).1 operands
      ⟨_, List.mem_cons_self, trivial⟩).2 [.literal ") ".toList (by decide)] _ _ _ rfl
      (List.forall_mem_singleton.mpr ⟨_, rfl⟩) hfault
    obtain ⟨-, rfl⟩ := Error.expression.inj herror
    rw [htext] at hjoins
    exact hjoins

end Expression

end PenScript
