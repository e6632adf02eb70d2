import FormulaSheet.Proofs.Context.Calls

set_option autoImplicit false

namespace FormulaSheet

namespace Formula

theorem foldSign_cases (formula : Formula) :
    (∃ o site value rest, formula = .operator o :: .literal site value :: rest ∧
      o.operation = .subtract ∧
      formula.foldSign =
        .literal ⟨Operation.subtract.text ++ site.text, o.site.place⟩ (-value) :: rest) ∨
      (∀ o site value rest, formula = .operator o :: .literal site value :: rest →
        o.operation ≠ .subtract) ∧ formula.foldSign = formula := by
  unfold foldSign
  split
  next o site value rest =>
    by_cases minus : o.operation = .subtract
    · exact .inl ⟨o, site, value, rest, rfl, minus, if_pos minus⟩
    · refine .inr ⟨?_, if_neg minus⟩
      rintro _ _ _ _ ⟨⟩
      exact minus
  next other => exact .inr ⟨fun o site value rest begins => (other o site value rest begins).elim, rfl⟩

theorem foldSign_idempotent (formula : Formula) :
    formula.foldSign.foldSign = formula.foldSign := by
  rcases formula.foldSign_cases with ⟨o, site, value, rest, -, -, folded⟩ | ⟨-, same⟩
  · rw [folded]
    rfl
  · rw [same, same]

end Formula

namespace Sheet

variable {sheet : Sheet} {run : Function → Callee → Scope → Except Error Answer} {scope : Scope}

theorem formulaValue_several (first second : Part) (rest : Formula) :
    formulaValue sheet run scope (first :: second :: rest) =
      (items sheet run scope (.value none) (first :: second :: rest)).bind
        (Item.reduce sheet.limits sheet.source) := by
  cases first <;> rfl

theorem formulaValue_literal (site : Site) (value : Float) (rest : Formula) :
    formulaValue sheet run scope (.literal site value :: rest) =
      (items sheet run scope (.value none) (.literal site value :: rest)).bind
        (Item.reduce sheet.limits sheet.source) := rfl

theorem items_minus_literal {o : Operator} (minus : o.operation = .subtract) (site folded : Site)
    (value : Float) (rest : Formula) :
    items sheet run scope (.value none) (.operator o :: .literal site value :: rest) =
      items sheet run scope (.value none) (.literal folded (-value) :: rest) := by
  have sign : o.operation.isSign := by
    rw [minus]
    rfl
  calc items sheet run scope (.value none) (.operator o :: .literal site value :: rest)
    _ = items sheet run scope (.value (some o)) (.literal site value :: rest) := by
      rw [items.eq_def]
      exact if_pos sign
    _ = items sheet run scope (.value none) (.literal folded (-value) :: rest) := by
      rw [items_value scope _ rfl, items_value scope _ rfl]
      simp only [partValue, Awaiting.signed, minus, if_true]
      rfl

theorem formulaValue_foldSign (formula : Formula) :
    formulaValue sheet run scope formula.foldSign = formulaValue sheet run scope formula := by
  rcases formula.foldSign_cases with ⟨o, site, value, rest, rfl, minus, folded⟩ | ⟨-, same⟩
  · rw [folded, formulaValue_literal, formulaValue_several, items_minus_literal minus]
  · rw [same]

theorem formulaValue_singleton (part : Part) :
    formulaValue sheet run scope [part] = partValue sheet run scope part := by
  by_cases value : part.isValue
  · exact formulaValue_value value
  · cases part with
    | operator => rfl
    | literal | name | bracket | call => exact absurd rfl value

/-- Folding the sign of any formula, well formed or not, changes neither its value nor its error,
also where one part is left, which then has its value without any reduction. What is folded cannot
be folded further. -/
theorem evaluate_foldSign (sheet : Sheet) (scope : Scope) (formula : Formula) :
    sheet.evaluate scope formula.foldSign = sheet.evaluate scope formula ∧
      (∀ part, formula.foldSign = [part] →
        sheet.evaluate scope formula = sheet.evaluatePart scope part) ∧
      formula.foldSign.foldSign = formula.foldSign := by
  refine ⟨formulaValue_foldSign formula, fun part single => ?_, formula.foldSign_idempotent⟩
  calc sheet.evaluate scope formula
    _ = sheet.evaluate scope formula.foldSign := (formulaValue_foldSign formula).symm
    _ = sheet.evaluatePart scope part := by
      rw [single]
      exact formulaValue_singleton part

theorem evaluate_foldSign_negative :
    Formula.foldSign [.operator ⟨.subtract, ⟨"-", ⟨0, 1, 1⟩⟩⟩, .literal ⟨"3", ⟨1, 1, 2⟩⟩ 3] =
        [.literal ⟨"-3", ⟨0, 1, 1⟩⟩ (-3)] ∧
      (ofSource "-3" {}).evaluate .empty
          [.operator ⟨.subtract, ⟨"-", ⟨0, 1, 1⟩⟩⟩, .literal ⟨"3", ⟨1, 1, 2⟩⟩ 3] =
        (ofSource "-3" {}).evaluatePart .empty (.literal ⟨"-3", ⟨0, 1, 1⟩⟩ (-3)) ∧
      (ofSource "-3" {}).evaluatePart .empty (.literal ⟨"-3", ⟨0, 1, 1⟩⟩ (-3)) = .ok (-3) := by
  refine (and_iff_left_of_imp fun folded => ?_).mpr ?folded
  case folded =>
    have text : Operation.subtract.text ++ "3" = "-3" := by decide
    rw [Formula.foldSign_minus rfl, text]
  exact ⟨(evaluate_foldSign _ _ _).2.1 _ folded, rfl⟩

end Sheet

end FormulaSheet
