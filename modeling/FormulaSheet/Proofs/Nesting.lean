import FormulaSheet.Sheet.Recursion

set_option autoImplicit false

namespace FormulaSheet.Formula

inductive Within : Formula → Formula → Prop
  | refl (formula : Formula) : Within formula formula
  | bracket {part formula : Formula} {opening : Site} {inside : Formula} :
      .bracket opening inside ∈ formula → Within part inside → Within part formula
  | argument {part formula : Formula} {callee : Callee} {arguments : List Formula}
      {argument : Formula} :
      .call callee arguments ∈ formula → argument ∈ arguments → Within part argument →
        Within part formula

def Has (formula : Formula) (part : Part) : Prop :=
  ∃ within, Within within formula ∧ part ∈ within

theorem Has.here {formula : Formula} {part : Part} (member : part ∈ formula) : formula.Has part :=
  ⟨formula, .refl formula, member⟩

theorem Has.bracket {formula inside : Formula} {opening : Site} {part : Part}
    (member : .bracket opening inside ∈ formula) (h : Has inside part) : formula.Has part := by
  obtain ⟨within, deep, present⟩ := h
  exact ⟨within, .bracket member deep, present⟩

theorem Has.argument {formula argument : Formula} {callee : Callee} {arguments : List Formula}
    {part : Part} (member : .call callee arguments ∈ formula) (given : argument ∈ arguments)
    (h : Has argument part) : formula.Has part := by
  obtain ⟨within, deep, present⟩ := h
  exact ⟨within, .argument member given deep, present⟩

theorem Has.within {formula inside : Formula} {part : Part} (h : Has inside part)
    (deep : Within inside formula) : formula.Has part := by
  induction deep with
  | refl => exact h
  | bracket member _ ih => exact .bracket member ih
  | argument member given _ ih => exact .argument member given ih

theorem nesting_induction {motive : Formula → Prop}
    (step : ∀ formula : Formula,
      (∀ opening inside, .bracket opening inside ∈ formula → motive inside) →
      (∀ callee arguments, .call callee arguments ∈ formula →
        ∀ argument ∈ arguments, motive argument) →
      motive formula)
    (formula : Formula) : motive formula := by
  apply step formula
  · intro opening inside member
    exact nesting_induction step inside
  · intro callee arguments member argument given
    exact nesting_induction step argument
termination_by sizeOf formula
decreasing_by
  · have := List.sizeOf_lt_of_mem member
    simp only [Part.bracket.sizeOf_spec] at this
    omega
  · have := List.sizeOf_lt_of_mem member
    have := List.sizeOf_lt_of_mem given
    simp only [Part.call.sizeOf_spec] at *
    omega

theorem has_iff {formula : Formula} {part : Part} :
    formula.Has part ↔ part ∈ formula ∨
      (∃ opening inside, .bracket opening inside ∈ formula ∧ Has inside part) ∨
      ∃ callee arguments, .call callee arguments ∈ formula ∧
        ∃ argument ∈ arguments, Has argument part := by
  constructor
  · rintro ⟨within, deep, present⟩
    cases deep with
    | refl => exact .inl present
    | bracket member deep => exact .inr (.inl ⟨_, _, member, within, deep, present⟩)
    | argument member given deep =>
      exact .inr (.inr ⟨_, _, member, _, given, within, deep, present⟩)
  · rintro (member | ⟨_, _, member, h⟩ | ⟨_, _, member, _, given, h⟩)
    · exact .here member
    · exact h.bracket member
    · exact h.argument member given

theorem has_iff_part {formula : Formula} {sub : Part} :
    formula.Has sub ↔ ∃ part ∈ formula, Has [part] sub := by
  constructor
  · intro has
    rcases has_iff.mp has with member | ⟨opening, inside, member, deep⟩ |
      ⟨callee, arguments, member, argument, given, deep⟩
    · exact ⟨sub, member, .here List.mem_cons_self⟩
    · exact ⟨_, member, .bracket List.mem_cons_self deep⟩
    · exact ⟨_, member, .argument List.mem_cons_self given deep⟩
  · rintro ⟨part, member, has⟩
    rcases has_iff.mp has with same | ⟨opening, inside, same, deep⟩ |
      ⟨callee, arguments, same, argument, given, deep⟩
    · cases List.mem_singleton.mp same
      exact .here member
    · cases List.mem_singleton.mp same
      exact .bracket member deep
    · cases List.mem_singleton.mp same
      exact .argument member given deep

theorem mem_calls {formula : Formula} {callee : Callee} :
    callee ∈ calls formula ↔ ∃ part ∈ formula, callee ∈ part.calls := by
  induction formula with
  | nil => simp [calls]
  | cons part rest ih => simp [calls, ih]

theorem mem_argumentCalls {arguments : List Formula} {callee : Callee} :
    callee ∈ argumentCalls arguments ↔ ∃ argument ∈ arguments, callee ∈ calls argument := by
  induction arguments with
  | nil => simp [argumentCalls]
  | cons argument rest ih => simp [argumentCalls, ih]

theorem mem_calls_iff_has {formula : Formula} {callee : Callee} :
    callee ∈ calls formula ↔ ∃ arguments, formula.Has (.call callee arguments) := by
  induction formula using nesting_induction with
  | step formula inBracket inArgument =>
    rw [mem_calls]
    constructor
    · rintro ⟨part, member, found⟩
      cases part with
      | literal | name | operator => simp [Part.calls] at found
      | bracket opening inside =>
        obtain ⟨arguments, has⟩ := (inBracket opening inside member).mp found
        exact ⟨arguments, has.bracket member⟩
      | call other arguments =>
        rcases List.mem_cons.mp found with rfl | found
        · exact ⟨arguments, .here member⟩
        · obtain ⟨argument, given, found⟩ := mem_argumentCalls.mp found
          obtain ⟨arguments, has⟩ := (inArgument other _ member argument given).mp found
          exact ⟨arguments, has.argument member given⟩
    · rintro ⟨arguments, has⟩
      rcases has_iff.mp has with member | ⟨opening, inside, member, has⟩ |
        ⟨other, others, member, argument, given, has⟩
      · exact ⟨_, member, List.mem_cons_self⟩
      · exact ⟨_, member, (inBracket opening inside member).mpr ⟨arguments, has⟩⟩
      · have found := (inArgument other others member argument given).mpr ⟨arguments, has⟩
        exact ⟨_, member, List.mem_cons_of_mem _ (mem_argumentCalls.mpr ⟨argument, given, found⟩)⟩

end FormulaSheet.Formula
