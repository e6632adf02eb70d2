import FormulaSheet.Proofs.Internal

set_option autoImplicit false

namespace FormulaSheet

section Quotients

variable {position : Position} {x y : Float}

theorem Progression.quotient_eq_ok {ratio : Float} :
    quotient position y x = .ok ratio ↔ (¬x == 0) ∧ y / x = ratio := by
  unfold quotient
  by_cases zero : x == 0 <;> simp [zero]

theorem Progression.ofTerms_eq_ok {third : Option Float} {p : Progression} :
    ofTerms position x y third = .ok p ↔
      (¬x == 0) ∧ (∀ z ∈ third, (¬y == 0) ∧ z / y == y / x) ∧ p = ⟨x, y / x⟩ := by
  unfold ofTerms
  rw [Outcome.bind_eq_ok]
  constructor
  · rintro ⟨ratio, divided, h⟩
    obtain ⟨nonzero, rfl⟩ := quotient_eq_ok.mp divided
    cases third with
    | none =>
      cases h
      exact ⟨nonzero, nofun, rfl⟩
    | some z =>
      obtain ⟨other, divided, h⟩ := Outcome.bind_eq_ok.mp h
      obtain ⟨nonzero', rfl⟩ := quotient_eq_ok.mp divided
      split at h
      next same =>
        cases h
        refine ⟨nonzero, ?_, rfl⟩
        rintro _ ⟨⟩
        exact ⟨nonzero', same⟩
      · contradiction
  · rintro ⟨nonzero, follows, rfl⟩
    refine ⟨y / x, quotient_eq_ok.mpr ⟨nonzero, rfl⟩, ?_⟩
    cases third with
    | none => rfl
    | some z =>
      obtain ⟨nonzero', same⟩ := follows z rfl
      refine Outcome.bind_eq_ok.mpr ⟨z / y, quotient_eq_ok.mpr ⟨nonzero', rfl⟩, ?_⟩
      rw [if_pos same]
      rfl

end Quotients

/-- On the sheet the first two terms have these values, and the first is not zero. A third term, if
there is one, follows them by the same ratio. -/
structure Sequence.Progresses (s : Sequence) (sheet : Sheet) (x y : Float) : Prop where
  given : 2 ≤ s.given.length
  first : sheet.termValue s.site s.first = .ok x
  second : sheet.termValue s.site s.second = .ok y
  nonzero : ¬x == 0
  third : ∀ term ∈ s.third, term.isGiven →
    ∃ z, sheet.termValue s.site term = .ok z ∧ (¬y == 0) ∧ z / y == y / x

namespace Sheet

variable {sheet next : Sheet} {s : Sequence}

theorem termValue_eq_ok {site : Site} {term : Capture} {value : Float} :
    sheet.termValue site term = .ok value ↔ ∃ formula,
      Formula.captured sheet.source .arguments term = .ok [formula] ∧
        checkFormula sheet [] false formula = .ok () ∧
        sheet.evaluate .empty formula = .ok value := by
  unfold termValue
  rw [Outcome.bind_eq_ok]
  constructor
  · rintro ⟨formulas, read, h⟩
    split at h
    next formula =>
      obtain ⟨_, checked, h⟩ := Outcome.bind_eq_ok.mp h
      exact ⟨formula, read, checked, h⟩
    · contradiction
  · rintro ⟨formula, read, checked, h⟩
    exact ⟨[formula], read, Outcome.bind_eq_ok.mpr ⟨(), checked, h⟩⟩

theorem progressionOf_eq_ok {p : Progression} :
    sheet.progressionOf s = .ok p ↔ ∃ x y, s.Progresses sheet x y ∧ p = ⟨x, y / x⟩ := by
  rw [progressionOf_eq]
  constructor
  · intro h
    split at h
    · contradiction
    next enough =>
      obtain ⟨x, first, h⟩ := Outcome.bind_eq_ok.mp h
      obtain ⟨y, second, h⟩ := Outcome.bind_eq_ok.mp h
      obtain ⟨third, last, h⟩ := Outcome.bind_eq_ok.mp h
      obtain ⟨nonzero, follows, rfl⟩ := Progression.ofTerms_eq_ok.mp h
      refine ⟨x, y, ⟨Nat.le_of_not_lt enough, first, second, nonzero, ?_⟩, rfl⟩
      intro term present given
      rw [Option.mem_def.mp present, Option.filter_some, if_pos given] at last
      obtain ⟨z, found, rfl⟩ := Outcome.mapM_some_eq_ok.mp last
      exact ⟨z, found, follows z rfl⟩
  · rintro ⟨x, y, progresses, rfl⟩
    rw [if_neg (Nat.not_lt.mpr progresses.given)]
    refine Outcome.bind_eq_ok.mpr ⟨x, progresses.first, ?_⟩
    refine Outcome.bind_eq_ok.mpr ⟨y, progresses.second, ?_⟩
    cases kept : s.third.filter Capture.isGiven with
    | none =>
      refine Outcome.bind_eq_ok.mpr ⟨none, rfl, ?_⟩
      exact Progression.ofTerms_eq_ok.mpr ⟨progresses.nonzero, nofun, rfl⟩
    | some term =>
      obtain ⟨present, given⟩ := Option.filter_eq_some_iff.mp kept
      obtain ⟨z, found, follows⟩ := progresses.third term present given
      refine Outcome.bind_eq_ok.mpr ⟨some z, Outcome.mapM_some_eq_ok.mpr ⟨z, found, rfl⟩, ?_⟩
      refine Progression.ofTerms_eq_ok.mpr ⟨progresses.nonzero, ?_, rfl⟩
      rintro _ ⟨⟩
      exact follows

theorem checkSequence_iff (present : sheet.sequence? = some s) :
    sheet.checkSequence = .ok next ↔ ∃ x y, s.Progresses { sheet with sequence? := none } x y ∧
      next = { sheet with sequence? := some { s with progression? := some ⟨x, y / x⟩ } } := by
  unfold checkSequence
  rw [present]
  dsimp only
  rw [Outcome.map_eq_ok]
  constructor
  · rintro ⟨p, found, rfl⟩
    obtain ⟨x, y, progresses, rfl⟩ := progressionOf_eq_ok.mp found
    exact ⟨x, y, progresses, rfl⟩
  · rintro ⟨x, y, progresses, rfl⟩
    exact ⟨_, progressionOf_eq_ok.mpr ⟨x, y, progresses, rfl⟩, rfl⟩

end Sheet

end FormulaSheet
