import FormulaSheet.Proofs.Finite.Running
import FormulaSheet.Proofs.Progression
import FormulaSheet.Proofs.Session.Sequence

set_option autoImplicit false

namespace FormulaSheet

theorem Operation.evaluate_divide {x y : Float} (nonzero : ¬x == 0) :
    divide.evaluate { maxNumber := 1 / 0 } y x =
      if (y / x).isFinite then .ok (y / x) else .error (.undefinedOperation .divide y x) := by
  unfold evaluate
  rw [if_neg (Sheet.not_gt_infinity _), if_neg (Sheet.not_gt_infinity _), if_neg (by simp),
    if_neg fun zero => nonzero zero.2]
  rfl

namespace Sheet

variable {sheet next : Sheet} {s : Sequence}

section Values

theorem Reachable.termValue_finite (reachable : sheet.Reachable) (sampled : sheet.limits.Sampled)
    {site : Site} {term : Capture} {x : Float}
    (h : termValue { sheet with sequence? := none } site term = .ok x) : x.isFinite := by
  obtain ⟨formula, read, -, found⟩ := termValue_eq_ok.mp h
  have finite := reachable.finite sampled
  have bare : Finite { sheet with sequence? := none } :=
    ⟨finite.constants, finite.bodies, finite.range⟩
  exact bare.formulaValue (bare.keeping _) Scope.finite_empty
    (Formula.finite_of_captured read _ List.mem_cons_self) found

end Values

section Steps

theorem checkedSequence?_eq_some {p : Progression} :
    sheet.checkedSequence? = some (s, p) ↔ sheet.sequence? = some s ∧ s.progression? = some p := by
  unfold checkedSequence?
  rw [Option.bind_eq_some_iff]
  constructor
  · rintro ⟨_, present, found⟩
    obtain ⟨_, known, same⟩ := Option.map_eq_some_iff.mp found
    cases same
    exact ⟨present, known⟩
  · rintro ⟨present, known⟩
    exact ⟨s, present, by rw [known, Option.map_some]⟩

theorem check_stores (sheet : Sheet) (statements : List Statement) :
    (sheet.check statements).1 = sheet ∨
      sheet.checkSequence = .ok (sheet.check statements).1 := by
  unfold check
  split
  · exact .inl rfl
  next done =>
    obtain ⟨_, -, passed⟩ := Outcome.bind_eq_ok.mp done
    exact .inr passed

theorem check_of_error {e : Error} (failed : sheet.checkSequence = .error e)
    (statements : List Statement) : (sheet.check statements).1 = sheet := by
  rcases sheet.check_stores statements with same | passed
  · exact same
  · rw [failed] at passed
    contradiction

theorem Step.stored (step : Step sheet next) {found : Sequence × Progression}
    (h : sheet.checkedSequence? = some found) : ∃ later, next.checkedSequence? = some later ∧
      (later = found ∨ sheet.checkSequence = .ok next) := by
  obtain ⟨s, p⟩ := found
  obtain ⟨present, known⟩ := checkedSequence?_eq_some.mp h
  cases step with
  | define entered =>
    cases define_iff.mp entered with
    | function | plot => exact ⟨(s, p), h, .inl rfl⟩
    | sequence free => simp [present] at free
  | check statements =>
    rcases sheet.check_stores statements with same | passed
    · rw [same]
      exact ⟨(s, p), h, .inl rfl⟩
    · obtain ⟨x, y, -, same⟩ := (checkSequence_iff present).mp passed
      rw [same] at passed ⊢
      exact ⟨({ s with progression? := some ⟨x, y / x⟩ }, ⟨x, y / x⟩), rfl, .inr passed⟩
  | limits limits => exact ⟨(s, p), h, .inl rfl⟩

def Restored (sheet next : Sheet) : Prop :=
  ∃ entered checked, Steps sheet entered ∧ entered.checkSequence = .ok checked ∧
    Steps checked next ∧ next.checkedSequence? = checked.checkedSequence?

theorem Steps.stored (steps : Steps sheet next) {found : Sequence × Progression}
    (h : sheet.checkedSequence? = some found) : ∃ later, next.checkedSequence? = some later ∧
      (later = found ∨ Restored sheet next) := by
  induction steps with
  | refl => exact ⟨found, h, .inl rfl⟩
  | @tail middle next before step ih =>
    obtain ⟨between, known, origin⟩ := ih
    obtain ⟨later, stored, kept | passed⟩ := step.stored known
    -- What a step keeps was stored by the check that the earlier steps came to.
    · subst kept
      refine ⟨later, stored, origin.imp_right ?_⟩
      rintro ⟨entered, checked, reached, passed, after, same⟩
      exact ⟨entered, checked, reached, passed, after.tail step, by rw [stored, ← known, same]⟩
    · exact ⟨later, stored, .inr ⟨middle, next, before, passed, .refl, rfl⟩⟩

end Steps

/-- What the check of a sheet's sequence stores, and for how long. It passes just when the terms make a
progression. Then it stores the value of the first term, a finite one, and the quotient of the first
two. Either an operator between operands of any size gives the same quotient, or it refuses to, and
what is stored is infinite. A check that fails leaves the sheet as it was, and whatever is asked of the
sheet, it keeps what is stored until a check passes. -/
structure Settles (sheet : Sheet) (s : Sequence) : Prop where
  passes : ∀ next, sheet.checkSequence = .ok next ↔
    ∃ x y, s.Progresses { sheet with sequence? := none } x y ∧
      next = { sheet with sequence? := some { s with progression? := some ⟨x, y / x⟩ } }
  finite : ∀ x y, s.Progresses { sheet with sequence? := none } x y → x.isFinite
  ratio : ∀ x y, s.Progresses { sheet with sequence? := none } x y →
    (Operation.divide.evaluate { maxNumber := 1 / 0 } y x = .ok (y / x) ∧ (y / x).isFinite) ∨
      Operation.divide.evaluate { maxNumber := 1 / 0 } y x =
        .error (.undefinedOperation .divide y x) ∧ (y / x).isInf
  fails : ∀ e statements, sheet.checkSequence = .error e → (sheet.check statements).1 = sheet
  kept : ∀ found requests, sheet.checkedSequence? = some found →
    (sheet.after requests).checkedSequence? = some found ∨ Restored sheet (sheet.after requests)

/-- Whatever a session has come to, the check of its sequence settles it so. -/
theorem settles_of_reachable (sheet : Sheet) (reachable : sheet.Reachable)
    (sampled : sheet.limits.Sampled) (s : Sequence) (present : sheet.sequence? = some s) :
    sheet.Settles s where
  passes := fun _ => checkSequence_iff present
  finite := fun _ _ progresses => reachable.termValue_finite sampled progresses.first
  ratio := by
    intro x y progresses
    have numerator := reachable.termValue_finite sampled progresses.second
    have denominator := reachable.termValue_finite sampled progresses.first
    rw [Operation.evaluate_divide progresses.nonzero]
    by_cases finite : (y / x).isFinite
    · exact .inl ⟨if_pos finite, finite⟩
    · have number := Binary64.isFinite_or_isInf_div numerator denominator progresses.nonzero
      exact .inr ⟨if_neg finite, number.resolve_left finite⟩
  fails := fun _ statements failed => check_of_error failed statements
  kept := by
    intro found requests stored
    obtain ⟨later, known, same | restored⟩ := (sheet.after_steps requests).stored stored
    · exact .inl (same ▸ known)
    · exact .inr restored

theorem settles_of_reachable_tripling :
    let sheet := (ofSource "f(x)=3x\nS=2,f(2),18" {}).after [.parse]
    sheet.Reachable ∧ sheet.limits.Sampled ∧ ∃ s, sheet.sequence? = some s ∧ sheet.Settles s ∧
      ∃ x y, s.Progresses { sheet with sequence? := none } x y ∧
        Progression.mk x (y / x) = ⟨2, 3⟩ := by
  intro sheet
  have reachable : sheet.Reachable := (reachable_ofSource _ _).steps (after_steps _ _)
  have sampled : sheet.limits.Sampled := ⟨by decide +kernel, by decide +kernel⟩
  have passes : (sheet.checkSequence.toOption.bind checkedSequence?).map Prod.snd =
      some ⟨2, 3⟩ := by
    decide +kernel
  obtain ⟨s, present⟩ := Option.isSome_iff_exists.mp
    (by decide +kernel : sheet.sequence?.isSome)
  have settles := settles_of_reachable sheet reachable sampled s present
  refine ⟨reachable, sampled, s, present, settles, ?_⟩
  cases checked : sheet.checkSequence with
  | error e =>
    rw [checked] at passes
    contradiction
  | ok next =>
    obtain ⟨x, y, progresses, rfl⟩ := (settles.passes next).mp checked
    rw [checked] at passes
    exact ⟨x, y, progresses, Option.some.inj passes⟩

-- The ratio of these terms is 10 to the 320, which no operator of a formula would give.
theorem infinite_ratio_stored :
    ∃ sheet statements s p,
      (ofSource "f(x)=x*x\nS=f(f(f(f(f(f(.00001)))))),1" {}).parse = (sheet, .ok statements) ∧
        sheet.checkedSequence? = some (s, p) ∧ p.ratio.isFinite = false ∧
        Operation.divide.evaluate {} 1 p.first =
          .error (.undefinedOperation .divide 1 p.first) := by
  obtain ⟨sheet, statements, parsed⟩ := eq_ok_of_isSome
    (by decide +kernel :
      (ofSource "f(x)=x*x\nS=f(f(f(f(f(f(.00001)))))),1" {}).parse.2.toOption.isSome)
  have stored : (ofSource "f(x)=x*x\nS=f(f(f(f(f(f(.00001)))))),1" {}).parse.1.checkedSequence?.any
      fun (_, p) => p.ratio.isFinite = false ∧ Operation.divide.evaluate {} 1 p.first =
        .error (.undefinedOperation .divide 1 p.first) := by
    decide +kernel
  rw [parsed] at stored
  obtain ⟨⟨s, p⟩, known, infinite⟩ := (Option.any_eq_true ..).mp stored
  exact ⟨sheet, statements, s, p, parsed, known, of_decide_eq_true infinite⟩

end Sheet

end FormulaSheet
