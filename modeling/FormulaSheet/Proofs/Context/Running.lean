import FormulaSheet.Proofs.Context.Checking
import FormulaSheet.Proofs.Progression

set_option autoImplicit false

namespace FormulaSheet

theorem Capture.Carried.isGiven {shared : String → Prop} {source source' : String}
    {capture capture' : Capture} (h : capture.Carried shared source source' capture') :
    capture'.isGiven = capture.isGiven := by
  rw [Capture.isGiven, h.text]
  rfl

theorem Sequence.Carried.given {shared : String → Prop} {source source' : String}
    {s s' : Sequence} (h : s.Carried shared source source' s') :
    s'.given.length = s.given.length := by
  have third : (s'.third.toList.takeWhile Capture.isGiven).length =
      (s.third.toList.takeWhile Capture.isGiven).length := by
    have same := h.third
    generalize s.third = third at same
    generalize s'.third = third' at same
    cases same with
    | none => rfl
    | some same => simp [List.takeWhile_cons, same.isGiven, apply_ite List.length]
  simp only [Sequence.given, Sequence.terms, List.takeWhile_cons, h.first.isGiven,
    h.second.isGiven, apply_ite List.length, List.length_cons, third]

namespace Sheet

variable {shared : String → Prop} {sheet sheet' next : Sheet} {rank rank' : Definition → Nat}

section Values

theorem Kindred.evaluate (kin : Kindred shared sheet sheet') (ranked : sheet.Ranked rank)
    (ranked' : sheet'.Ranked rank') {formula formula' : Formula}
    (same : Formula.Matches (.sharing shared) formula formula') (scope : Scope) :
    Follows (.sharing shared) (· = ·) (sheet.evaluate scope formula)
      (sheet'.evaluate scope formula') := by
  let depth := sheet.symbols.definedNames.length + sheet'.symbols.definedNames.length + 2
  have here : sheet.runFunction depth = sheet.run := ranked.run_eq (by omega)
  have there : sheet'.runFunction depth = sheet'.run := ranked'.run_eq (by omega)
  have followed := kin.linked.valueAtDepth same depth scope
  rw [here, there] at followed
  exact followed

theorem Kindred.output (kin : Kindred shared sheet sheet') (ranked : sheet.Ranked rank)
    (ranked' : sheet'.Ranked rank') {statement statement' : Statement}
    (same : statement.Matches (.sharing shared) statement') {plotNumber : Nat} {output : Output}
    (put : sheet.output plotNumber statement = .ok output) :
    sheet'.output plotNumber statement' = .ok output := by
  cases same with
  | formula same =>
    obtain ⟨value, found, rfl⟩ := Outcome.map_eq_ok.mp put
    have followed := kin.evaluate ranked ranked' same .empty
    rw [found] at followed
    obtain ⟨value', found', rfl⟩ := followed.of_ok
    exact Outcome.map_eq_ok.mpr ⟨value, found', rfl⟩
  | plot same =>
    obtain ⟨points, found, rfl⟩ := Outcome.map_eq_ok.mp put
    have followed := kin.linked.samples same (kin.evaluate ranked ranked' same.body)
    rw [found] at followed
    obtain ⟨points', found', rfl⟩ := followed.of_ok
    exact Outcome.map_eq_ok.mpr ⟨points, found', rfl⟩

def counted (plots : Nat) : Statement → Nat
  | .formula _ => plots
  | .plot _ => plots + 1

theorem outputs_cons_ok {plots : Nat} {statement : Statement} {statements : List Statement}
    {outputs : List Output} : sheet.outputs plots (statement :: statements) = .ok outputs ↔
      ∃ output others, sheet.output (counted plots statement) statement = .ok output ∧
        sheet.outputs (counted plots statement) statements = .ok others ∧
        outputs = output :: others := by
  have step : sheet.outputs plots (statement :: statements) =
      sheet.output (counted plots statement) statement >>= fun output =>
        sheet.outputs (counted plots statement) statements >>= fun others =>
          .ok (output :: others) := by
    cases statement <;> rfl
  rw [step, Outcome.bind_eq_ok]
  refine exists_congr fun output => ?_
  rw [Outcome.bind_eq_ok]
  constructor
  · rintro ⟨first, others, rest, same⟩
    cases same
    exact ⟨others, first, rest, rfl⟩
  · rintro ⟨others, first, rest, rfl⟩
    exact ⟨first, others, rest, rfl⟩

theorem Kindred.outputs (kin : Kindred shared sheet sheet') (ranked : sheet.Ranked rank)
    (ranked' : sheet'.Ranked rank') {statements statements' : List Statement}
    (same : List.Forall₂ (Statement.Matches (.sharing shared)) statements statements')
    {plots : Nat} {outputs : List Output} (put : sheet.outputs plots statements = .ok outputs) :
    sheet'.outputs plots statements' = .ok outputs := by
  induction same generalizing plots outputs with
  | nil => exact put
  | @cons statement statement' statements statements' first _ ih =>
    obtain ⟨output, others, own, rest, rfl⟩ := outputs_cons_ok.mp put
    have number : counted plots statement' = counted plots statement := by
      cases first <;> rfl
    rw [outputs_cons_ok, number]
    exact ⟨output, others, kin.output ranked ranked' first own, ih rest, rfl⟩

theorem outputs_append_ok {plots : Nat} {statements others : List Statement}
    {outputs : List Output} : sheet.outputs plots (statements ++ others) = .ok outputs ↔
      ∃ first rest, sheet.outputs plots statements = .ok first ∧
        sheet.outputs (statements.foldl counted plots) others = .ok rest ∧
        outputs = first ++ rest := by
  induction statements generalizing plots outputs with
  | nil =>
    constructor
    · intro put
      exact ⟨[], outputs, rfl, put, rfl⟩
    · rintro ⟨first, rest, none, put, rfl⟩
      cases none
      exact put
  | cons statement statements ih =>
    rw [List.cons_append, outputs_cons_ok]
    constructor
    · rintro ⟨output, later, own, put, rfl⟩
      obtain ⟨first, rest, before, after, rfl⟩ := ih.mp put
      exact ⟨output :: first, rest, outputs_cons_ok.mpr ⟨output, first, own, before, rfl⟩, after,
        rfl⟩
    · rintro ⟨_, rest, before, after, rfl⟩
      obtain ⟨output, first, own, later, rfl⟩ := outputs_cons_ok.mp before
      exact ⟨output, first ++ rest, own, ih.mpr ⟨first, rest, later, after, rfl⟩, rfl⟩

theorem outputs_length {plots : Nat} {statements : List Statement} {outputs : List Output}
    (put : sheet.outputs plots statements = .ok outputs) :
    outputs.length = statements.length := by
  induction statements generalizing plots outputs with
  | nil =>
    cases put
    rfl
  | cons statement statements ih =>
    obtain ⟨output, others, -, rest, rfl⟩ := outputs_cons_ok.mp put
    simp [ih rest]

end Values

section Sequences

theorem Kindred.bare (kin : Kindred shared sheet sheet') :
    Kindred shared { sheet with sequence? := none } { sheet' with sequence? := none } :=
  ⟨kin.limits, kin.symbols, kin.names, .none⟩

variable (small : shared "s")

include small in
theorem Kindred.termValue (kin : Kindred shared sheet sheet') (ranked : sheet.Ranked rank)
    (ranked' : sheet'.Ranked rank') (site site' : Site) {term term' : Capture}
    (carried : term.Carried shared sheet.source sheet'.source term') {value : Float}
    (h : sheet.termValue site term = .ok value) : sheet'.termValue site' term' = .ok value := by
  obtain ⟨formula, read, checked, found⟩ := termValue_eq_ok.mp h
  obtain ⟨formulas, read', same⟩ := captured_carried small carried read
  cases same with
  | cons first rest =>
    cases rest
    have followed := kin.evaluate ranked ranked' first .empty
    rw [found] at followed
    obtain ⟨_, found', rfl⟩ := followed.of_ok
    exact termValue_eq_ok.mpr ⟨_, read', kin.checkFormula first checked, found'⟩

include small in
theorem Kindred.progresses (kin : Kindred shared sheet sheet') (ranked : sheet.Ranked rank)
    (ranked' : sheet'.Ranked rank') {s s' : Sequence}
    (carried : s.Carried shared sheet.source sheet'.source s') {x y : Float}
    (h : s.Progresses sheet x y) : s'.Progresses sheet' x y where
  given := by
    rw [carried.given]
    exact h.given
  first := kin.termValue small ranked ranked' s.site s'.site carried.first h.first
  second := kin.termValue small ranked ranked' s.site s'.site carried.second h.second
  nonzero := h.nonzero
  third := by
    have last := carried.third
    have follows := h.third
    generalize s.third = third at last follows
    generalize s'.third = third' at last
    cases last with
    | none => exact nofun
    | @some term term' same =>
      rintro _ ⟨⟩ given
      rw [same.isGiven] at given
      obtain ⟨z, found, ratio⟩ := follows term rfl given
      exact ⟨z, kin.termValue small ranked ranked' s.site s'.site same found, ratio⟩

include small in
theorem Kindred.checkSequence (kin : Kindred shared sheet sheet') (ranked : sheet.Ranked rank)
    (ranked' : sheet'.Ranked rank') (h : sheet.checkSequence = .ok next) :
    ∃ next', sheet'.checkSequence = .ok next' ∧ next'.symbols = sheet'.symbols ∧
      Kindred shared next next' := by
  unfold Sheet.checkSequence at h ⊢
  have sequences := kin.sequence
  cases here : sheet.sequence? with
  | none =>
    rw [here] at h sequences
    generalize sheet'.sequence? = there at sequences ⊢
    cases sequences
    cases h
    exact ⟨sheet', rfl, rfl, kin⟩
  | some s =>
    rw [here] at h sequences
    generalize there : sheet'.sequence? = found at sequences ⊢
    cases sequences with
    | @some _ s' carried =>
      obtain ⟨progression, known, rfl⟩ := Outcome.map_eq_ok.mp h
      have bare : Ranked { sheet with sequence? := none } rank := ⟨ranked.falls, ranked.bounded⟩
      have bare' : Ranked { sheet' with sequence? := none } rank' := ⟨ranked'.falls, ranked'.bounded⟩
      obtain ⟨x, y, progresses, rfl⟩ := progressionOf_eq_ok.mp known
      have known' := progressionOf_eq_ok.mpr
        ⟨x, y, kin.bare.progresses small bare bare' carried progresses, rfl⟩
      refine ⟨_, Outcome.map_eq_ok.mpr ⟨_, known', rfl⟩, rfl, kin.limits, kin.symbols,
        kin.names, ?_⟩
      exact .some ⟨carried.first, carried.second, carried.third, rfl⟩

theorem Coherent.checkSequence (coherent : sheet.Coherent)
    (h : sheet.checkSequence = .ok next) : next.Coherent := by
  rcases checkSequence_eq_ok h with ⟨-, rfl⟩ | ⟨s, progression, -, rfl⟩
  · exact coherent
  · intro name f found
    exact (coherent name f found).mono (fun _ => id) fun _ => rfl

theorem checkSequence_symbols (h : sheet.checkSequence = .ok next) :
    next.symbols = sheet.symbols := by
  rcases checkSequence_eq_ok h with ⟨-, rfl⟩ | ⟨s, progression, -, rfl⟩
  · rfl
  · rfl

end Sequences

section Checks

variable {statements statements' others : List Statement}

theorem Coherent.checkSelfCalls_congr (coherent : sheet.Coherent) (coherent' : sheet'.Coherent)
    (symbols : sheet'.symbols = sheet.symbols) :
    sheet'.checkSelfCalls = .ok () ↔ sheet.checkSelfCalls = .ok () := by
  have bodies : sheet'.body? = sheet.body? := by
    funext name
    simp only [body?, symbols]
  have userBodies : sheet'.userBody? = sheet.userBody? := by
    funext name
    simp only [userBody?, symbols]
  rw [coherent.checkSelfCalls_eq_ok, coherent'.checkSelfCalls_eq_ok, bodies, userBodies]

theorem Kindred.checks (small : shared "s") (kin : Kindred shared sheet sheet')
    (coherent : sheet.Coherent) (coherent' : sheet'.Coherent)
    (checks : Checks sheet statements next)
    (same : List.Forall₂ (Statement.Matches (.sharing shared)) statements statements')
    (apart : ∀ name definition, ¬shared name → sheet'.body? name = some definition →
      ∀ callee, Reaches sheet'.userBody? definition callee → callee.name ≠ name)
    (functions : ∀ next', next'.symbols = sheet'.symbols → Kindred shared next next' →
      ∀ name f, ¬shared name → sheet'.symbols.function? name = some f →
        next'.checkFunction f = .ok ())
    (more : ∀ statement ∈ others, sheet'.checkStatement statement = .ok ()) :
    ∃ next', Checks sheet' (statements' ++ others) next' ∧ next'.symbols = sheet'.symbols ∧
      next'.Coherent ∧ Kindred shared next next' ∧ (∃ rank, next.Ranked rank) ∧
      ∃ rank', next'.Ranked rank' := by
  have symbols := checkSequence_symbols checks.sequence
  have after := coherent.checkSequence checks.sequence
  have acyclic := (coherent.checkSelfCalls_congr after symbols).mp checks.selfCalls
  have acyclic' := kin.checkSelfCalls coherent coherent' acyclic apart
  obtain ⟨rank, ranked⟩ := coherent.ranked acyclic
  obtain ⟨rank', ranked'⟩ := coherent'.ranked acyclic'
  obtain ⟨next', sequence', symbols', kin'⟩ := kin.checkSequence small ranked ranked' checks.sequence
  have after' := coherent'.checkSequence sequence'
  have selfCalls' := (coherent'.checkSelfCalls_congr after' symbols').mpr acyclic'
  have functions' := kin'.checkFunctions checks.functions fun name f unshared found =>
    functions next' symbols' kin' name f unshared (symbols' ▸ found)
  have lines' : ∀ statement ∈ statements' ++ others, sheet'.checkStatement statement = .ok () := by
    refine List.forall_mem_append.mpr ⟨fun statement' member => ?_, more⟩
    obtain ⟨statement, present, matched⟩ := exists_of_forall₂ same member
    exact kin.checkStatement matched (checks.lines statement present)
  exact ⟨next', ⟨lines', sequence', functions', selfCalls'⟩, symbols', after', kin',
    after.ranked checks.selfCalls, after'.ranked selfCalls'⟩

end Checks

end Sheet

end FormulaSheet
