import FormulaSheet.Proofs.Agreement
import FormulaSheet.Proofs.Context.Calls
import FormulaSheet.Proofs.Context.Running

set_option autoImplicit false

namespace FormulaSheet.Sheet

variable {sheet sheet' next : Sheet} {statements statements' : List Statement}
  {formula formula' : Formula} {x : Float}

theorem Entered.coherent {tokens : List Token} (h : Entered sheet tokens next statements)
    (coherent : sheet.Coherent) : next.Coherent := by
  induction h with
  | done | last => exact coherent
  | blank _ _ ih | line _ _ _ ih => exact ih coherent
  | definition _ entered _ ih => exact ih (coherent.define entered)

section Extension

variable {shared : String → Prop} {rank rank' : Definition → Nat}

def adding (sheet : Sheet) (definition : Definition) : Sheet :=
  { sheet with symbols := sheet.symbols.define definition.name (.user definition) }

structure Valued (sheet : Sheet) (statements : List Statement) (formula : Formula) (next : Sheet)
    (outputs : List Output) (x : Float) : Prop where
  coherent : sheet.Coherent
  checks : Checks sheet (statements ++ [.formula formula]) next
  outputs : next.outputs 0 statements = .ok outputs
  value : next.evaluate .empty formula = .ok x

variable {outputs : List Output}

theorem outputs_formula {plots : Nat} :
    sheet.outputs plots [.formula formula] = .ok [.number x] ↔
      sheet.evaluate .empty formula = .ok x := by
  rw [outputs_cons_ok]
  constructor
  · rintro ⟨output, others, put, -, same⟩
    obtain ⟨y, found, rfl⟩ := Outcome.map_eq_ok.mp put
    cases same
    exact found
  · intro found
    exact ⟨.number x, [], Outcome.map_eq_ok.mpr ⟨x, found, rfl⟩, rfl, rfl⟩

theorem Valued.put (h : Valued sheet statements formula next outputs x) :
    next.outputs 0 (statements ++ [.formula formula]) = .ok (outputs ++ [.number x]) :=
  outputs_append_ok.mpr ⟨outputs, _, h.outputs, outputs_formula.mpr h.value, rfl⟩

theorem Valued.checked (h : Valued sheet statements formula next outputs x) :
    checkFormula sheet [] false formula = .ok () :=
  h.checks.lines (.formula formula) (by simp)

theorem Valued.checkArgument (h : Valued sheet statements formula next outputs x)
    (parameters : List String) : sheet.checkArgument parameters formula = .ok () := by
  have agrees : sheet.Agrees next :=
    ⟨checkSequence_source h.checks.sequence, checkSequence_symbols h.checks.sequence ▸ .refl _⟩
  rw [← agrees.checkArgument]
  exact checkArgument_of_value h.value

theorem Valued.replace (h : Valued sheet statements formula next outputs x)
    (small : shared "s") (kin : Kindred shared sheet sheet') (coherent : sheet'.Coherent)
    (same : List.Forall₂ (Statement.Matches (.sharing shared)) statements statements')
    (apart : ∀ name definition, ¬shared name → sheet'.body? name = some definition →
      ∀ callee, Reaches sheet'.userBody? definition callee → callee.name ≠ name)
    (functions : ∀ next', next'.symbols = sheet'.symbols → Kindred shared next next' →
      ∀ name f, ¬shared name → sheet'.symbols.function? name = some f →
        next'.checkFunction f = .ok ())
    {line : Formula} (checked : checkFormula sheet' [] false line = .ok ())
    (valued : ∀ next' rank rank', next'.symbols = sheet'.symbols → Kindred shared next next' →
      next.Ranked rank → next'.Ranked rank' → next'.evaluate .empty line = .ok x) :
    ∃ next', Valued sheet' statements' line next' outputs x := by
  have before : Checks sheet statements next :=
    ⟨fun statement member => h.checks.lines statement (List.mem_append_left _ member),
      h.checks.sequence, h.checks.functions, h.checks.selfCalls⟩
  have more : ∀ statement ∈ [Statement.formula line], sheet'.checkStatement statement = .ok () :=
    List.forall_mem_singleton.mpr checked
  obtain ⟨next', checks', symbols, -, kin', ⟨rank, ranked⟩, ⟨rank', ranked'⟩⟩ :=
    kin.checks small h.coherent coherent before same apart functions more
  exact ⟨next', coherent, checks', kin'.outputs ranked ranked' same h.outputs,
    valued next' rank rank' symbols kin' ranked ranked'⟩

theorem Kindred.evaluate_ok (kin : Kindred shared next sheet') (ranked : next.Ranked rank)
    (ranked' : sheet'.Ranked rank') (matched : Formula.Matches (.sharing shared) formula formula')
    (value : next.evaluate .empty formula = .ok x) : sheet'.evaluate .empty formula' = .ok x := by
  have followed := kin.evaluate ranked ranked' matched .empty
  rw [value] at followed
  obtain ⟨_, found, rfl⟩ := followed.of_ok
  exact found

variable (h : Valued sheet statements formula next outputs x) (kin : Kindred shared sheet sheet')
  (coherent : sheet'.Coherent)
  (same : List.Forall₂ (Statement.Matches (.sharing shared)) statements statements')
  (matched : Formula.Matches (.sharing shared) formula formula')

include h kin coherent same matched

theorem Valued.bracketed (every : ∀ name, shared name) (opening : Site) :
    ∃ next', Valued sheet' statements' [.bracket opening formula'] next' outputs x := by
  refine h.replace (every _) kin coherent same (fun name _ unshared => absurd (every name) unshared)
    (fun _ _ _ name _ unshared => absurd (every name) unshared) ?checked ?valued
  case checked =>
    rw [checkFormula_eq_ok, List.forall_mem_singleton, checkPart]
    exact kin.checkFormula matched h.checked
  case valued =>
    intro next' rank rank' _ kin' ranked ranked'
    rw [evaluate_bracket]
    exact kin'.evaluate_ok ranked ranked' matched h.value

omit same matched in
theorem Valued.replace_adding {definition : Definition}
    (fresh : ∀ name, shared name ↔ name ≠ definition.name) (small : shared "s")
    (same : List.Forall₂ (Statement.Matches (.sharing shared)) statements statements')
    (apart : Kindred shared sheet (sheet'.adding definition) →
      ∀ callee, Reaches (sheet'.adding definition).userBody? definition callee →
        callee.name ≠ definition.name)
    (body : ∀ next', Kindred shared next next' →
      checkFormula next' definition.parameters true definition.body = .ok ())
    {line : Formula} (checked : checkFormula (sheet'.adding definition) [] false line = .ok ())
    (valued : ∀ next' rank rank',
      next'.symbols.function? definition.name = some (.user definition) →
        Kindred shared next next' → next.Ranked rank → next'.Ranked rank' →
          next'.evaluate .empty line = .ok x) :
    ∃ next', Valued (sheet'.adding definition) statements' line next' outputs x := by
  have unshared : ¬shared definition.name := fun known => (fresh _).mp known rfl
  have own {name : String} (other : ¬shared name) : name = definition.name := by
    by_contra apart
    exact other ((fresh name).mpr apart)
  have kin' : Kindred shared sheet (sheet'.adding definition) := kin.bind_unshared unshared _
  have found : (sheet'.adding definition).symbols.function? definition.name =
      some (.user definition) := by simp [adding, SymbolTable.function?_define]
  have known : definition.name ∈ (sheet'.adding definition).symbols.definedNames :=
    SymbolTable.mem_definedNames_define.mpr (.inl rfl)
  refine h.replace small kin' (coherent.bind id ⟨rfl, known⟩) same ?apart ?functions checked ?valued
  case apart =>
    intro name other unknown called
    cases own unknown
    rcases body?_eq_some.mp called with called | called
    · cases found.symm.trans called
      exact apart kin'
    · cases found.symm.trans called
  case functions =>
    intro next' _ kin'' name f unknown called
    cases own unknown
    cases found.symm.trans called
    exact body next' kin''
  case valued =>
    intro next' rank rank' symbols
    exact valued next' rank rank' (symbols ▸ found)

theorem Valued.called {name : String} (fresh : ∀ other, shared other ↔ other ≠ name)
    (small : shared "s") (site : Site) :
    ∃ next', Valued (sheet'.adding ⟨name, [], formula'⟩) statements'
      [.call ⟨site, name, .plain⟩ []] next' outputs x := by
  refine h.replace_adding kin coherent fresh small same ?apart ?body ?checked ?valued
  case apart =>
    intro kin' callee reached
    have alike : Definition.Matches (.sharing shared) ⟨name, [], formula⟩ ⟨name, [], formula'⟩ :=
      ⟨rfl, rfl, matched⟩
    obtain ⟨other, named, known, -⟩ := kin'.reaches alike reached
    rw [named]
    exact (fresh _).mp known
  case body =>
    intro next' kin'
    exact kin'.checkFormula matched (checkFormula_of_value h.value)
  case checked =>
    rw [checkFormula_eq_ok, List.forall_mem_singleton, checkPart_call, checkCall_eq_ok]
    refine ⟨⟨.user ⟨name, [], formula'⟩, ?_, rfl, by simp⟩, by simp⟩
    simp [adding, SymbolTable.find?_define]
  case valued =>
    intro next' rank rank' found kin' ranked ranked'
    exact ranked'.evaluate_call found rfl rfl (kin'.evaluate_ok ranked ranked' matched h.value)

theorem Valued.argument {name : String} (fresh : ∀ other, shared other ↔ other ≠ name)
    (small : shared "s") (parameter : String) (site site' : Site) (text : site'.text = parameter) :
    ∃ next', Valued (sheet'.adding ⟨name, [parameter], [.name site']⟩) statements'
      [.call ⟨site, name, .plain⟩ [formula']] next' outputs x := by
  refine h.replace_adding kin coherent fresh small same ?apart ?body ?checked ?valued
  case apart =>
    have uncalled (callee : Callee) :
        ¬Definition.HasCall ⟨name, [parameter], [.name site']⟩ callee := by
      rintro ⟨arguments, has⟩
      rcases Formula.has_iff.mp has with member | ⟨_, _, member, -⟩ | ⟨_, _, member, -⟩
      · simp at member
      · simp at member
      · simp at member
    intro _ callee reached
    cases reached with
    | direct has | through has => exact absurd has (uncalled _)
  case body =>
    intro next' _
    rw [checkFormula_eq_ok, List.forall_mem_singleton, checkPart_name]
    intro _ free
    exact absurd (by simp [text]) free
  case checked =>
    have kin' : Kindred shared sheet (sheet'.adding ⟨name, [parameter], [.name site']⟩) :=
      kin.bind_unshared (fun known => (fresh _).mp known rfl) _
    have passes := kin'.checkFormula matched h.checked
    rw [checkFormula_eq_ok, List.forall_mem_singleton, checkPart_call, checkCall_eq_ok]
    refine ⟨⟨.user ⟨name, [parameter], [.name site']⟩, ?_, rfl, ?_⟩,
      List.forall_mem_singleton.mpr passes⟩
    · simp [adding, SymbolTable.find?_define]
    · rw [List.forall_mem_singleton]
      exact kin'.checkArgument matched (h.checkArgument [])
  case valued =>
    intro next' rank rank' found kin' ranked ranked'
    have given : [formula'].mapM (next'.evaluate .empty) = .ok [x] := by
      rw [List.mapM_cons, kin'.evaluate_ok ranked ranked' matched h.value]
      rfl
    refine ranked'.evaluate_call found rfl given (evaluate_name site' ?_)
    simp [Sheet.value?, Scope.find?, Scope.bind, text]

end Extension

end FormulaSheet.Sheet
