import FormulaSheet.Proofs.Evaluation
import FormulaSheet.Proofs.Grammar.Building
import FormulaSheet.Proofs.Parsed
import FormulaSheet.Proofs.Recursion

set_option autoImplicit false

namespace FormulaSheet

namespace Formula

theorem has_call_foldSign {formula : Formula} {callee : Callee} {arguments : List Formula}
    (h : formula.foldSign.Has (.call callee arguments)) :
    formula.Has (.call callee arguments) := by
  have kept {part : Part} (value : ∀ site x, part ≠ .literal site x)
      (member : part ∈ formula.foldSign) : part ∈ formula := by
    rcases mem_foldSign member with member | ⟨site, x, same⟩
    · exact member
    · exact absurd same (value site x)
  rcases has_iff.mp h with member | ⟨opening, inside, member, has⟩ |
    ⟨other, others, member, argument, given, has⟩
  · exact .here (kept (by simp) member)
  · exact has.bracket (kept (by simp) member)
  · exact has.argument (kept (by simp) member) given

end Formula

namespace Sheet

variable {sheet : Sheet}

-- A call of something that can be called, with as many arguments as it takes.
def Fits (sheet : Sheet) (callee : Callee) (arguments : List Formula) : Prop :=
  ∃ f, sheet.symbols.function? callee.name = some f ∧ arguments.length = f.parameters.length

def AllFit (sheet : Sheet) (formula : Formula) : Prop :=
  ∀ callee arguments, formula.Has (.call callee arguments) → sheet.Fits callee arguments

section Checks

variable {parameters : List String} {names : Bool}

theorem checkCall_eq_ok {callee : Callee} {arguments : List Formula} :
    sheet.checkCall parameters callee arguments = .ok () ↔
      ∃ f, sheet.symbols.find? callee.name = some (.function f) ∧
        arguments.length = f.parameters.length ∧
        ∀ argument ∈ arguments, sheet.checkArgument parameters argument = .ok () := by
  unfold checkCall
  cases found : sheet.symbols.find? callee.name with
  | none => simp
  | some symbol =>
    cases symbol with
    | constant => simp
    | function f =>
      constructor
      · intro h
        obtain ⟨_, arity, given⟩ := Outcome.bind_eq_ok.mp h
        exact ⟨f, rfl, checkArity_eq_ok.mp arity, Outcome.forM_eq_ok.mp given⟩
      · rintro ⟨_, same, arity, given⟩
        cases same
        exact Outcome.bind_eq_ok.mpr ⟨(), checkArity_eq_ok.mpr arity, Outcome.forM_eq_ok.mpr given⟩

theorem checkCall_fits {callee : Callee} {arguments : List Formula}
    (h : sheet.checkCall parameters callee arguments = .ok ()) : sheet.Fits callee arguments := by
  obtain ⟨f, found, arity, -⟩ := checkCall_eq_ok.mp h
  refine ⟨f, ?_, arity⟩
  unfold SymbolTable.function?
  rw [found]

theorem checkArgument_name {site : Site} :
    sheet.checkArgument parameters [.name site] = .ok () ↔
      site.text ∈ parameters ∨ (sheet.symbols.constant? site.text).isSome := by
  simp only [checkArgument]
  split
  next known => simp [known]
  next unknown => simp [unknown]

theorem checkFormula_eq_forM (formula : Formula) :
    checkFormula sheet parameters names formula =
      formula.forM (checkPart sheet parameters names) := by
  induction formula with
  | nil => rfl
  | cons part rest ih =>
    rw [checkFormula, ih]
    rfl

theorem checkFormulas_eq_forM (formulas : List Formula) :
    checkFormulas sheet parameters names formulas =
      formulas.forM (checkFormula sheet parameters names) := by
  induction formulas with
  | nil => rfl
  | cons formula rest ih =>
    rw [checkFormulas, ih]
    rfl

theorem checkFormula_eq_ok {formula : Formula} :
    checkFormula sheet parameters names formula = .ok () ↔
      ∀ part ∈ formula, checkPart sheet parameters names part = .ok () := by
  rw [checkFormula_eq_forM, Outcome.forM_eq_ok]

theorem checkPart_name {site : Site} :
    checkPart sheet parameters names (.name site) = .ok () ↔
      (names → site.text ∉ parameters → sheet.symbols.contains site.text) := by
  rw [checkPart]
  split
  next unknown => simp [unknown]
  next known =>
    simp only [true_iff]
    intro wanted free
    by_contra missing
    exact known ⟨wanted, free, missing⟩

theorem checkPart_call {callee : Callee} {arguments : List Formula} :
    checkPart sheet parameters names (.call callee arguments) = .ok () ↔
      sheet.checkCall parameters callee arguments = .ok () ∧
        ∀ argument ∈ arguments, checkFormula sheet parameters names argument = .ok () := by
  rw [checkPart, checkFormulas_eq_forM, Outcome.bind_eq_ok, Outcome.forM_eq_ok]
  constructor
  · rintro ⟨_, first, rest⟩
    exact ⟨first, rest⟩
  · rintro ⟨first, rest⟩
    exact ⟨(), first, rest⟩

theorem checkPart_of_has {formula : Formula} {part : Part}
    (h : checkFormula sheet parameters names formula = .ok ()) (has : formula.Has part) :
    checkPart sheet parameters names part = .ok () := by
  induction formula using Formula.nesting_induction with
  | step formula inBracket inArgument =>
    have parts := checkFormula_eq_ok.mp h
    rcases Formula.has_iff.mp has with member | ⟨opening, inside, member, has⟩ |
      ⟨callee, arguments, member, argument, given, has⟩
    · exact parts part member
    · have passed := parts _ member
      rw [checkPart] at passed
      exact inBracket opening inside member passed has
    · have passed := (checkPart_call.mp (parts _ member)).2 argument given
      exact inArgument callee arguments member argument given passed has

theorem checkFormula_allFit {formula : Formula}
    (h : checkFormula sheet parameters names formula = .ok ()) : sheet.AllFit formula :=
  fun _ _ has => checkCall_fits (checkPart_call.mp (checkPart_of_has h has)).1

theorem checkFunction_allFit {f : Function} {definition : Definition}
    (given : f.definition? = some definition) (h : sheet.checkFunction f = .ok ()) :
    sheet.AllFit definition.body := by
  unfold checkFunction at h
  rw [given] at h
  exact checkFormula_allFit h

theorem checkStatement_allFit {statement : Statement}
    (h : sheet.checkStatement statement = .ok ()) : sheet.AllFit statement.body := by
  cases statement with
  | formula formula => exact checkFormula_allFit h
  | plot definition => exact checkFunction_allFit (f := .plot definition) rfl h

end Checks

section Passed

variable {entered next : Sheet} {raw statements : List Statement}

theorem Passed.statement_allFit (passed : Passed sheet entered next raw statements)
    {statement : Statement} (member : statement ∈ statements) : next.AllFit statement.body := by
  have checked {line : Statement} (present : line ∈ raw) : next.AllFit line.body := by
    have fit := checkStatement_allFit (passed.lines line present)
    unfold AllFit Fits at fit ⊢
    rw [passed.symbols]
    exact fit
  cases finishStatements_mem passed.finished member with
  | plot present => exact checked present
  | formula present nonempty done =>
    rw [Formula.finish_eq_ok done]
    intro callee arguments has
    exact checked present callee arguments (Formula.has_call_foldSign has)

theorem Passed.body_checked (passed : Passed sheet entered next raw statements)
    (coherent : next.Coherent) {name : String} {definition : Definition}
    (found : next.body? name = some definition) :
    checkFormula next definition.parameters true definition.body = .ok () := by
  have own : next.body? definition.name = some definition := by
    rw [(coherent.named found).1, found]
  obtain ⟨f, member, given⟩ := coherent.mem_definitions.mpr own
  have checked := passed.functions f member
  unfold checkFunction at checked
  rw [given] at checked
  exact checked

theorem Passed.body_allFit (passed : Passed sheet entered next raw statements)
    (coherent : next.Coherent) {name : String} {definition : Definition}
    (found : next.body? name = some definition) : next.AllFit definition.body :=
  checkFormula_allFit (passed.body_checked coherent found)

theorem Passed.sequence_known (passed : Passed sheet entered next raw statements)
    (coherent : next.Coherent) {name : String}
    (found : next.symbols.function? name = some .sequence) : next.checkedSequence?.isSome := by
  have defined : next.sequence?.isSome := coherent _ _ found
  rcases checkSequence_eq_ok passed.sequence with ⟨missing, rfl⟩ | ⟨s, progression, -, rfl⟩
  · rw [missing] at defined
    contradiction
  · rfl

end Passed

section Evaluation

/-- The calls that evaluating a formula can meet: its own, and those met in the bodies of what they
call, user functions and plots alike. -/
inductive Meets (sheet : Sheet) : Formula → Callee → List Formula → Prop
  | own {formula : Formula} {callee : Callee} {arguments : List Formula} :
      formula.Has (.call callee arguments) → Meets sheet formula callee arguments
  | inside {formula : Formula} {callee inner : Callee} {arguments given : List Formula}
      {definition : Definition} :
      formula.Has (.call callee arguments) → sheet.body? callee.name = some definition →
        Meets sheet definition.body inner given → Meets sheet formula inner given

structure Valid (sheet : Sheet) : Prop where
  coherent : sheet.Coherent
  bodies : ∀ name definition, sheet.body? name = some definition → sheet.AllFit definition.body
  sequence : ∀ name, sheet.symbols.function? name = some .sequence → sheet.checkedSequence?.isSome

theorem Valid.meets_fits (valid : sheet.Valid) {formula : Formula} (fit : sheet.AllFit formula)
    {callee : Callee} {arguments : List Formula} (h : sheet.Meets formula callee arguments) :
    sheet.Fits callee arguments := by
  induction h with
  | own has => exact fit _ _ has
  | inside has found _ ih => exact ih (valid.bodies _ _ found)

theorem formulaValue_naming {run : Function → Callee → Scope → Except Error Answer}
    {formula : Formula} (fit : sheet.AllFit formula)
    (runs : ∀ name f, sheet.symbols.function? name = some f → ∀ callee scope fault position,
      run f callee scope = .error (.naming fault position) → ∃ name, fault = .unboundVariable name)
    {scope : Scope} {fault : NamingFault} {position : Position}
    (h : formulaValue sheet run scope formula = .error (.naming fault position)) :
    ∃ name, fault = .unboundVariable name := by
  generalize raised : Error.naming fault position = e at h
  cases formulaValue_error h with
  | own own =>
    subst raised
    contradiction
  | @unbound site has =>
    cases raised
    exact ⟨site.text, rfl⟩
  | call has fails =>
    obtain ⟨f, known, given⟩ := fit _ _ has
    cases fails with
    | unknown missing =>
      rw [missing] at known
      contradiction
    | arity found failed =>
      rw [found] at known
      cases known
      rw [checkArity_eq_ok.mpr given] at failed
      contradiction
    | run found _ _ failed =>
      subst raised
      exact runs _ _ found _ _ _ _ failed
    | points => contradiction

theorem builtin_arity {b : Builtin} (member : b ∈ Builtin.all) {arguments : List Float}
    (given : arguments.length = b.parameters.length) (expected count : Nat) :
    b.call arguments ≠ .error (.argumentCount expected count) := by
  have unary (name : String) (f : Float → Float)
      (given : arguments.length = (Builtin.unary name f).parameters.length) :
      (Builtin.unary name f).call arguments ≠ .error (.argumentCount expected count) := by
    match arguments, given with
    | [x], _ => simp [Builtin.unary]
  have ofRatio (name : String) (f : Float → Float)
      (given : arguments.length = (Builtin.ofRatio name f).parameters.length) :
      (Builtin.ofRatio name f).call arguments ≠ .error (.argumentCount expected count) := by
    match arguments, given with
    | [x, y], _ =>
      simp only [Builtin.ofRatio]
      split <;> simp
  simp only [Builtin.all, List.mem_cons, List.not_mem_nil, or_false] at member
  rcases member with rfl | rfl | rfl | rfl | rfl | rfl | rfl | rfl
  all_goals first | exact unary _ _ given | exact ofRatio _ _ given

theorem Valid.runFunction_naming (valid : sheet.Valid) {depth : Nat} {name : String} {f : Function}
    (found : sheet.symbols.function? name = some f) {callee : Callee} {scope : Scope}
    {fault : NamingFault} {position : Position}
    (h : sheet.runFunction depth f callee scope = .error (.naming fault position)) :
    ∃ name, fault = .unboundVariable name := by
  induction depth generalizing name f callee scope fault position with
  | zero => simp [runFunction] at h
  | succ depth ih =>
    generalize raised : Error.naming fault position = e at h
    cases runFunction_error h with
    | arithmetic | missing => contradiction
    | @body definition scope _ enters failed =>
      subst raised
      have body : sheet.body? name = some definition :=
        body?_iff.mpr ⟨f, found, enters.definition?⟩
      refine formulaValue_naming (valid.bodies name definition body) ?_ failed
      intro name f found callee scope fault position failed
      exact ih found failed
    | noSequence same missing =>
      subst same
      have known := valid.sequence name found
      rw [missing] at known
      contradiction
    | arity same given failed =>
      subst same
      exact absurd failed (builtin_arity (valid.coherent _ _ found) given _ _)

theorem Valid.output_naming (valid : sheet.Valid) {statement : Statement}
    (fit : sheet.AllFit statement.body) {plotNumber : Nat} {fault : NamingFault}
    {position : Position}
    (h : sheet.output plotNumber statement = .error (.naming fault position)) :
    ∃ name, fault = .unboundVariable name := by
  have value {scope : Scope}
      (failed : sheet.evaluate scope statement.body = .error (.naming fault position)) :
      ∃ name, fault = .unboundVariable name := by
    refine formulaValue_naming fit ?_ failed
    intro name f found callee scope fault position failed
    exact valid.runFunction_naming found failed
  cases statement with
  | formula formula => exact value (Outcome.map_eq_error.mp h)
  | plot definition =>
    obtain ⟨scope, -, failed⟩ := samples_error (Outcome.map_eq_error.mp h)
    exact value failed

end Evaluation

theorem valid_of_parse {source : String} {limits : Limits} {statements : List Statement}
    (parsed : (ofSource source limits).parse = (sheet, .ok statements)) :
    sheet.Valid ∧ ∀ statement ∈ statements, sheet.AllFit statement.body := by
  have coherent := (reachable_of_parse parsed).coherent
  obtain ⟨entered, raw, passed⟩ := parse_eq_ok parsed
  constructor
  · exact ⟨coherent, fun _ _ => passed.body_allFit coherent,
      fun _ => passed.sequence_known coherent⟩
  · intro statement member
    exact passed.statement_allFit member

/-- Every call that evaluating a statement can meet, on a sheet that was read without an error, is
of a function that takes its arguments and has the sequence if it needs it; so the only names that
evaluation misses are those of variables. -/
theorem parse_valid (source : String) (limits : Limits) (sheet : Sheet)
    (statements : List Statement)
    (parsed : (ofSource source limits).parse = (sheet, .ok statements)) :
    ∀ statement ∈ statements,
      (∀ callee arguments, sheet.Meets statement.body callee arguments →
        ∃ f, sheet.symbols.function? callee.name = some f ∧
          arguments.length = f.parameters.length ∧
          (f = .sequence → sheet.checkedSequence?.isSome)) ∧
      ∀ plotNumber fault position,
        sheet.output plotNumber statement = .error (.naming fault position) →
          ∃ name, fault = .unboundVariable name := by
  obtain ⟨valid, fit⟩ := valid_of_parse parsed
  intro statement member
  constructor
  · intro callee arguments met
    obtain ⟨f, found, given⟩ := valid.meets_fits (fit statement member) met
    refine ⟨f, found, given, ?_⟩
    rintro rfl
    exact valid.sequence _ found
  · intro plotNumber fault position failed
    exact valid.output_naming (fit statement member) failed

-- The second statement's plot was replaced, and the last one misses a variable.
theorem parse_valid_replaced_plot :
    ∃ sheet statements,
      (ofSource "g(x)=x*(x)\ny=g(x)\ny=f(g(x))\nf(a)=g(a)\nz-f(pi)" {}).parse =
        (sheet, .ok statements) ∧
      ∀ statement ∈ statements, ∀ callee arguments, sheet.Meets statement.body callee arguments →
        ∃ f, sheet.symbols.function? callee.name = some f ∧
          arguments.length = f.parameters.length := by
  obtain ⟨sheet, statements, parsed⟩ := eq_ok_of_isSome
    (by decide +kernel : (ofSource "g(x)=x*(x)\ny=g(x)\ny=f(g(x))\nf(a)=g(a)\nz-f(pi)"
      {}).parse.2.toOption.isSome)
  refine ⟨sheet, statements, parsed, ?_⟩
  intro statement member callee arguments met
  obtain ⟨f, found, given, -⟩ := (parse_valid _ _ _ _ parsed statement member).1 _ _ met
  exact ⟨f, found, given⟩

end Sheet

end FormulaSheet
