import FormulaSheet.Proofs.Faults
import FormulaSheet.Proofs.Parsed
import FormulaSheet.Proofs.Recursion

set_option autoImplicit false

namespace FormulaSheet.Sheet

variable {sheet : Sheet}

inductive Comes (sheet : Sheet) : Formula → Formula → Prop
  | within {root formula : Formula} : Formula.Within formula root → Comes sheet root formula
  | body {root formula : Formula} {callee : Callee} {arguments : List Formula}
      {definition : Definition} :
      root.Has (.call callee arguments) → sheet.body? callee.name = some definition →
        Comes sheet definition.body formula → Comes sheet root formula

inductive Mishap (sheet : Sheet) (root : Formula) : Error → Prop
  | arithmetic (fault : ArithmeticFault) (position : Position) (left right : Float) :
      Mishap sheet root (.arithmetic fault position left right)
  | naming (fault : NamingFault) (position : Position) : Mishap sheet root (.naming fault position)
  | plotCalled (position : Position) : Mishap sheet root (.grammar .plotCalled position)
  | crowded {formula : Formula} (position : Position) : sheet.Comes root formula →
      formula.Crowded → Mishap sheet root (.grammar .unexpectedOperator position)
  | tooDeep : Mishap sheet root (.internal .callsTooDeep)

section Evaluation

theorem Mishap.inBody {root : Formula} {callee : Callee} {arguments : List Formula}
    {definition : Definition} {e : Error} (has : root.Has (.call callee arguments))
    (found : sheet.body? callee.name = some definition) (h : Mishap sheet definition.body e) :
    Mishap sheet root e := by
  cases h with
  | arithmetic => exact .arithmetic _ _ _ _
  | naming => exact .naming _ _
  | plotCalled => exact .plotCalled _
  | crowded position comes crowded => exact .crowded position (.body has found comes) crowded
  | tooDeep => exact .tooDeep

theorem formulaValue_mishap {run : Function → Callee → Scope → Except Error Answer}
    {formula : Formula} (built : formula.Built)
    (runs : ∀ callee arguments, formula.Has (.call callee arguments) → ∀ f,
      sheet.symbols.function? callee.name = some f → ∀ values : List Float,
        values.length = f.parameters.length → ∀ e,
          run f callee (.bind f.parameters values) = .error e → Mishap sheet formula e)
    {scope : Scope} {e : Error} (h : formulaValue sheet run scope formula = .error e) :
    Mishap sheet formula e := by
  refine formulaValue_error_of ?_ (fun site _ _ => .naming _ _) ?_ h
  · intro within deep e failed parts
    rcases composed_fault (built within deep) failed parts with ⟨fault, position, left, right, rfl⟩ |
      ⟨crowded, position, rfl⟩
    · exact .arithmetic fault position left right
    · exact .crowded position (.within deep) crowded
  · intro callee arguments has e fault
    cases fault with
    | unknown => exact .naming _ _
    | arity _ failed =>
      obtain ⟨fault, rfl⟩ := checkArity_error failed
      exact .naming _ _
    | run found arity given failed =>
      exact runs callee arguments has _ found _ (given.trans (checkArity_eq_ok.mp arity)) _ failed
    | points => exact .plotCalled _

theorem argument_bind {names : List String} {values : List Float} {name : String}
    (given : values.length = names.length) (member : name ∈ names) (fault : InternalFault) :
    (Scope.bind names values).argument name ≠ .error fault := by
  obtain ⟨x, found⟩ := Option.isSome_iff_exists.mp (Scope.covers_bind given name member)
  simp [Scope.argument, found]

def AllBuilt (sheet : Sheet) : Prop :=
  ∀ name definition, sheet.body? name = some definition → definition.body.Built

theorem AllBuilt.runFunction_mishap (allBuilt : sheet.AllBuilt) {depth : Nat} {root : Formula}
    {callee : Callee} {arguments : List Formula} {f : Function} {values : List Float} {e : Error}
    (has : root.Has (.call callee arguments))
    (found : sheet.symbols.function? callee.name = some f)
    (given : values.length = f.parameters.length)
    (h : sheet.runFunction depth f callee (.bind f.parameters values) = .error e) :
    Mishap sheet root e := by
  induction depth generalizing root callee arguments f values e with
  | zero =>
    cases h
    exact .tooDeep
  | succ depth ih =>
    cases runFunction_error h with
    | arithmetic fault position left right => exact .arithmetic fault position left right
    | missing member missing => exact absurd missing (argument_bind given member _)
    | @body definition scope _ enters failed =>
      have body : sheet.body? callee.name = some definition :=
        body?_iff.mpr ⟨f, found, enters.definition?⟩
      refine .inBody has body (formulaValue_mishap (allBuilt _ _ body) ?_ failed)
      intro inner others has g found values given e failed
      exact ih has found given failed
    | noSequence | arity => exact .naming _ _

theorem AllBuilt.evaluate_mishap (allBuilt : sheet.AllBuilt) {formula : Formula}
    (built : formula.Built) {scope : Scope} {e : Error}
    (h : sheet.evaluate scope formula = .error e) : Mishap sheet formula e := by
  refine formulaValue_mishap built ?_ h
  intro callee arguments has f found values given e failed
  exact allBuilt.runFunction_mishap has found given failed

end Evaluation

section Sheets

theorem Reachable.allBuilt (reachable : sheet.Reachable) : sheet.AllBuilt := by
  intro name definition found
  obtain ⟨f, bound, given⟩ := body?_iff.mp found
  cases reachable.allWritten name f bound with
  | user read | plot read =>
    cases given
    exact Formula.built_of_captured read _ List.mem_cons_self
  | sequence | builtin => contradiction

end Sheets

end FormulaSheet.Sheet

namespace FormulaSheet

def Statement.Drafted : Statement → Prop
  | .formula parts => Formula.Drafted parts.reverse
  | .plot drawn => drawn.body.Built

namespace Sheet

variable {sheet entered next : Sheet} {raw statements : List Statement}

theorem Raw.drafted {source : String} {tokens : List Token} {statement : Statement}
    (h : Raw source tokens statement) : statement.Drafted := by
  cases h with
  | formula _ found => exact (Formula.building source).1 _ _ _ found .empty
  | plot read => exact Formula.built_of_captured read _ List.mem_cons_self

theorem Passed.built (passed : Passed sheet entered next raw statements) :
    ∀ statement ∈ statements, statement.body.Built := by
  obtain ⟨tokens, -, defined⟩ := passed.defined
  have lines := rawStatements_raw defined
  intro statement member
  cases finishStatements_mem passed.finished member with
  | formula present nonempty done => exact (lines _ present).drafted.finish nonempty done
  | plot present => exact (lines _ present).drafted

theorem AllBuilt.output_mishap (allBuilt : sheet.AllBuilt) {statement : Statement}
    (built : statement.body.Built) {plotNumber : Nat} {e : Error}
    (h : sheet.output plotNumber statement = .error e) : Mishap sheet statement.body e := by
  cases statement with
  | formula formula => exact allBuilt.evaluate_mishap built (Outcome.map_eq_error.mp h)
  | plot definition =>
    obtain ⟨scope, -, failed⟩ := samples_error (Outcome.map_eq_error.mp h)
    exact allBuilt.evaluate_mishap built failed

theorem mishap_of_parse {source : String} {limits : Limits}
    (parsed : (ofSource source limits).parse = (sheet, .ok statements)) {statement : Statement}
    (member : statement ∈ statements) {plotNumber : Nat} {e : Error}
    (h : sheet.output plotNumber statement = .error e) : Mishap sheet statement.body e := by
  obtain ⟨entered, raw, passed⟩ := parse_eq_ok parsed
  exact (reachable_of_parse parsed).allBuilt.output_mishap (passed.built statement member) h

/-- On a sheet that was read without an error, evaluation finds the syntax at fault only where a
plot is called, or where a formula has an operator after a sign that awaits its value. -/
theorem grammar_of_parse (source : String) (limits : Limits) (sheet : Sheet)
    (statements : List Statement)
    (parsed : (ofSource source limits).parse = (sheet, .ok statements)) :
    ∀ statement ∈ statements, ∀ plotNumber fault position,
      sheet.output plotNumber statement = .error (.grammar fault position) →
        fault = .plotCalled ∨
          fault = .unexpectedOperator ∧
            ∃ formula, sheet.Comes statement.body formula ∧ formula.Crowded := by
  intro statement member plotNumber fault position failed
  cases mishap_of_parse parsed member failed with
  | plotCalled => exact .inl rfl
  | crowded _ comes crowded => exact .inr ⟨rfl, _, comes, crowded⟩

-- Two signs are read as one, and a third as one more.
theorem grammar_of_parse_crowded :
    ∃ sheet statements, (ofSource "f(a)=2---a\n1-f(--3)\n---3" {}).parse = (sheet, .ok statements) ∧
      ∃ statement ∈ statements, ∃ formula, sheet.Comes statement.body formula ∧ formula.Crowded := by
  have refused : (ofSource "f(a)=2---a\n1-f(--3)\n---3" {}).runAll.2 =
      .error (.grammar .unexpectedOperator ⟨⟨"-", 22, 3, 3⟩, "---3"⟩) := by decide +kernel
  have accepted : (ofSource "f(a)=2---a\n1-f(--3)\n---3" {}).parse.2.toOption.isSome := by
    decide +kernel
  rcases runAll_eq_error refused with failed | ⟨sheet, statements, parsed, statement, member, number,
    failed⟩
  · rw [failed] at accepted
    contradiction
  rcases grammar_of_parse _ _ _ _ parsed statement member number _ _ failed with
    called | ⟨-, found⟩
  · contradiction
  · exact ⟨sheet, statements, parsed, statement, member, found⟩

-- A minus, and a plus that stands for two of them: the second is refused when it is evaluated.
theorem three_signs_refused :
    ∃ sheet statements, (ofSource "---3" {}).parse = (sheet, .ok statements) ∧
      ∃ statement ∈ statements, ∃ plotNumber position,
        sheet.output plotNumber statement = .error (.grammar .unexpectedOperator position) := by
  have refused : (ofSource "---3" {}).runAll.2 =
      .error (.grammar .unexpectedOperator ⟨⟨"-", 2, 1, 3⟩, "---3"⟩) := by decide +kernel
  have accepted : (ofSource "---3" {}).parse.2.toOption.isSome := by decide +kernel
  rcases runAll_eq_error refused with failed | ⟨sheet, statements, parsed, statement, member, number,
    failed⟩
  · rw [failed] at accepted
    contradiction
  · exact ⟨sheet, statements, parsed, statement, member, number, _, failed⟩

end Sheet

end FormulaSheet
