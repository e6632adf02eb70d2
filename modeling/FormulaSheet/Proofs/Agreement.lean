import FormulaSheet.Proofs.Validation

set_option autoImplicit false

namespace FormulaSheet

namespace SymbolTable

structure Same (table other : SymbolTable) : Prop where
  found : ∀ name, other.find? name = table.find? name
  names : other.definedNames = table.definedNames

namespace Same

variable {table other : SymbolTable}

theorem refl (table : SymbolTable) : table.Same table :=
  ⟨fun _ => rfl, rfl⟩

theorem constant? (same : table.Same other) (name : String) :
    other.constant? name = table.constant? name := by
  unfold SymbolTable.constant?
  rw [same.found]

theorem function? (same : table.Same other) (name : String) :
    other.function? name = table.function? name := by
  unfold SymbolTable.function?
  rw [same.found]

theorem contains (same : table.Same other) (name : String) :
    other.contains name = table.contains name := by
  unfold SymbolTable.contains
  rw [same.found]

theorem definitions (same : table.Same other) : other.definitions = table.definitions := by
  unfold SymbolTable.definitions
  rw [same.names, funext same.function?]

end Same

end SymbolTable

namespace Sheet

structure Agrees (sheet other : Sheet) : Prop where
  source : other.source = sheet.source
  symbols : sheet.symbols.Same other.symbols

namespace Agrees

variable {sheet other : Sheet} {parameters : List String} {names : Bool}

theorem namingError (agrees : sheet.Agrees other) (fault : NamingFault) (site : Site) :
    other.namingError fault site = sheet.namingError fault site := by
  unfold Sheet.namingError
  rw [agrees.source]

theorem checkArgument (agrees : sheet.Agrees other) (argument : Formula) :
    other.checkArgument parameters argument = sheet.checkArgument parameters argument := by
  unfold Sheet.checkArgument
  split
  · rw [agrees.symbols.constant?, agrees.namingError]
  · rfl

theorem checkCall (agrees : sheet.Agrees other) (callee : Callee) (arguments : List Formula) :
    other.checkCall parameters callee arguments = sheet.checkCall parameters callee arguments := by
  unfold Sheet.checkCall checkArity
  simp only [agrees.symbols.found, agrees.namingError, funext agrees.checkArgument]

theorem checkFormula (agrees : sheet.Agrees other) (formula : Formula) :
    Sheet.checkFormula other parameters names formula =
      Sheet.checkFormula sheet parameters names formula := by
  induction formula using Formula.nesting_induction with
  | step formula inBracket inArgument =>
    rw [checkFormula_eq_forM, checkFormula_eq_forM]
    refine Outcome.forM_congr fun part member => ?_
    cases part with
    | literal | operator => rfl
    | name => rw [checkPart, checkPart, agrees.symbols.contains, agrees.namingError]
    | bracket opening inside =>
      rw [checkPart, checkPart]
      exact inBracket opening inside member
    | call callee arguments =>
      rw [checkPart, checkPart, checkFormulas_eq_forM, checkFormulas_eq_forM,
        Outcome.forM_congr (inArgument callee arguments member), agrees.checkCall]

theorem checkFunction (agrees : sheet.Agrees other) (f : Function) :
    other.checkFunction f = sheet.checkFunction f := by
  unfold Sheet.checkFunction
  cases f.definition? with
  | none => rfl
  | some definition => exact agrees.checkFormula definition.body

theorem checkStatement (agrees : sheet.Agrees other) (statement : Statement) :
    other.checkStatement statement = sheet.checkStatement statement := by
  cases statement with
  | formula formula => exact agrees.checkFormula formula
  | plot definition => exact agrees.checkFunction (.plot definition)

theorem checkRecursion (agrees : sheet.Agrees other) (users : List Definition) (f : Function) :
    other.checkRecursion users f = sheet.checkRecursion users f := by
  unfold Sheet.checkRecursion Sheet.grammarError
  rw [agrees.source]

theorem checkDefinitions (agrees : sheet.Agrees other) :
    other.checkDefinitions = sheet.checkDefinitions := by
  unfold Sheet.checkDefinitions checkSelfCalls
  simp only [agrees.symbols.definitions, funext agrees.checkFunction,
    funext (agrees.checkRecursion _)]

end Agrees

end Sheet

end FormulaSheet
