import FormulaSheet.Formula.Build
import FormulaSheet.Sheet.Evaluate
import FormulaSheet.Sheet.Recursion
import FormulaSheet.Text.Blank

set_option autoImplicit false

namespace FormulaSheet.Sheet

-- An argument that is a single name has to be a parameter or a constant.
def checkArgument (sheet : Sheet) (parameters : List String) : Formula → Except Error Unit
  | [.name site] =>
    if site.text ∈ parameters ∨ (sheet.symbols.constant? site.text).isSome then .ok ()
    else .error (sheet.namingError (.unknownArgument site.text) site)
  | _ => .ok ()

def checkCall (sheet : Sheet) (parameters : List String) (callee : Callee)
    (arguments : List Formula) : Except Error Unit :=
  match sheet.symbols.find? callee.name with
  | some (.function function) => do
    sheet.checkArity callee function arguments.length
    arguments.forM (sheet.checkArgument parameters)
  | some (.constant _) => .error (sheet.namingError (.notAFunction callee.name) callee.site)
  | none => .error (sheet.namingError (.unknownFunction callee.name) callee.site)

section Formulas

-- With `names`, a name has to be a parameter or to be bound on the sheet.
variable (sheet : Sheet) (parameters : List String) (names : Bool)

mutual

def checkPart : Part → Except Error Unit
  | .literal .. | .operator _ => .ok ()
  | .name site =>
    if names ∧ site.text ∉ parameters ∧ ¬sheet.symbols.contains site.text then
      .error (sheet.namingError (.unknownVariable site.text) site)
    else .ok ()
  | .bracket _ inside => checkFormula inside
  | .call callee arguments => do
    sheet.checkCall parameters callee arguments
    checkFormulas arguments

def checkFormula : List Part → Except Error Unit
  | [] => .ok ()
  | part :: rest => do
    checkPart part
    checkFormula rest

def checkFormulas : List (List Part) → Except Error Unit
  | [] => .ok ()
  | formula :: rest => do
    checkFormula formula
    checkFormulas rest

end

end Formulas

def checkFunction (sheet : Sheet) (function : Function) : Except Error Unit :=
  match function.definition? with
  | some definition => checkFormula sheet definition.parameters true definition.body
  | none => .ok ()

def checkStatement (sheet : Sheet) : Statement → Except Error Unit
  | .formula formula => checkFormula sheet [] false formula
  | .plot definition => sheet.checkFunction (.plot definition)

def termValue (sheet : Sheet) (site : Site) (term : Capture) : Except Error Float := do
  match ← Formula.captured sheet.source .arguments term with
  | [formula] =>
    checkFormula sheet [] false formula
    sheet.evaluate .empty formula
  | _ =>
    let text := String.ofList (Text.trim term.text.toList)
    throw (sheet.grammarError (.malformedTerm text) site)

-- Terms count up to the first that is blank.
def progressionOf (sheet : Sheet) (s : Sequence) : Except Error Progression := do
  let isGiven (term : Capture) : Bool := !(Text.trim term.text.toList).isEmpty
  let given := (s.terms.takeWhile isGiven).length
  if given < 2 then throw (sheet.grammarError (.termCount given) s.site)
  let first ← sheet.termValue s.site s.first
  let second ← sheet.termValue s.site s.second
  let third ← (s.third.filter isGiven).mapM (sheet.termValue s.site)
  Progression.ofTerms (s.site.locate sheet.source) first second third

-- While its terms are evaluated the sheet has no sequence.
def checkSequence (sheet : Sheet) : Except Error Sheet :=
  match sheet.sequence? with
  | none => .ok sheet
  | some s =>
    (progressionOf { sheet with sequence? := none } s).map fun progression =>
      { sheet with sequence? := some { s with progression? := some progression } }

def checkRecursion (sheet : Sheet) (users : List Definition) (function : Function) :
    Except Error Unit :=
  match function.definition? with
  | none => .ok ()
  | some definition =>
    match definition.selfCall? users with
    | some callee => .error (sheet.grammarError (.selfCall definition.name) callee.site)
    | none => .ok ()

def checkSelfCalls (sheet : Sheet) : Except Error Unit :=
  let functions := sheet.symbols.definitions
  functions.forM (sheet.checkRecursion (functions.filterMap Function.user?))

def checkDefinitions (sheet : Sheet) : Except Error Unit := do
  sheet.symbols.definitions.forM sheet.checkFunction
  sheet.checkSelfCalls

/-- What the check learns about the sequence is kept even if a definition turns out to be wrong. -/
def check (sheet : Sheet) (statements : List Statement) : Sheet × Except Error Unit :=
  match (do statements.forM sheet.checkStatement; sheet.checkSequence) with
  | .error e => (sheet, .error e)
  | .ok checked => (checked, checked.checkDefinitions)

end FormulaSheet.Sheet
