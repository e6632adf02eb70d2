import FormulaSheet.Formula.Reduce
import FormulaSheet.Output
import FormulaSheet.Sheet.Basic

/-!
Evaluating formulas on a sheet. The values of a formula are found from left to right before any
operator is applied; a call evaluates its arguments in the caller's scope and its body in a scope of
its own.
-/

set_option autoImplicit false

namespace FormulaSheet

inductive Answer where
  | number (value : Float)
  | points (points : Points)
  deriving DecidableEq

-- Where a formula may take a sign: only where a value is awaited, and only one.
inductive Awaiting where
  | value (sign : Option Operator)
  | operator

def Awaiting.signed (awaiting : Awaiting) (x : Float) : Float :=
  match awaiting with
  | .value (some sign) => if sign.operation = .subtract then -x else x
  | _ => x

namespace Sheet

def conclude (sheet : Sheet) (formula : Formula) (items : Except Error (List Item)) :
    Except Error Float :=
  match formula with
  | [.operator o] => .error (.internal (.loneOperator o.operation))
  | _ => items.bind (Item.reduce sheet.limits sheet.source)

def checkArity (sheet : Sheet) (callee : Callee) (function : Function) (given : Nat) :
    Except Error Unit :=
  let expected := function.parameters.length
  if given < expected then
    .error (sheet.namingError (.tooFewArguments callee.name) callee.site)
  else if expected < given then
    .error (sheet.namingError (.tooManyArguments callee.name) callee.site)
  else .ok ()

section Formulas

-- How a function that has been bound to its arguments is run.
variable (sheet : Sheet) (run : Function → Callee → Scope → Except Error Answer)

mutual

def partValue (scope : Scope) : Part → Except Error Float
  | .literal _ value => .ok value
  | .name site =>
    match sheet.value? scope site.text with
    | some value => .ok value
    | none => .error (sheet.namingError (.unboundVariable site.text) site)
  | .operator o => .error (.internal (.loneOperator o.operation))
  | .bracket _ inside => sheet.conclude inside (items scope (.value none) inside)
  | .call callee arguments => do
    let some function := sheet.symbols.function? callee.name
      | throw (sheet.namingError (.unknownFunction callee.name) callee.site)
    sheet.checkArity callee function arguments.length
    let values ← argumentValues scope arguments
    match ← run function callee (.bind function.parameters values) with
    | .number value => return value
    | .points _ => throw (sheet.grammarError .plotCalled callee.site)

def items (scope : Scope) : Awaiting → List Part → Except Error (List Item)
  | .value (some sign), [] =>
    .error (sheet.grammarError (.missingOperand sign.operation) sign.site)
  | _, [] => .ok []
  | awaiting, .operator o :: rest =>
    match awaiting with
    | .operator => return .operator o :: (← items scope (.value none) rest)
    | .value none =>
      if o.operation.isSign then items scope (.value (some o)) rest
      else throw (sheet.grammarError .unexpectedOperator o.site)
    | .value (some _) => throw (sheet.grammarError .unexpectedOperator o.site)
  | awaiting, part :: rest => do
    let value ← partValue scope part
    return .value (awaiting.signed value) :: (← items scope .operator rest)

def argumentValues (scope : Scope) : List (List Part) → Except Error (List Float)
  | [] => return []
  | argument :: rest => do
    let value ← sheet.conclude argument (items scope (.value none) argument)
    return value :: (← argumentValues scope rest)

end

def formulaValue (scope : Scope) (formula : Formula) : Except Error Float :=
  sheet.conclude formula (items sheet run scope (.value none) formula)

def sample (definition : Definition) (x : Int) : Except Error (Int × Option Float) :=
  let name := definition.parameters.head?.getD "x"
  match formulaValue sheet run (.bind [name] [Float.ofInt x]) definition.body with
  | .ok y => .ok (x, some y)
  | .error e => if e.isDivisionByZero then .ok (x, none) else .error e

def samples (definition : Definition) : Except Error Points :=
  sheet.limits.plotRange.toList.mapM (sample sheet run definition)

end Formulas

def askSequence (sheet : Sheet) (site : Site) (kind : CallKind) (value : Float) :
    Except Error Float :=
  match sheet.checkedSequence? with
  | none => .error (sheet.namingError .noSequence site)
  | some (_, progression) =>
    (progression.answer sheet.limits.maxExponent kind value).mapError fun fault =>
      .arithmetic fault (site.locate sheet.source) progression.first progression.ratio

def runBuiltin (sheet : Sheet) (b : Builtin) (site : Site) (scope : Scope) :
    Except Error Float := do
  let arguments ← (b.parameters.mapM scope.argument).mapError .internal
  let fail (fault : ArithmeticFault) : Except Error Float :=
    let nan : Float := 0 / 0
    .error (.arithmetic fault (site.locate sheet.source) (arguments[0]?.getD nan)
      (arguments[1]?.getD nan))
  match b.call arguments with
  | .ok value => if value.isFinite then return value else fail (.undefinedFunction b.name)
  | .error .divisionByZero => fail .divisionByZero
  | .error (.argumentCount expected given) =>
    throw (sheet.namingError (.argumentCount b.name expected given) site)

def runFunction (sheet : Sheet) : (depth : Nat) → Function → Callee → Scope → Except Error Answer
  | 0, _, _, _ => .error (.internal .callsTooDeep)
  | depth + 1, .user definition, _, scope =>
    (formulaValue sheet (sheet.runFunction depth) scope definition.body).map .number
  | depth + 1, .plot definition, _, _ =>
    (samples sheet (sheet.runFunction depth) definition).map .points
  | _ + 1, .sequence, callee, scope => do
    let value ← (scope.argument "value").mapError .internal
    return .number (← sheet.askSequence callee.site callee.kind value)
  | _ + 1, .builtin b, callee, scope =>
    (sheet.runBuiltin b callee.site scope).map .number

-- More calls than any run that ends can nest in memory.
def roomForCalls : Nat := 1000000

/-- Functions that do not call themselves nest no deeper than there are definitions. On a sheet that
was refused because a function calls itself, its calls may still end, in an error, at a depth that
hangs on the numbers; the room is for them. -/
def callDepth (sheet : Sheet) : Nat :=
  sheet.symbols.definedNames.length + roomForCalls

def run (sheet : Sheet) : Function → Callee → Scope → Except Error Answer :=
  sheet.runFunction sheet.callDepth

def evaluate (sheet : Sheet) (scope : Scope) (formula : Formula) : Except Error Float :=
  formulaValue sheet sheet.run scope formula

def evaluatePart (sheet : Sheet) (scope : Scope) (part : Part) : Except Error Float :=
  partValue sheet sheet.run scope part

def drawPlot (sheet : Sheet) (number : Nat) (definition : Definition) : Except Error Output :=
  (samples sheet sheet.run definition).map fun points => .plot ⟨number, points⟩

def drawFunction (sheet : Sheet) (number : Nat) (function : Function) : Except Error Output :=
  match function with
  | .plot definition => sheet.drawPlot number definition
  | _ => .error (.internal (.notAPlot function.name))

end Sheet

end FormulaSheet
