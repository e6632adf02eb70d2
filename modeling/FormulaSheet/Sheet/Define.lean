import FormulaSheet.Formula.Build
import FormulaSheet.Sheet.Basic
import FormulaSheet.Text.Blank
import FormulaSheet.Text.Fields

set_option autoImplicit false

namespace FormulaSheet.Sheet

def addParameters (function : String) (known : List String) :
    List (List Char) → Except GrammarFault (List String)
  | [] => .ok known
  | field :: rest =>
    let parameter := String.ofList field
    if field.isEmpty ∨ ¬field.all Char.isAlpha then
      .error (.malformedParameter parameter function)
    else if parameter ∈ known then .error (.repeatedParameter parameter function)
    else addParameters function (known ++ [parameter]) rest

def readParameters (function : String) (text : List Char) :
    Except GrammarFault (List String) :=
  if (Text.trim text).isEmpty then .ok []
  else addParameters function [] ((Text.fields text).map Text.trim)

def readBody (sheet : Sheet) (site : Site) (body : Capture) : Except Error Formula := do
  match ← Formula.captured sheet.source .statements body with
  | [formula] => return formula
  | [] => throw (sheet.grammarError .emptyBody site)
  | _ => throw (sheet.grammarError .malformedBody site)

def defineFunction (sheet : Sheet) (site : Site) (name parameters body : Capture) :
    Except Error Sheet := do
  if sheet.sequence?.isSome ∧ (name.text = "S" ∨ name.text = "s") then
    throw (sheet.grammarError (.reservedName name.text) site)
  let parameters ← (readParameters name.text parameters.text.toList).mapError
    (sheet.grammarError · site)
  let body ← sheet.readBody site body
  let function := .user ⟨name.text, parameters, body⟩
  return { sheet with symbols := sheet.symbols.define name.text function }

def plotOf (sheet : Sheet) (site : Site) (body : Capture) : Except Error Definition := do
  return ⟨"y", ["x"], ← sheet.readBody site body⟩

def definePlot (sheet : Sheet) (definition : Definition) : Sheet :=
  { sheet with symbols := sheet.symbols.define definition.name (.plot definition) }

def defineSequence (sheet : Sheet) (site : Site) (first second : Capture)
    (third : Option Capture) : Except Error Sheet :=
  if sheet.sequence?.isSome ∨ sheet.symbols.contains "S" ∨ sheet.symbols.contains "s" then
    .error (sheet.grammarError .sequenceRepeated site)
  else
    .ok { sheet with
      symbols := (sheet.symbols.define "S" .sequence).define "s" .sequence
      sequence? := some { site, first, second, third } }

def define (sheet : Sheet) (site : Site) : Outline → Except Error (Sheet × List Statement)
  | .function name parameters body => do
    return (← sheet.defineFunction site name parameters body, [])
  | .plot body => do
    let definition ← sheet.plotOf site body
    return (sheet.definePlot definition, [.plot definition])
  | .sequence first second third => do
    return (← sheet.defineSequence site first second third, [])

end FormulaSheet.Sheet
