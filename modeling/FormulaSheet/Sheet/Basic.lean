import FormulaSheet.Limits
import FormulaSheet.Scope
import FormulaSheet.Sequence
import FormulaSheet.SymbolTable

set_option autoImplicit false

namespace FormulaSheet

structure Sheet where
  source : String
  symbols : SymbolTable := .withBuiltins
  sequence? : Option Sequence := none
  limits : Limits := {}

inductive Statement where
  | formula (formula : Formula)
  | plot (definition : Definition)

namespace Sheet

def ofSource (source : String) (limits : Limits) : Sheet :=
  { source, limits }

def grammarError (sheet : Sheet) (fault : GrammarFault) (site : Site) : Error :=
  .grammar fault (site.locate sheet.source)

def namingError (sheet : Sheet) (fault : NamingFault) (site : Site) : Error :=
  .naming fault (site.locate sheet.source)

-- The scope hides the constants of the sheet.
def value? (sheet : Sheet) (scope : Scope) (name : String) : Option Float :=
  scope.find? name <|> sheet.symbols.constant? name

-- A sequence answers only once its terms have been checked.
def checkedSequence? (sheet : Sheet) : Option (Sequence × Progression) :=
  sheet.sequence?.bind fun s => s.progression?.map fun progression => (s, progression)

end Sheet

end FormulaSheet
