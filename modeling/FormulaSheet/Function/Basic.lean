import FormulaSheet.Formula.Basic
import FormulaSheet.Function.Builtin

set_option autoImplicit false

namespace FormulaSheet

structure Definition where
  name : String
  parameters : List String
  body : Formula

inductive Function where
  | user (definition : Definition)
  | plot (definition : Definition)
  | sequence
  | builtin (builtin : Builtin)

namespace Function

def name : Function → String
  | user definition | plot definition => definition.name
  | sequence => "S"
  | builtin b => b.name

def parameters : Function → List String
  | user definition | plot definition => definition.parameters
  | sequence => ["value"]
  | builtin b => b.parameters

def user? : Function → Option Definition
  | user definition => some definition
  | _ => none

def definition? : Function → Option Definition
  | user definition | plot definition => some definition
  | _ => none

end Function

end FormulaSheet
