import FormulaSheet.Error

set_option autoImplicit false

namespace FormulaSheet

structure Scope where
  bindings : List (String × Float) := []
  deriving DecidableEq

namespace Scope

def empty : Scope := {}

def find? (scope : Scope) (name : String) : Option Float :=
  scope.bindings.lookup name

/-- Binds by position. Names or values left over are dropped; of two bindings of one name the later
counts. -/
def bind (names : List String) (values : List Float) : Scope :=
  ⟨(names.zip values).reverse⟩

def argument (scope : Scope) (name : String) : Except InternalFault Float :=
  match scope.find? name with
  | some value => .ok value
  | none => .error (.missingArgument name)

@[simp]
theorem find?_empty (name : String) : empty.find? name = none := rfl

end Scope

end FormulaSheet
