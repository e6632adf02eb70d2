import FormulaSheet.Function.Basic

set_option autoImplicit false

namespace FormulaSheet

inductive Symbol where
  | constant (value : Float)
  | function (function : Function)

structure SymbolTable where
  bindings : List (String × Symbol) := []
  definedNames : List String := []

namespace SymbolTable

def empty : SymbolTable := {}

def find? (table : SymbolTable) (name : String) : Option Symbol :=
  table.bindings.lookup name

def insert (table : SymbolTable) (name : String) (symbol : Symbol) : SymbolTable :=
  { table with bindings := (name, symbol) :: table.bindings }

theorem find?_insert (table : SymbolTable) (name other : String) (symbol : Symbol) :
    (table.insert name symbol).find? other =
      if other = name then some symbol else table.find? other := by
  by_cases h : other = name
  · simp [find?, insert, h]
  · simp [find?, insert, List.lookup_cons, h, beq_false_of_ne h]

def contains (table : SymbolTable) (name : String) : Bool :=
  (table.find? name).isSome

def constant? (table : SymbolTable) (name : String) : Option Float :=
  match table.find? name with
  | some (.constant value) => some value
  | _ => none

def function? (table : SymbolTable) (name : String) : Option Function :=
  match table.find? name with
  | some (.function function) => some function
  | _ => none

def define (table : SymbolTable) (name : String) (function : Function) : SymbolTable :=
  let table := table.insert name (.function function)
  if name ∈ table.definedNames then table
  else { table with definedNames := table.definedNames ++ [name] }

theorem find?_define (table : SymbolTable) (name other : String) (function : Function) :
    (table.define name function).find? other =
      if other = name then some (.function function) else table.find? other := by
  have : (table.define name function).bindings = (name, .function function) :: table.bindings := by
    simp only [define]
    split <;> rfl
  by_cases h : other = name
  · simp [find?, this, h]
  · simp [find?, this, List.lookup_cons, h, beq_false_of_ne h]

def definitions (table : SymbolTable) : List Function :=
  table.definedNames.filterMap table.function?

def withBuiltins : SymbolTable :=
  let functions := Builtin.all.foldl (fun table b => table.insert b.name (.function (.builtin b)))
    empty
  Builtin.constants.foldl (fun table (name, value) => table.insert name (.constant value)) functions

end SymbolTable

end FormulaSheet
