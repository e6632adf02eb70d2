set_option autoImplicit false

namespace FormulaSheet

inductive Operation where
  | power
  | divide
  | multiply
  | add
  | subtract
  deriving DecidableEq

structure UnknownOperation where
  text : String
  deriving DecidableEq

def UnknownOperation.message (unknown : UnknownOperation) : String :=
  "Unknown operator: " ++ unknown.text

namespace Operation

-- Tightest first. Each operation has a level of its own.
def precedence : List Operation :=
  [power, divide, multiply, add, subtract]

def symbol : Operation → Char
  | power => '^'
  | divide => '/'
  | multiply => '*'
  | add => '+'
  | subtract => '-'

def text (operation : Operation) : String :=
  String.singleton operation.symbol

def ofChar? (c : Char) : Option Operation :=
  precedence.find? fun operation => operation.symbol = c

theorem ofChar?_symbol (operation : Operation) : ofChar? operation.symbol = some operation := by
  cases operation <;> rfl

def ofText (text : String) : Except UnknownOperation Operation :=
  match text.toList.map ofChar? with
  | [some operation] => .ok operation
  | _ => .error ⟨text⟩

theorem ofText_text (operation : Operation) : ofText operation.text = .ok operation := by
  have symbols : operation.text.toList.map ofChar? = [some operation] := by
    rw [text, String.toList_singleton, List.map_singleton, ofChar?_symbol]
  rw [ofText, symbols]

def isSign : Operation → Bool
  | add | subtract => true
  | _ => false

def apply : Operation → Float → Float → Float
  | power, left, right => Float.pow left right
  | divide, left, right => left / right
  | multiply, left, right => left * right
  | add, left, right => left + right
  | subtract, left, right => left - right

end Operation

end FormulaSheet
