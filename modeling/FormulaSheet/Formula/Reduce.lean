import FormulaSheet.Formula.Basic
import FormulaSheet.Limits

set_option autoImplicit false

namespace FormulaSheet

def Operation.evaluate (operation : Operation) (limits : Limits) (left right : Float) :
    Except ArithmeticFault Float :=
  if left.abs > limits.maxNumber then .error .leftTooLarge
  else if right.abs > limits.maxNumber then .error .rightTooLarge
  else if operation = .power ∧ right > limits.maxExponent then
    .error (.exponentTooLarge limits.maxExponent right)
  else if operation = .divide ∧ right == 0 then .error .divisionByZero
  else
    let value := operation.apply left right
    if value.isFinite then .ok value else .error (.undefinedOperation operation left right)

def Operator.evaluate (o : Operator) (limits : Limits) (source : String) (left right : Float) :
    Except Error Float :=
  (o.operation.evaluate limits left right).mapError fun fault =>
    .arithmetic fault (o.site.locate source) left right

inductive Item where
  | value (value : Float)
  | operator (operator : Operator)
  deriving DecidableEq

namespace Item

-- Applies every operator of one operation; what has been passed is in `done`, the last first.
def sweep (limits : Limits) (source : String) (operation : Operation) :
    (done items : List Item) → Except Error (List Item)
  | done, [] => .ok done.reverse
  | done, .value v :: rest => sweep limits source operation (.value v :: done) rest
  | done, .operator o :: rest =>
    if o.operation = operation then
      match done, rest with
      | .value left :: done, .value right :: rest => do
        let value ← o.evaluate limits source left right
        sweep limits source operation (.value value :: done) rest
      | .value _ :: _, _ =>
        .error (.grammar (.missingOperand o.operation) (o.site.locate source))
      | _, _ => .error (.grammar .unexpectedOperator (o.site.locate source))
    else sweep limits source operation (.operator o :: done) rest

def reduce (limits : Limits) (source : String) (items : List Item) : Except Error Float := do
  let items ← Operation.precedence.foldlM
    (fun items operation => sweep limits source operation [] items) items
  match items with
  | [.value v] => return v
  | [] => throw (.internal .emptyFormula)
  | _ => throw (.internal (.unreduced items.length))

end Item

end FormulaSheet
