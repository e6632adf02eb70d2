import FormulaSheet.Error
import FormulaSheet.Token.Basic

/-!
A formula is a flat list of values and operators; only brackets and arguments nest. Precedence is
applied when a formula is evaluated.
-/

set_option autoImplicit false

namespace FormulaSheet

structure Operator where
  operation : Operation
  site : Site
  deriving DecidableEq

-- Which function is called, how, and where. A query calls the sequence by its small name.
structure Callee where
  site : Site
  name : String
  kind : CallKind
  deriving DecidableEq

inductive Part where
  | literal (site : Site) (value : Float)
  | name (site : Site)
  | operator (operator : Operator)
  | bracket (opening : Site) (inside : List Part)
  | call (callee : Callee) (arguments : List (List Part))

abbrev Formula := List Part

namespace Part

def isValue : Part → Bool
  | operator _ => false
  | _ => true

def place : Part → Place
  | literal site _ | name site => site.place
  | operator o => o.site.place
  | bracket opening _ => opening.place
  | call callee _ => callee.site.place

end Part

def Operator.implied (place : Place) : Operator :=
  ⟨.multiply, ⟨Operation.multiply.text, place⟩⟩

namespace Formula

-- While a formula is built its last part comes first.
def addValue (done : Formula) (value : Part) : Formula :=
  match done with
  | [] => [value]
  | last :: earlier =>
    if last.isValue then value :: .operator (.implied value.place) :: last :: earlier
    else value :: last :: earlier

/-- Two minus signs in a row make a plus; no other operator may follow an operator, except a
minus. Only a minus may begin a formula. -/
def addOperator (done : Formula) (o : Operator) : Except GrammarFault Formula :=
  match done with
  | .operator last :: earlier =>
    if last.operation = .subtract ∧ o.operation = .subtract then
      .ok (.operator ⟨.add, ⟨Operation.add.text, last.site.place⟩⟩ :: earlier)
    else if last.operation = o.operation then .error (.repeatedOperator o.operation)
    else if o.operation ≠ .subtract then .error .unexpectedOperator
    else .ok (.operator o :: done)
  | [] => if o.operation = .subtract then .ok [.operator o] else .error .unexpectedOperator
  | _ => .ok (.operator o :: done)

def foldSign : Formula → Formula
  | .operator o :: .literal site value :: rest =>
    if o.operation = .subtract then
      .literal ⟨Operation.subtract.text ++ site.text, o.site.place⟩ (-value) :: rest
    else .operator o :: .literal site value :: rest
  | parts => parts

theorem foldSign_minus {o : Operator} (minus : o.operation = .subtract) (site : Site)
    (value : Float) (rest : Formula) :
    foldSign (.operator o :: .literal site value :: rest) =
      .literal ⟨Operation.subtract.text ++ site.text, o.site.place⟩ (-value) :: rest :=
  if_pos minus

end Formula

end FormulaSheet
