import FormulaSheet.Error
import FormulaSheet.Token.Basic

set_option autoImplicit false

namespace FormulaSheet

structure Progression where
  first : Float
  ratio : Float
  deriving DecidableEq

structure Sequence where
  site : Site
  first : Capture
  second : Capture
  third : Option Capture
  progression? : Option Progression := none
  deriving DecidableEq

def Sequence.terms (s : Sequence) : List Capture :=
  s.first :: s.second :: s.third.toList

namespace Progression

/-- A plain call asks for the term at an index that counts from 1. An answer that is not finite is
a fault, whatever was asked. -/
def answer (p : Progression) (maxExponent : Float) (kind : CallKind) (value : Float) :
    Except ArithmeticFault Float := do
  let answer ← match kind with
    | .plain =>
      let exponent := value - 1
      if exponent > maxExponent then .error (.exponentTooLarge maxExponent exponent)
      else .ok (p.first * Float.pow p.ratio exponent)
    | .query .indexOfTerm =>
      let denominator := Float.log p.ratio
      if denominator == 0 then .error .divisionByZero
      else .ok (Float.log (value / p.first) / denominator + 1)
    | .query .partialSum =>
      if value > maxExponent then .error (.exponentTooLarge maxExponent value)
      else if p.ratio == 1 then .error .divisionByZero
      else .ok (p.first * (Float.pow p.ratio value - 1) / (p.ratio - 1))
    | .query .indexOfPartialSum =>
      let denominator := Float.log p.ratio
      if denominator == 0 then .error .divisionByZero
      else .ok (Float.log (1 + value * (p.ratio - 1) / p.first) / denominator)
  if answer.isFinite then .ok answer else .error (.undefinedQuery value)

def quotient (position : Position) (numerator denominator : Float) : Except Error Float :=
  if denominator == 0 then .error (.arithmetic .divisionByZero position numerator denominator)
  else .ok (numerator / denominator)

def ofTerms (position : Position) (first second : Float) (third : Option Float) :
    Except Error Progression := do
  let ratio ← quotient position second first
  match third with
  | none => return ⟨first, ratio⟩
  | some third =>
    if (← quotient position third second) == ratio then return ⟨first, ratio⟩
    else throw (.grammar (.unevenTerms first second third) position)

end Progression

end FormulaSheet
