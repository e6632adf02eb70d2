import FormulaSheet.Decimal.Shortest

set_option autoImplicit false

namespace FormulaSheet.Decimal

def fractionText (fraction places : Nat) : String :=
  let digits := (toString fraction).toList
  let padded := List.replicate (places - digits.length) '0' ++ digits
  String.ofList (padded.reverse.dropWhile (· = '0')).reverse

def plain (d : Decimal) : String :=
  if 0 ≤ d.exponent then
    toString (d.digits * Nat.pow 10 d.exponent.toNat)
  else
    let places := (-d.exponent).toNat
    let whole := toString (d.digits / Nat.pow 10 places)
    let fraction := d.digits % Nat.pow 10 places
    if fraction = 0 then whole else whole ++ "." ++ fractionText fraction places

def text (x : Float) : String :=
  if x.isNaN then "NaN"
  else
    let sign := if x.toBits.toNat < Nat.pow 2 63 then "" else "-"
    if x.isInf then sign ++ "inf" else sign ++ (Binary.ofBits x.toBits).shortest.plain

end FormulaSheet.Decimal
