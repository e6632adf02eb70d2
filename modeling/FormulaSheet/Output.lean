set_option autoImplicit false

namespace FormulaSheet

abbrev Points := List (Int × Option Float)

structure Plot where
  number : Nat
  points : Points
  deriving DecidableEq

inductive Output where
  | number (value : Float)
  | plot (plot : Plot)
  deriving DecidableEq

inductive Rendered where
  | number (value : Float)
  | image (number : Nat) (bytes : List UInt8)
  deriving DecidableEq

def Output.renderAll {ε : Type} (draw : Plot → Except ε (List UInt8)) (outputs : List Output) :
    Except ε (List Rendered) :=
  outputs.mapM fun
    | .number value => .ok (.number value)
    | .plot p => (draw p).map (.image p.number)

end FormulaSheet
