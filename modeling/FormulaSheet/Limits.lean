set_option autoImplicit false

namespace FormulaSheet

structure PlotRange where
  first : Int
  last : Int
  deriving DecidableEq

def PlotRange.toList (range : PlotRange) : List Int :=
  (List.range (range.last + 1 - range.first).toNat).map fun i : Nat => range.first + (i : Int)

theorem PlotRange.mem_toList (range : PlotRange) (x : Int) :
    x ∈ range.toList ↔ range.first ≤ x ∧ x ≤ range.last := by
  simp only [toList, List.mem_map, List.mem_range]
  constructor
  · rintro ⟨i, hi, rfl⟩
    omega
  · intro h
    exact ⟨(x - range.first).toNat, by omega, by omega⟩

structure Limits where
  maxNumber : Float := 99999999
  maxExponent : Float := 50
  plotRange : PlotRange := ⟨-5, 5⟩
  deriving DecidableEq

end FormulaSheet
