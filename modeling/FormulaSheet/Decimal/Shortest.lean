/-!
The shortest decimal of a binary floating-point number: of all decimals that round to the number,
one with the fewest digits, and of those the nearest.
-/

set_option autoImplicit false

namespace FormulaSheet

-- The number `digits · 10 ^ exponent`.
structure Decimal where
  digits : Nat
  exponent : Int
  deriving DecidableEq

namespace Decimal

structure Binary where
  significand : Nat
  exponent : Int
  deriving DecidableEq

def Binary.ofBits (bits : UInt64) : Binary :=
  let fraction : Nat := bits.toNat % Nat.pow 2 52
  let biased : Nat := bits.toNat / Nat.pow 2 52 % Nat.pow 2 11
  if biased = 0 then ⟨fraction, -1074⟩ else ⟨Nat.pow 2 52 + fraction, (biased : Int) - 1075⟩

structure Interval where
  low : Nat
  value : Nat
  high : Nat
  closed : Bool
  deriving DecidableEq

def Interval.contains (i : Interval) (n : Nat) : Bool :=
  if i.closed then i.low ≤ n && n ≤ i.high else i.low < n && n < i.high

/-- Half of the gap to the next double on either side, in quarters of a unit in the last place. The
gap below a power of two is half as wide, and the ends belong to an even significand. -/
def Binary.interval (b : Binary) (unit : Nat) : Interval where
  low :=
    let gap := if b.significand = Nat.pow 2 52 ∧ b.exponent ≠ -1074 then 1 else 2
    (4 * b.significand - gap) * unit
  value := 4 * b.significand * unit
  high := (4 * b.significand + 2) * unit
  closed := b.significand % 2 = 0

/-- A quarter of a unit in the last place is `2 ^ k`, that is `5 ^ (-k) · 10 ^ k` for negative
`k`: a whole number on the grid of the returned power of ten. -/
def Binary.onGrid (b : Binary) : Interval × Int :=
  let k := b.exponent - 2
  if 0 ≤ k then (b.interval (Nat.pow 2 k.toNat), 0)
  else (b.interval (Nat.pow 5 (-k).toNat), k)

def Interval.nearest? (i : Interval) (r : Nat) : Option Nat :=
  let step := Nat.pow 10 r
  let below := i.value / step
  let above := below + 1
  match i.contains (below * step), i.contains (above * step) with
  | true, true => some (if i.value - below * step < above * step - i.value then below else above)
  | true, false => some below
  | false, true => some above
  | false, false => none

def Interval.shortest (i : Interval) : Nat → Decimal
  | 0 => ⟨i.value, 0⟩
  | r + 1 =>
    match i.nearest? (r + 1) with
    | some n => ⟨n, (r + 1 : Nat)⟩
    | none => i.shortest r

def Binary.shortest (b : Binary) : Decimal :=
  let (interval, exponent) := b.onGrid
  let shortest := interval.shortest (toString interval.value).length
  ⟨shortest.digits, shortest.exponent + exponent⟩

end Decimal

end FormulaSheet
