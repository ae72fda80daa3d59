/-! The fewest decimal digits that still read back as one binary number. A positive number is given
with the interval of reals that round to it, all over one denominator; the decimals tried are the
two neighbours of the number on the grid of each digit count. -/

namespace QueryLease

/-- A positive number `value / denominator` and the reals that round to it, which lie between
`low / denominator` and `high / denominator`, the ends themselves included iff `closed`. -/
structure Rounding where
  low : Nat
  value : Nat
  high : Nat
  denominator : Nat
  closed : Bool

structure Decimal where
  digits : Nat
  exponent : Int
  deriving DecidableEq

def digitCount (n : Nat) : Nat := if n = 0 then 0 else (Nat.toDigits 10 n).length

namespace Rounding

/-- The neighbours of `significand * 2 ^ scale`: half a unit on either side, a quarter below where
the numbers below lie twice as dense. -/
def ofBinary (significand : Nat) (scale : Int) (denseBelow : Bool) : Rounding :=
  let unit := Nat.pow 2 (scale - 2).toNat
  { low := (4 * significand - if denseBelow then 1 else 2) * unit
    value := 4 * significand * unit
    high := (4 * significand + 2) * unit
    denominator := Nat.pow 2 (2 - scale).toNat
    closed := significand % 2 = 0 }

def firstExponent (r : Rounding) : Int :=
  if r.denominator ≤ r.value then (digitCount (r.value / r.denominator) : Int) - 1
  else -(digitCount ((r.denominator - 1) / r.value) : Int)

def between (r : Rounding) (n : Nat) : Bool :=
  if r.closed then r.low ≤ n && n ≤ r.high else r.low < n && n < r.high

/-- The decimal with `count` digits nearest to the number among those that read back, a tie going
up; there may be none. -/
def nearest? (r : Rounding) (count : Nat) : Option Decimal :=
  let e := r.firstExponent + 1 - count
  let up := Nat.pow 10 (-e).toNat
  let down := Nat.pow 10 e.toNat
  let s : Rounding := ⟨r.low * up, r.value * up, r.high * up, r.denominator * down, r.closed⟩
  let below := s.value / s.denominator
  let rest := s.value % s.denominator
  let fits (n : Nat) : Bool := s.between (n * s.denominator)
  if fits below && (!fits (below + 1) || 2 * rest < s.denominator) then some ⟨below, e⟩
  else if fits (below + 1) then
    if below + 1 = Nat.pow 10 count then some ⟨1, e + count⟩ else some ⟨below + 1, e⟩
  else none

def shortest (r : Rounding) : Decimal :=
  ((List.range 17).findSome? fun n => r.nearest? (n + 1)).getD ⟨0, 0⟩

end Rounding

end QueryLease
