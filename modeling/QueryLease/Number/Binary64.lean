namespace QueryLease

structure Binary32 where
  bits : UInt32
  deriving DecidableEq

structure Binary64 where
  bits : UInt64
  deriving DecidableEq

def roundHalfEven (n d : Nat) : Nat :=
  let q := n / d
  let r := n % d
  if 2 * r < d then q
  else if d < 2 * r then q + 1
  else q + q % 2

namespace Binary64

abbrev signUnit : Nat := 0x8000000000000000

abbrev exponentUnit : Nat := 0x10000000000000

def negative (x : Binary64) : Bool := x.bits.toNat / signUnit = 1

def exponent (x : Binary64) : Nat := x.bits.toNat / exponentUnit % 2048

def fraction (x : Binary64) : Nat := x.bits.toNat % exponentUnit

def ofFields (negative : Bool) (exponent fraction : Nat) : Binary64 :=
  ⟨UInt64.ofNat ((if negative then signUnit else 0) + exponent * exponentUnit + fraction)⟩

def isNaN (x : Binary64) : Bool := x.exponent = 2047 && x.fraction ≠ 0

def isInfinite (x : Binary64) : Bool := x.exponent = 2047 && x.fraction = 0

def isZero (x : Binary64) : Bool := x.exponent = 0 && x.fraction = 0

def significand (x : Binary64) : Nat :=
  if x.exponent = 0 then x.fraction else exponentUnit + x.fraction

def scale (x : Binary64) : Int := (max x.exponent 1 : Nat) - 1075

def eqv (x y : Binary64) : Bool :=
  !x.isNaN && !y.isNaN && (x.bits == y.bits || x.isZero && y.isZero)

def ofInt64 (i : Int64) : Binary64 :=
  let n := i.toInt.natAbs
  let negative := decide (i.toInt < 0)
  if n = 0 then ofFields negative 0 0
  else
    let top := n.log2
    if top ≤ 52 then ofFields negative (top + 1023) (n * Nat.pow 2 (52 - top) - exponentUnit)
    else ofFields negative (top + 1022) (roundHalfEven n (Nat.pow 2 (top - 52)))

end Binary64

namespace Binary32

abbrev signUnit : Nat := 0x80000000

abbrev exponentUnit : Nat := 0x800000

def negative (x : Binary32) : Bool := x.bits.toNat / signUnit = 1

def exponent (x : Binary32) : Nat := x.bits.toNat / exponentUnit % 256

def fraction (x : Binary32) : Nat := x.bits.toNat % exponentUnit

def widen (x : Binary32) : Binary64 :=
  if x.exponent = 255 then .ofFields x.negative 2047 (x.fraction * 0x20000000)
  else if x.exponent ≠ 0 then .ofFields x.negative (x.exponent + 896) (x.fraction * 0x20000000)
  else if x.fraction = 0 then .ofFields x.negative 0 0
  else
    let top := x.fraction.log2
    .ofFields x.negative (top + 874) (x.fraction * Nat.pow 2 (52 - top) - Binary64.exponentUnit)

end Binary32

end QueryLease
