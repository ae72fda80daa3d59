import QueryLease.Number.Binary64
import QueryLease.Number.Shortest

namespace QueryLease

def Decimal.text (d : Decimal) : String :=
  match d.exponent with
  | .ofNat n => toString (d.digits * Nat.pow 10 n)
  | .negSucc n =>
    let digits := (toString d.digits).toList
    let padded := List.replicate (n + 2 - digits.length) '0' ++ digits
    let whole := padded.length - (n + 1)
    String.ofList (padded.take whole ++ '.' :: padded.drop whole)

namespace Binary64

def rounding (x : Binary64) : Rounding :=
  .ofBinary x.significand x.scale (x.fraction = 0 && 1 < x.exponent)

def text (x : Binary64) : String :=
  if x.isNaN then "NaN"
  else
    let sign := if x.negative then "-" else ""
    if x.isInfinite then sign ++ "inf"
    else if x.isZero then sign ++ "0"
    else sign ++ x.rounding.shortest.text

end Binary64

end QueryLease
