/-!
The double of a decimal literal: the nearest double of the digits, multiplied or divided by a power
of ten, each step rounded once.
-/

namespace EventProcessing.Decimal

def power (n : Nat) : Float := Float.ofScientific 1 false n

/-- A division by more than the largest power of ten goes in several steps; `none` when the result
is beyond the largest double. -/
def scale (x : Float) (exponent : Int) : Nat → Option Float
  | 0 => some x
  | steps + 1 =>
    if exponent.natAbs ≤ 308 then
      if 0 ≤ exponent then
        let y := x * power exponent.toNat
        if y.isInf then none else some y
      else some (x / power exponent.natAbs)
    else if x == 0 then some x
    else if 0 ≤ exponent then none
    else scale (x / power 308) (exponent + 308) steps

def toDouble? (negative : Bool) (digits : Nat) (exponent : Int) : Option UInt64 :=
  (scale digits.toUInt64.toFloat exponent 4).map fun x => (if negative then -x else x).toBits

end EventProcessing.Decimal
