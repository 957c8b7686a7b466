/-!
The shortest decimal of a double: the fewest digits that read back to it, the nearest of those,
found in exact arithmetic on the double's bits.
-/

namespace EventProcessing.Decimal

/-- A finite double is `mantissa * 2 ^ exponent`, the sign apart. -/
structure Binary where
  negative : Bool
  mantissa : Nat
  exponent : Int
  lowerIsNearer : Bool

def Binary.ofBits (bits : UInt64) : Binary :=
  let n : Nat := bits.toNat
  let fraction := n % (1 <<< 52)
  let scale : Nat := (n >>> 52) % (1 <<< 11)
  if scale = 0 then ⟨n >>> 63 = 1, fraction, -1074, false⟩
  else ⟨n >>> 63 = 1, fraction + (1 <<< 52), scale - 1075, fraction = 0 ∧ 1 < scale⟩

structure Digits where
  digits : Nat
  exponent : Int
  deriving DecidableEq

structure Ratio where
  num : Nat
  den : Nat

namespace Ratio

def scaled (n base : Nat) (exponent : Int) : Ratio :=
  ⟨n * base.pow exponent.toNat, base.pow (-exponent).toNat⟩

def le (a b : Ratio) : Bool := a.num * b.den ≤ b.num * a.den

def lt (a b : Ratio) : Bool := a.num * b.den < b.num * a.den

def magnitude (a : Ratio) : Int :=
  let guess : Int := (Nat.toDigits 10 a.num).length - (Nat.toDigits 10 a.den).length
  if (scaled 1 10 guess).le a then guess + 1 else guess

def floorAt (a : Ratio) (exponent : Int) : Nat :=
  let unit := scaled 1 10 exponent
  a.num * unit.den / (a.den * unit.num)

end Ratio

namespace Binary

def value (b : Binary) : Ratio := .scaled (4 * b.mantissa) 2 (b.exponent - 2)

def lower (b : Binary) : Ratio :=
  .scaled (4 * b.mantissa - if b.lowerIsNearer then 1 else 2) 2 (b.exponent - 2)

def upper (b : Binary) : Ratio := .scaled (4 * b.mantissa + 2) 2 (b.exponent - 2)

def covers (b : Binary) (a : Ratio) : Bool :=
  if b.mantissa % 2 = 0 then b.lower.le a && a.le b.upper else b.lower.lt a && a.lt b.upper

/-- The point of the grid `10 ^ exponent` that reads back, the nearer of two; a tie goes to the
even one. -/
def onGrid? (b : Binary) (exponent : Int) : Option Nat :=
  let low := b.value.floorAt exponent
  let below := b.covers (.scaled low 10 exponent)
  let above := b.covers (.scaled (low + 1) 10 exponent)
  match below, above with
  | true, false => some low
  | false, true => some (low + 1)
  | false, false => none
  | true, true =>
    let middle := Ratio.scaled (2 * low + 1) 10 exponent
    let twice : Ratio := ⟨2 * b.value.num, b.value.den⟩
    if twice.lt middle then some low
    else if middle.lt twice then some (low + 1)
    else if low % 2 = 0 then some low else some (low + 1)

def firstGrid (b : Binary) (magnitude : Int) : List Nat → Digits
  | [] => ⟨0, 0⟩
  | n :: rest =>
    match b.onGrid? (magnitude - n) with
    | some digits => ⟨digits, magnitude - n⟩
    | none => firstGrid b magnitude rest

end Binary

def stripZeros : Nat → Digits → Digits
  | 0, d => d
  | fuel + 1, d =>
    if d.digits ≠ 0 ∧ d.digits % 10 = 0 then stripZeros fuel ⟨d.digits / 10, d.exponent + 1⟩ else d

def shortest (b : Binary) : Digits :=
  if b.mantissa = 0 then ⟨0, 0⟩
  else stripZeros 17 (b.firstGrid b.value.magnitude ((List.range 17).map (· + 1)))

end EventProcessing.Decimal
