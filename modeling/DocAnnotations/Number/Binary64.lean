/-!
# Binary64 numbers

All arithmetic goes through `nearest`, which rounds an exact quotient of two
naturals to the closest number, a tie to the even one.
-/

namespace DocAnnotations

structure Binary64 where
  bits : UInt64
deriving DecidableEq, Inhabited, Repr

namespace Binary64

/-! ## Fields -/

def isNegative (x : Binary64) : Bool := Nat.pow 2 63 ≤ x.bits.toNat

/-- Exponent and fraction bits together. They grow with the number's magnitude. -/
def magnitude (x : Binary64) : Nat := x.bits.toNat % Nat.pow 2 63

/-- The magnitude of the infinities; a larger one is no number. -/
def infiniteMagnitude : Nat := 2047 * Nat.pow 2 52

def isFinite (x : Binary64) : Bool := x.magnitude < infiniteMagnitude

def isInfinite (x : Binary64) : Bool := x.magnitude = infiniteMagnitude

def ofMagnitude (negative : Bool) (magnitude : Nat) : Binary64 :=
  ⟨UInt64.ofNat (magnitude + if negative then Nat.pow 2 63 else 0)⟩

def infinity (negative : Bool) : Binary64 := ofMagnitude negative infiniteMagnitude

def nan : Binary64 := ofMagnitude false (infiniteMagnitude + Nat.pow 2 51)

/-- The integer `m` of a finite magnitude `m * 2 ^ e`. -/
def significand (x : Binary64) : Nat :=
  if x.magnitude < Nat.pow 2 52 then x.magnitude else x.magnitude % Nat.pow 2 52 + Nat.pow 2 52

/-- The power `e` of a finite magnitude `m * 2 ^ e`, never below `-1074`. -/
def exponent (x : Binary64) : Int :=
  if x.magnitude < Nat.pow 2 52 then -1074 else (x.magnitude / Nat.pow 2 52 : Nat) - 1075

def numerator (x : Binary64) : Nat := x.significand * Nat.pow 2 x.exponent.toNat

def denominator (x : Binary64) : Nat := Nat.pow 2 (-x.exponent).toNat

/-! ## Rounding -/

/-- The integer closest to `num / den`, the even one of two. -/
def roundDiv (num den : Nat) : Nat :=
  let q := num / den
  let r := num % den
  if 2 * r < den then q else if den < 2 * r then q + 1 else q + q % 2

/-- The exponent at which a positive `num / den` has a significand of fifty-three bits, or the
smallest exponent if that one would be smaller still. -/
def exponentOf (num den : Nat) : Int :=
  let guess : Int := (num.log2 : Int) - den.log2 - 52
  let e :=
    if num * Nat.pow 2 (-guess).toNat < Nat.pow 2 52 * (den * Nat.pow 2 guess.toNat) then guess - 1
    else guess
  max e (-1074)

/-- The magnitude closest to `num / den`. A significand that rounds up to the next power of two
carries into the exponent bits, and what is too large becomes infinite. -/
def nearestMagnitude (num den : Nat) : Nat :=
  if num = 0 then 0
  else
    let e := exponentOf num den
    let m := roundDiv (num * Nat.pow 2 (-e).toNat) (den * Nat.pow 2 e.toNat)
    min ((e + 1074).toNat * Nat.pow 2 52 + m) infiniteMagnitude

/-- The number closest to `num / den`, with the given sign. -/
def nearest (negative : Bool) (num den : Nat) : Binary64 :=
  ofMagnitude negative (nearestMagnitude num den)

/-! ## Operations on finite numbers -/

def neg (x : Binary64) : Binary64 := ofMagnitude (!x.isNegative) x.magnitude

def mul (x y : Binary64) : Binary64 :=
  nearest (x.isNegative != y.isNegative) (x.numerator * y.numerator) (x.denominator * y.denominator)

def div (x y : Binary64) : Binary64 :=
  nearest (x.isNegative != y.isNegative) (x.numerator * y.denominator) (x.denominator * y.numerator)

def ofNat (n : Nat) : Binary64 := nearest false n 1

def ofInt (i : Int) : Binary64 := nearest (i < 0) i.natAbs 1

def isZero (x : Binary64) : Bool := x.magnitude = 0

def powerOfTen (k : Nat) : Binary64 := ofNat (Nat.pow 10 k)

end Binary64

end DocAnnotations
