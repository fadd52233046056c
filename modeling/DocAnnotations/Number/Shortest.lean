import DocAnnotations.Number.Binary64

/-!
# Shortest decimal digits

On each decimal grid only the two neighbours of a number can be the closest
decimal that reads back as it. They are tried from the coarsest grid on.
-/

namespace DocAnnotations

/-- A decimal number `0.d₁d₂… * 10 ^ point`, its digits without zeros at either end. -/
structure Digits where
  digits : List Char
  point : Int
deriving DecidableEq, Inhabited, Repr

namespace Binary64

def atMost (c : Nat) (s : Int) (x : Nat) (e : Int) : Bool :=
  c * Nat.pow 10 s.toNat * Nat.pow 2 (-e).toNat ≤ x * Nat.pow 2 e.toNat * Nat.pow 10 (-s).toNat

def below (c : Nat) (s : Int) (x : Nat) (e : Int) : Bool :=
  c * Nat.pow 10 s.toNat * Nat.pow 2 (-e).toNat < x * Nat.pow 2 e.toNat * Nat.pow 10 (-s).toNat

/-- Four times the significand: the interval's ends are integers on this scale. -/
def quarters (x : Binary64) : Nat := 4 * x.significand

/-- The lower end is closer when the number is the first of its exponent. -/
def lowerEnd (x : Binary64) : Nat :=
  if x.significand = Nat.pow 2 52 ∧ -1074 < x.exponent then x.quarters - 1 else x.quarters - 2

def upperEnd (x : Binary64) : Nat := x.quarters + 2

/-- Whether the decimal `c * 10 ^ s` rounds to `x`. The ends round to the even significand. -/
def owns (x : Binary64) (c : Nat) (s : Int) : Bool :=
  let e := x.exponent - 2
  if x.significand % 2 = 0 then !below c s x.lowerEnd e && atMost c s x.upperEnd e
  else !atMost c s x.lowerEnd e && below c s x.upperEnd e

/-- The power of ten just above a positive number: `10 ^ (p - 1) ≤ x < 10 ^ p`. -/
def decimalPoint (x : Binary64) : Int :=
  let guess := ((x.significand.log2 : Int) + x.exponent) * 30103 / 100000
  let e := x.exponent
  if !atMost 1 guess x.significand e then guess
  else if !atMost 1 (guess + 1) x.significand e then guess + 1
  else guess + 2

def floorOnGrid (x : Binary64) (s : Int) : Nat :=
  x.numerator * Nat.pow 10 (-s).toNat / (x.denominator * Nat.pow 10 s.toNat)

/-- Whether `c + 1` is closer to `x` than `c` is, or as close and even, on the grid `10 ^ s`. -/
def upperIsCloser (x : Binary64) (c : Nat) (s : Int) : Bool :=
  let num := x.numerator * Nat.pow 10 (-s).toNat
  let den := x.denominator * Nat.pow 10 s.toNat
  let twice := 2 * (num - c * den)
  den < twice || (twice == den && c % 2 == 1)

/-- The neighbour of `x` on the grid `10 ^ s` that rounds to `x`, the closer one if both do. -/
def onGrid (x : Binary64) (s : Int) : Option Nat :=
  let c := x.floorOnGrid s
  match x.owns c s, x.owns (c + 1) s with
  | true, true => some (if x.upperIsCloser c s then c + 1 else c)
  | true, false => some c
  | false, true => some (c + 1)
  | false, false => none

/-- The first grid from `s` downwards, over `fuel` grids, on which a neighbour of `x` rounds to
`x`. -/
def searchGrids (x : Binary64) : Nat → Int → Option (Nat × Int)
  | 0, _ => none
  | fuel + 1, s =>
    match x.onGrid s with
    | some c => some (c, s)
    | none => x.searchGrids fuel (s - 1)

def dropTrailingZeros (ds : List Char) : List Char :=
  (ds.reverse.dropWhile (· == '0')).reverse

/-- The shortest digits of a positive finite number. Seventeen always suffice. -/
def shortest (x : Binary64) : Digits :=
  match x.searchGrids 17 (x.decimalPoint - 1) with
  | none => ⟨[], 0⟩
  | some (c, s) =>
    let ds := Nat.toDigits 10 c
    ⟨dropTrailingZeros ds, ds.length + s⟩

end Binary64

end DocAnnotations
