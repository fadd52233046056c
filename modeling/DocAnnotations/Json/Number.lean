import DocAnnotations.Number.Decimal
import DocAnnotations.Value

/-!
# JSON numbers

Integers of 64 bits are read exactly. Other numbers are read by scaling, one power
of ten at a time, so that the result can be off by a few places in the last bit.
-/

namespace DocAnnotations.Json

/-! ## Writing floats -/

/-- One digit, a point if more follow, and a signed exponent. -/
def scientific (d : Digits) : List Char :=
  let e := d.point - 1
  let sign := if e < 0 then '-' else '+'
  let mantissa := match d.digits with
    | [] => []
    | [c] => [c]
    | c :: rest => c :: '.' :: rest
  mantissa ++ 'e' :: sign :: Nat.toDigits 10 e.natAbs

/-- The text of a positive float's digits: an integral number ends in `.0`. -/
def layOut (d : Digits) : List Char :=
  if -5 < d.point ∧ d.point ≤ 16 then
    if d.digits.length ≤ d.point then d.positional ++ ['.', '0'] else d.positional
  else scientific d

/-- The text of a float. What is not a number has none and is written as `null`. -/
def writeFloat (x : Binary64) : List Char :=
  if !x.isFinite then "null".toList
  else
    let body := if x.isZero then ['0', '.', '0'] else layOut x.shortest
    if x.isNegative then '-' :: body else body

def writeInt (i : Int) : List Char :=
  if i < 0 then '-' :: Nat.toDigits 10 i.natAbs else Nat.toDigits 10 i.natAbs

/-! ## Numerals -/

structure Numeral where
  negative : Bool
  whole : List Char
  fraction : Option (List Char)
  /-- The exponent's digits, under a minus sign if the flag is set. -/
  exponent : Option (Bool × List Char)

open Decimal (isDigit digitValue natOfDigits)

/-- The digits before the point: a single zero, or digits that start with another one. -/
def readWhole : List Char → Option (List Char × List Char)
  | '0' :: rest => if (rest.head?.map isDigit).getD false then none else some (['0'], rest)
  | cs =>
    let (ds, rest) := cs.span isDigit
    if ds.isEmpty then none else some (ds, rest)

def readFraction : List Char → Option (Option (List Char) × List Char)
  | '.' :: cs =>
    let (ds, rest) := cs.span isDigit
    if ds.isEmpty then none else some (some ds, rest)
  | cs => some (none, cs)

/-- An exponent mark, a sign that may be absent and at least one digit, if there is a mark. -/
def readPower : List Char → Option (Option (Bool × List Char) × List Char)
  | c :: cs =>
    if c = 'e' ∨ c = 'E' then
      let (negative, cs) := Decimal.readSign cs
      let (ds, rest) := cs.span isDigit
      if ds.isEmpty then none else some (some (negative, ds), rest)
    else some (none, c :: cs)
  | [] => some (none, [])

def readNumeral (cs : List Char) : Option (Numeral × List Char) := do
  let (negative, cs) := match cs with
    | '-' :: rest => (true, rest)
    | cs => (false, cs)
  let (whole, cs) ← readWhole cs
  let (fraction, cs) ← readFraction cs
  let (exponent, cs) ← readPower cs
  some (⟨negative, whole, fraction, exponent⟩, cs)

/-! ## Scaling -/

/-- Appends digits to a significand as long as it stays below `2 ^ 64`. Also gives the digits left
over. -/
def accumulate (significand : Nat) : List Char → Nat × List Char
  | [] => (significand, [])
  | d :: ds =>
    let next := 10 * significand + digitValue d
    if next < Nat.pow 2 64 then accumulate next ds else (significand, d :: ds)

/-- Multiplies by `10 ^ exponent`. One factor reaches `10 ^ 308`; below that the number is divided
repeatedly, and above it there is no answer. -/
def scale : Nat → Binary64 → Int → Option Binary64
  | 0, f, _ => some f
  | fuel + 1, f, exponent =>
    if exponent.natAbs ≤ 308 then
      if 0 ≤ exponent then
        let r := f.mul (.powerOfTen exponent.toNat)
        if r.isInfinite then none else some r
      else some (f.div (.powerOfTen exponent.natAbs))
    else if f.isZero then some f
    else if 0 ≤ exponent then none
    else scale fuel (f.div (.powerOfTen 308)) (exponent + 308)

/-- Exponents are kept in 32 bits and stop at the ends of that range. -/
def clampExponent (e : Int) : Int := max (-2147483648) (min 2147483647 e)

/-- The float with a given significand and exponent. After three divisions nothing is left. -/
def scaled (significand : Nat) (exponent : Int) : Option Binary64 :=
  scale 4 (.ofNat significand) (clampExponent exponent)

/-- The float of a numeral without its sign. Digits that do not fit the significand raise the
exponent before the point and are dropped after it. An exponent that does not fit 32 bits leaves
zero, or nothing if it is positive. -/
def Numeral.magnitude? (n : Numeral) : Option Binary64 :=
  let (significand, dropped) := accumulate 0 n.whole
  let (significand, used) := match n.fraction with
    | none => (significand, 0)
    | some ds =>
      let (s, rest) := accumulate significand ds
      (s, ds.length - rest.length)
  let exponent : Int := dropped.length - used
  match n.exponent with
  | none => scaled significand exponent
  | some (negative, ds) =>
    let e : Int := natOfDigits ds
    if 2147483647 < e then
      if significand = 0 ∨ negative then some (.ofNat 0) else none
    else scaled significand (if negative then exponent - e else exponent + e)

/-- The integer that a numeral without point and exponent spells, if it is below `2 ^ 64`. -/
def Numeral.integer? (n : Numeral) : Option Nat :=
  if n.fraction.isSome || n.exponent.isSome then none
  else
    let i := natOfDigits n.whole
    if i < Nat.pow 2 64 then some i else none

/-- A numeral is an integer if it looks like one and fits 64 bits with its sign. Minus zero does
not, as there is only one integer zero. -/
def Numeral.value? (n : Numeral) : Option Value :=
  match n.integer? with
  | some i =>
    if n.negative then
      if 0 < i ∧ i ≤ Nat.pow 2 63 then some (.int (Int64.ofInt (-(i : Int))))
      else some (.float (Binary64.ofNat i).neg)
    else if i < Nat.pow 2 63 then some (.int (Int64.ofNat i))
    else some (.float (.ofNat i))
  | none => n.magnitude?.map fun f => .float (if n.negative then f.neg else f)

end DocAnnotations.Json
