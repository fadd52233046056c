import DocAnnotations.Number.Shortest

/-! # Decimal text -/

namespace DocAnnotations

/-- The decimal number `± digits * 10 ^ exponent`. -/
structure Decimal where
  negative : Bool
  digits : List Char
  exponent : Int
deriving DecidableEq, Repr

namespace Decimal

def digitValue (c : Char) : Nat := c.toNat - '0'.toNat

def natOfDigits (ds : List Char) : Nat := ds.foldl (fun n d => 10 * n + digitValue d) 0

/-- The number closest to a decimal. Exponents far outside the range are settled without computing
the power of ten. -/
def toBinary64 (d : Decimal) : Binary64 :=
  let n := natOfDigits d.digits
  let size : Int := (Nat.toDigits 10 n).length + d.exponent
  if n = 0 || size < -400 then .nearest d.negative 0 1
  else if 400 < size then .infinity d.negative
  else .nearest d.negative (n * Nat.pow 10 d.exponent.toNat) (Nat.pow 10 (-d.exponent).toNat)

/-! ## Reading -/

def isDigit (c : Char) : Bool := '0' ≤ c && c ≤ '9'

/-- A sign before a number: whether it is a minus, and what follows. -/
def readSign : List Char → Bool × List Char
  | '-' :: rest => (true, rest)
  | '+' :: rest => (false, rest)
  | cs => (false, cs)

/-- The exponent part of a numeral, if there is nothing after it. -/
def readExponent? : List Char → Option Int
  | [] => some 0
  | c :: rest =>
    if c = 'e' || c = 'E' then
      let (negative, ds) := readSign rest
      if ds.isEmpty || !ds.all isDigit then none
      else
        let n : Int := natOfDigits ds
        some (if negative then -n else n)
    else none

/-- Reads digits, a fraction and an exponent, each of which may be absent but not both the digits
and the fraction. -/
def ofChars? (text : List Char) : Option Decimal := do
  let (negative, cs) := readSign text
  let (whole, rest) := cs.span isDigit
  let (fraction, rest) := match rest with
    | '.' :: rest => rest.span isDigit
    | rest => ([], rest)
  if whole.isEmpty && fraction.isEmpty then none
  else
    let exponent ← readExponent? rest
    some ⟨negative, whole ++ fraction, exponent - fraction.length⟩

end Decimal

/-! ## Writing without an exponent -/

/-- The digits of a positive number around its decimal point; an integral number has no point. -/
def Digits.positional (d : Digits) : List Char :=
  let n := d.digits.length
  if d.point ≤ 0 then
    '0' :: '.' :: (List.replicate (-d.point).toNat '0' ++ d.digits)
  else if d.point < n then
    d.digits.take d.point.toNat ++ '.' :: d.digits.drop d.point.toNat
  else
    d.digits ++ List.replicate (d.point.toNat - n) '0'

namespace Binary64

def toPlainText (x : Binary64) : String :=
  let sign := if x.isNegative then "-" else ""
  if x.isFinite then
    if x.isZero then sign ++ "0" else sign ++ String.ofList x.shortest.positional
  else if x.isInfinite then sign ++ "inf"
  else "NaN"

/-- Reads a decimal numeral, `nan`, `inf` or `-inf`. -/
def ofText? (text : String) : Option Binary64 :=
  if text = "nan" then some nan
  else if text = "inf" then some (infinity false)
  else if text = "-inf" then some (infinity true)
  else (Decimal.ofChars? text.toList).map Decimal.toBinary64

end Binary64

end DocAnnotations
