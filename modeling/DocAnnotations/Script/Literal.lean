import DocAnnotations.Number.Decimal
import DocAnnotations.Script.Letter
import DocAnnotations.Script.Space
import DocAnnotations.Script.Token

/-!
# Words, strings and numbers

Reading the tokens that have a value. A reader gets the text from the token's
first character on.
-/

namespace DocAnnotations.Script

/-! ## Escapes -/

def hexValue? (c : Char) : Option Nat :=
  if '0' ≤ c ∧ c ≤ '9' then some (c.toNat - '0'.toNat)
  else if 'a' ≤ c ∧ c ≤ 'f' then some (c.toNat - 'a'.toNat + 10)
  else if 'A' ≤ c ∧ c ≤ 'F' then some (c.toNat - 'A'.toNat + 10)
  else none

/-- The number that hexadecimal digits spell, if there is at least one. -/
def natOfHex? : List Char → Option Nat
  | [] => none
  | cs => cs.foldlM (fun n c => (hexValue? c).map (16 * n + ·)) 0

def maxCodePoint : Nat := 0x10FFFF

/-- The code point of an escape behind `\u`: four digits, or any number of them in braces. -/
def readUnicodeEscape : List Char → Option (Nat × List Char)
  | '\x7b' :: rest => do
    let (digits, after) := rest.span (· ≠ '\x7d')
    let code ← natOfHex? digits
    if code ≤ maxCodePoint then some (code, after.drop 1) else none
  | a :: b :: c :: d :: rest => do some (← natOfHex? [a, b, c, d], rest)
  | _ => none

def octalValue? (c : Char) : Option Nat :=
  if '0' ≤ c ∧ c ≤ '7' then some (c.toNat - '0'.toNat) else none

def readOctal (first : Nat) (rest : List Char) : Nat × List Char :=
  match rest with
  | a :: b :: after =>
    match octalValue? a, octalValue? b with
    | some m, some n =>
      if first < 4 then (first * 64 + m * 8 + n, after) else (first * 8 + m, b :: after)
    | some m, none => (first * 8 + m, b :: after)
    | none, _ => (first, rest)
  | [a] =>
    match octalValue? a with
    | some m => (first * 8 + m, [])
    | none => (first, rest)
  | [] => (first, [])

/-- What a letter behind a backslash stands for; most stand for themselves. -/
def letterEscape (c : Char) : Char :=
  if c == 'n' then '\n'
  else if c == 't' then '\t'
  else if c == 'r' then '\r'
  else if c == 'b' then '\x08'
  else if c == 'f' then '\x0C'
  else if c == 'v' then '\x0B'
  else c

/-- Reads what follows a backslash in a string: the code points it stands for, how many lines end
in it, and the rest. A line end behind a backslash stands for nothing. -/
def readEscape : List Char → Option (List Nat × Nat × List Char)
  | [] => some ([], 0, [])
  | '\r' :: '\n' :: rest => some ([], 1, rest)
  | 'x' :: rest =>
    match rest with
    | a :: b :: rest => do some ([← natOfHex? [a, b]], 0, rest)
    | _ => none
  | 'u' :: rest => do
    let (code, rest) ← readUnicodeEscape rest
    some ([code], 0, rest)
  | c :: rest =>
    if isLineEnd c then some ([], lineEnds c rest, rest)
    else
      match octalValue? c with
      | some first =>
        let (code, rest) := readOctal first rest
        some ([code], 0, rest)
      | none => some ([(letterEscape c).toNat], 0, rest)

/-! ## Words -/

/-- A word with escapes in it. The fuel is the length of the text. -/
def readEscapedWord : Nat → List Char → Option (List Char × List Char)
  | 0, _ => none
  | fuel + 1, cs =>
    match cs with
    | '\\' :: 'u' :: rest => do
      let (code, rest) ← readUnicodeEscape rest
      if isIdentPart (Char.ofNat code) then
        let (others, after) ← readEscapedWord fuel rest
        some (Char.ofNat code :: others, after)
      else none
    | '\\' :: _ => none
    | c :: rest =>
      if isIdentPart c then do
        let (others, after) ← readEscapedWord fuel rest
        some (c :: others, after)
      else some ([], cs)
    | [] => some ([], [])

/-- The word at the start of the text. A keyword spelled with escapes is no token. -/
def readWord (cs : List Char) : Token × List Char :=
  let (plain, rest) := cs.span isIdentPart
  match rest with
  | '\\' :: _ =>
    match readEscapedWord cs.length cs with
    | some (first :: others, rest) =>
      let name := String.ofList (first :: others)
      if isIdentStart first && !isReserved name then (.word name true, rest) else (.invalid, rest)
    | _ => (.invalid, rest)
  | _ => (.word (String.ofList plain) false, rest)

/-! ## Strings -/

/-- The code points of a string up to its closing quote, how many lines end in it, and what
follows. A line end closes the string as well, and so does the end of the source. The fuel is the
length of the text, and one. -/
def readStringCodes (quote : Char) : Nat → List Char → Option (List Nat × Nat × List Char)
  | 0, _ => none
  | fuel + 1, cs =>
    match cs with
    | [] => some ([], 0, [])
    | c :: rest =>
      if c == quote then some ([], 0, rest)
      else if c == '\n' || c == '\r' then some ([], 0, cs)
      else if c == '\\' then do
        let (codes, ends, rest) ← readEscape rest
        let (others, moreEnds, after) ← readStringCodes quote fuel rest
        some (codes ++ others, ends + moreEnds, after)
      else do
        let (others, ends, after) ← readStringCodes quote fuel rest
        some (c.toNat :: others, ends, after)

def isHighSurrogate (n : Nat) : Bool := 0xD800 ≤ n && n < 0xDC00

def isLowSurrogate (n : Nat) : Bool := 0xDC00 ≤ n && n < 0xE000

/-- The text of code points. Two halves of a surrogate pair are one character, and a half that
stands alone is replaced. -/
def textOfCodes : List Nat → List Char
  | [] => []
  | [n] => [if isHighSurrogate n || isLowSurrogate n then '\uFFFD' else Char.ofNat n]
  | n :: m :: rest =>
    if isHighSurrogate n && isLowSurrogate m then
      Char.ofNat (0x10000 + (n - 0xD800) * 0x400 + (m - 0xDC00)) :: textOfCodes rest
    else
      (if isHighSurrogate n || isLowSurrogate n then '\uFFFD' else Char.ofNat n) ::
        textOfCodes (m :: rest)

/-- The string behind a quote, how many lines end in it, and what follows. -/
def readString (quote : Char) (cs : List Char) : Token × Nat × List Char :=
  match readStringCodes quote (cs.length + 1) cs with
  | some (codes, ends, rest) => (.string (String.ofList (textOfCodes codes)), ends, rest)
  | none => (.invalid, 0, [])

/-! ## Numbers -/

open Decimal (isDigit)

def readDigits (isDigit : Char → Bool) (cs : List Char) : List Char × List Char :=
  let (ds, rest) := cs.span fun c => isDigit c || c == '_'
  (ds.filter (· ≠ '_'), rest)

/-- The natural number that digits spell in a base up to sixteen. -/
def natOfDigits (base : Nat) (ds : List Char) : Nat :=
  ds.foldl (fun n d => base * n + (hexValue? d).getD 0) 0

/-- A number, unless a word follows it without a gap. -/
def closeNumber (token : Token) (rest : List Char) : Token × List Char :=
  if (rest.head?.map isIdentStart).getD false then (.invalid, rest) else (token, rest)

def readRadix (base : Nat) (isDigit : Char → Bool) (cs : List Char) : Token × List Char :=
  let (ds, rest) := readDigits isDigit cs
  if ds.isEmpty then (.invalid, rest)
  else
    match rest with
    | 'n' :: rest => closeNumber .bigint rest
    | rest => closeNumber (.number (.ofNat (natOfDigits base ds))) rest

/-- The exponent of a number and what follows it; `none` if its digits are missing. -/
def readExponent : List Char → Option (Int × List Char)
  | c :: rest =>
    if c == 'e' || c == 'E' then
      let (negative, cs) := Decimal.readSign rest
      let (ds, after) := readDigits isDigit cs
      if ds.isEmpty then none
      else
        let n : Int := natOfDigits 10 ds
        some (if negative then -n else n, after)
    else some (0, c :: rest)
  | [] => some (0, [])

/-- A decimal number, from the digits after its point on. -/
def readFraction (whole cs : List Char) : Token × List Char :=
  let (fraction, rest) := readDigits isDigit cs
  match readExponent rest with
  | none => (.invalid, rest)
  | some (e, rest) =>
    closeNumber (.number (Decimal.toBinary64 ⟨false, whole ++ fraction, e - fraction.length⟩)) rest

/-- A decimal number. Digits behind a zero are octal unless one of them is too large. -/
def readDecimal (cs : List Char) : Token × List Char :=
  let (whole, rest) := readDigits isDigit cs
  if 1 < whole.length && whole.head? == some '0' && whole.all (fun c => (octalValue? c).isSome) then
    closeNumber (.number (.ofNat (natOfDigits 8 whole))) rest
  else
    match rest with
    | 'n' :: rest => closeNumber .bigint rest
    | '.' :: rest => readFraction whole rest
    | rest =>
      match readExponent rest with
      | none => (.invalid, rest)
      | some (e, rest) => closeNumber (.number (Decimal.toBinary64 ⟨false, whole, e⟩)) rest

def readNumber (cs : List Char) : Token × List Char :=
  match cs with
  | '0' :: mark :: rest =>
    if mark == 'x' || mark == 'X' then readRadix 16 (fun c => (hexValue? c).isSome) rest
    else if mark == 'o' || mark == 'O' then readRadix 8 (fun c => (octalValue? c).isSome) rest
    else if mark == 'b' || mark == 'B' then readRadix 2 (fun c => c == '0' || c == '1') rest
    else readDecimal cs
  | '.' :: rest => readFraction [] rest
  | cs => readDecimal cs

end DocAnnotations.Script
