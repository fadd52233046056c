import DocAnnotations.Script.Literal
import DocAnnotations.Script.Space

/-!
# Text without tokens

Templates, regular expressions, and the text, names and strings of JSX.
-/

namespace DocAnnotations.Script

/-! ## Templates -/

/-- The part of a template between two of its expressions. -/
structure Chunk where
  /-- Whether every escape in it means something. -/
  isValid : Bool
  /-- Whether the template ends with it. -/
  isLast : Bool
  /-- How many lines end in it. -/
  ends : Nat
  rest : List Char

/-- Whether what follows a backslash makes an escape that a template allows. -/
def isTemplateEscape (cs : List Char) : Bool :=
  match cs with
  | [] => true
  | c :: rest =>
    if c == '0' then !(rest.head?.map Decimal.isDigit).getD false
    else !Decimal.isDigit c && (readEscape cs).isSome

/-- Reads a chunk. `escaped` says whether a backslash came last; the end of the source ends none. -/
def readChunk (isValid escaped : Bool) (ends : Nat) : List Char → Option Chunk
  | [] => none
  | c :: rest =>
    if escaped then readChunk isValid false (ends + lineEnds c rest) rest
    else if c == '\\' then readChunk (isValid && isTemplateEscape rest) true ends rest
    else if c == '`' then some ⟨isValid, true, ends, rest⟩
    else if c == '$' && rest.head? == some '\x7b' then some ⟨isValid, false, ends, rest.drop 1⟩
    else readChunk isValid false (ends + lineEnds c rest) rest

/-! ## Regular expressions -/

/-- What follows a regular expression, from behind its first slash on. `inSet` says whether a set of
characters is open. -/
def readPattern (escaped inSet : Bool) : List Char → Option (List Char)
  | [] => none
  | c :: rest =>
    if isLineEnd c then none
    else if escaped then readPattern false inSet rest
    else if c == '\\' then readPattern true inSet rest
    else if c == '/' && !inSet then some (rest.dropWhile isIdentPart)
    else readPattern false (c == '[' || (inSet && c != ']')) rest

/-! ## JSX -/

/-- How many lines end in the text between two tags, and what follows it. -/
def readTagText (ends : Nat) : List Char → Option (Nat × List Char)
  | [] => none
  | c :: rest =>
    if c == '<' || c == '\x7b' then some (ends, c :: rest)
    else readTagText (ends + lineEnds c rest) rest

/-- The name of a tag or an attribute, which may hold hyphens. -/
def readTagName (cs : List Char) : List Char × List Char :=
  cs.span fun c => isIdentPart c || c == '-'

/-- How many lines end in the string of an attribute, behind its opening quote, and what follows
it. There are no escapes in it. -/
def readTagString (quote : Char) (ends : Nat) : List Char → Option (Nat × List Char)
  | [] => none
  | c :: rest =>
    if c == quote then some (ends, rest) else readTagString quote (ends + lineEnds c rest) rest

end DocAnnotations.Script
