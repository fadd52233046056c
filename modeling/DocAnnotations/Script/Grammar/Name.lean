import DocAnnotations.Script.Parser

/-! # Names and modifiers -/

namespace DocAnnotations.Script

def mayRefer (name : String) (escaped : Bool) : Bool :=
  escaped || !(isReserved name || strictWords.contains name)

namespace Token

def isWord : Token → Bool
  | word .. => true
  | _ => false

def name? : Token → Option String
  | word name _ => some name
  | _ => none

def isReference : Token → Bool
  | word name escaped => mayRefer name escaped
  | _ => false

end Token

namespace Grammar

open Script.Parser

/-- A word of any sort. -/
def anyName : Parser String := do
  match ← token with
  | .word name _ => advance; return name
  | _ => fail

/-- A name that is being declared. Most of the words that are reserved in strict code are
tolerated. -/
def declaredName : Parser String := do
  match ← token with
  | .word name escaped =>
    if escaped || name == "enum" || (name == "this" && (← types)) ||
        !(isReserved name || name == "await") then
      advance
      return name
    else fail
  | _ => fail

/-- A name in a place where a generator would yield. -/
def plainName : Parser String := do
  if ← isAtWord "yield" then fail
  declaredName

def optionalName : Parser (Option String) := do
  if (← types) && (← isAtWord "this") then return some (← anyName)
  if (← token).isReference then return some (← declaredName)
  return none

/-- Whether a token may stand behind a modifier. All but words must be on its line. -/
def mayFollowModifier (next : Lexeme) : Bool :=
  match next.token with
  | .word .. => true
  | .string _ | .number _ | .bigint => !next.newLine
  | .punct p =>
    !next.newLine &&
      (p == .openBracket || p == .openBrace || p == .star || p == .ellipsis || p == .hash)
  | _ => false

/-- One of the given modifiers, if it stands here and something that it changes follows. -/
def modifier (allowed : List String) : Parser (Option String) := do
  match ← token with
  | .word name false =>
    if (← types) && allowed.contains name && mayFollowModifier (← peek) then
      advance
      return some name
    return none
  | _ => return none

def modifiers (allowed : List String) : Parser (List String) := many (modifier allowed)

/-- The modifier that says who may use a member. The marks for variance are taken for one. -/
def accessModifier : Parser (Option String) :=
  modifier ["public", "protected", "private", "in", "out"]

/-- A modifier in front of a parameter or a property that may not have one. -/
def strayModifier : Parser Unit := do
  let next ← peek
  if next.token.isWord || next.token == .punct .openBrace || next.token == .punct .openBracket then
    let _ ← modifier ["public", "protected", "private", "readonly"]

end Grammar

end DocAnnotations.Script
