import DocAnnotations.Script.Grammar.Name

/-! # Where types are attached -/

namespace DocAnnotations.Script.Grammar

open Script.Parser

/-- An opening angle bracket, which may be the first half of a shift. -/
def eatLess : Parser Bool := do
  let s ← get
  if s.current.token == .punct .doubleLess then
    moveTo false s.current.mark.line (s.current.text.drop 1)
    return true
  eat .less

def atLess : Parser Bool := return (← isAt .less) || (← isAt .doubleLess)

def angled {α : Type} (item : Parser α) : Parser (List α) := do
  unless ← eatLess do fail
  let items ← separated (isAt .greater) item
  expect .greater
  return items

def typeArguments (r : Rules) : Parser (List Node) := angled (r .type)

/-- A type behind a token, if the token is there. -/
def typeBehind (r : Rules) (opens : Parser Bool) : Parser (List Node) := do
  if ← opens then return [← r .type]
  return []

def typeParameter (r : Rules) : Parser Node := do
  let _ ← modifiers
    ["public", "private", "protected", "readonly", "abstract", "const", "override", "in", "out"]
  let _ ← anyName
  let constraint ← typeBehind r (eatWord "extends")
  let default ← typeBehind r (eat .equals)
  return .form .type (constraint ++ default)

def typeParameters (r : Rules) : Parser (List Node) := do
  if (← types) && (← isAt .less) then angled (typeParameter r) else return []

def typeAnnotation (r : Rules) : Parser (List Node) := do
  if ← types then typeBehind r (eat .colon) else return []

/-- What a function returns, behind the given token: a type, or a claim about a parameter. -/
def returnType (r : Rules) (mark : Punct) : Parser (List Node) := do
  expect mark
  let asserts := (← isAtWord "asserts") && (← peek).token.isReference
  if asserts then advance
  let claims := (← token).isReference && (← wordFollows "is")
  if !asserts && !claims then return [← r .type]
  let _ ← anyName
  typeBehind r (if claims then eatWord "is" else return false)

def optionalReturnType (r : Rules) : Parser (List Node) := do
  if (← types) && (← isAt .colon) then returnType r .colon else return []

end DocAnnotations.Script.Grammar
