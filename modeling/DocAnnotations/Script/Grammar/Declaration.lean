import DocAnnotations.Script.Grammar.Expression

/-! # Declarations -/

namespace DocAnnotations.Script.Grammar

open Script.Parser

/-! ## Variables -/

/-- Whether a token behind `let` makes it the start of a declaration. -/
def followsLet (t : Token) : Bool :=
  match t with
  | .word name escaped => escaped || name == "enum" || !isReserved name
  | .punct p => p == .openBrace || p == .openBracket
  | _ => false

def atVariables : Parser Bool := do
  if (← isAtWord "var") || (← isAtWord "const") then return true
  return (← isAtWord "let") && followsLet (← peek).token

/-- Whether the head of a loop goes on with what it loops over. -/
def atLoopRange : Parser Bool := return (← isAtWord "of") || (← isAtWord "in")

/-- One of the variables that a keyword declares. A pattern needs a value, unless it is constant. -/
def declarator (r : Rules) (keyword : String) (inHead : Bool) : Parser Node := do
  if keyword != "var" && (← isAtWord "let") then fail
  let p ← r .pattern
  if (← types) && p.identifier?.isSome then let _ ← eat .bang
  let annotation ← typeAnnotation r
  if inHead && (← atLoopRange) then return .form .pattern (p :: annotation)
  let value ← initializer r
  if value.isEmpty && !(← read).ambient && keyword != "const" && p.identifier?.isNone then fail
  return .form .pattern (p :: annotation ++ value)

/-- The variables of a declaration. A semicolon may stand for the last of them. -/
def declarators (r : Rules) (keyword : String) (inHead : Bool) : Parser (List Node) :=
  iterate (fun found => do
    if ← isAt .semicolon then return .inr found.reverse
    let d ← declarator r keyword inHead
    if ← eat .comma then return .inl (d :: found)
    return .inr (d :: found).reverse) []

/-- Goes on to a place where a statement may end. -/
def skipToEnd : Parser Unit :=
  iterate (fun _ => do
    if ← eatEnd then return .inr ()
    advance
    return if (← token) == .invalid then .inr () else .inl ()) ()

/-- Whether the variables of a loop are missing, so that what it loops over comes at once. -/
def atMissingVariables (r : Rules) : Parser Bool := do
  unless (← types) && (← atLoopRange) do return false
  lookAhead do
    advance
    let _ ← r .assignment
    eat .closeParen

/-- The variables behind a keyword, in the head of a loop or not. What keeps a declaration from
ending is passed over. -/
def variableDeclaration (r : Rules) (inHead : Bool) : Parser Node := do
  let keyword ← anyName
  if inHead then
    if ← atMissingVariables r then return .form .declaration []
  let ds ← within (fun c => { c with allowsIn := keyword != "var" || !inHead })
    (declarators r keyword inHead)
  unless inHead do
    unless ← eatEnd do
      let _ ← tolerate (r .expression)
      skipToEnd
  return .form .declaration ds

/-- A declaration of resources, from `using` on, if it is one. -/
def resources (r : Rules) : Parser (Option Node) := do
  let next ← peek
  unless (← isAtWord "using") && next.token.isReference && !next.newLine do return none
  advance
  let ds ← declarators r "var" false
  expectEnd
  return some (.form .declaration ds)

/-! ## Enumerations -/

/-- A member of an enumeration with the comma behind it. Behind a value the comma may be missing;
behind a member without a value, any other token is taken for it. -/
def enumMember (r : Rules) : Parser Node := do
  let key ← match ← token with
    | .string _ | .number _ => advance; pure []
    | .punct .openBracket =>
      advance
      let e ← r .expression
      expect .closeBracket
      pure [e]
    | _ => let _ ← anyName; pure []
  let value ← initializer r
  unless ← isAt .closeBrace do
    if value.isEmpty then
      if (← token) == .finish then fail
      advance
    else let _ ← eat .comma
  return .form .declaration (key ++ value)

def enumeration (r : Rules) : Parser Node := do
  let _ ← anyName
  expect .openBrace
  let members ← manyUntil (isAt .closeBrace) (enumMember r)
  expect .closeBrace
  return .form .declaration members

def atConstEnum : Parser Bool := do
  return (← types) && (← isAtWord "const") && (← peek).token == .word "enum" false

def constEnum (r : Rules) : Parser Node := do
  expectWord "const"
  expectWord "enum"
  enumeration r

/-! ## Interfaces and aliases -/

/-- An interface behind its keyword. What it extends for the second time is passed over. -/
def interface (r : Rules) : Parser Node := do
  let _ ← anyName
  let generic ← typeParameters r
  let bases ← if ← eatWord "extends" then heritageItems r else pure []
  if ← isAtWord "extends" then
    let _ ← many do
      if (← isAt .openBrace) || (← token) == .finish then return none
      advance
      return some ()
  return .form .declaration (generic ++ bases ++ (← typeMembers r))

def typeAlias (r : Rules) : Parser Node := do
  let _ ← anyName
  let generic ← typeParameters r
  expect .equals
  let t ← r .type
  expectEnd
  return .form .declaration (generic ++ [t])

/-! ## Namespaces -/

def namespaceBlock (r : Rules) : Parser Node := within (fun c => { c with topLevel := true }) do
  expect .openBrace
  return .form .declaration (← statements r)

def namespaceRest (r : Rules) : Parser Node := do
  let _ ← anyName
  dottedNames
  namespaceBlock r

/-- A module that is defined elsewhere, from its name on. -/
def ambientModule (r : Rules) : Parser Node := do
  match ← token with
  | .string _ | .word "global" false => advance
  | _ => fail
  if ← isAt .openBrace then return ← namespaceBlock r
  expectEnd
  return .form .declaration []

/-! ## Declarations that start with a name -/

/-- The declaration that a word starts, if it starts one. The word has been read, unless `isAhead`
says that it is the current token. `start` is where the declaration starts. -/
def wordDeclaration (r : Rules) (start : Mark) (ds : List Decorator) (word : String)
    (isAhead : Bool) : Parser (Option Node) := do
  let skip : Parser Unit := if isAhead then advance else pure ()
  let named := isAhead || (← token).isReference
  let sameLine := !(← onNewLine)
  if word == "abstract" then
    unless isAhead || ((← isAtWord "class") && sameLine) do return none
    skip
    return some (← classDeclaration r start ds)
  if word == "enum" && named then
    skip
    return some (← enumeration r)
  if word == "interface" && named then
    skip
    return some (← interface r)
  if word == "module" && sameLine then
    skip
    if (← token) matches .string _ then return some (← ambientModule r)
    if isAhead || (← token).isReference then return some (← namespaceRest r)
    return none
  if word == "namespace" && named then
    skip
    return some (← namespaceRest r)
  if word == "type" && named && (isAhead || sameLine) then
    skip
    return some (← typeAlias r)
  return none

/-- What is declared behind `declare`, if something is. -/
def ambientDeclaration (r : Rules) (start : Mark) (ds : List Decorator) : Parser (Option Node) :=
  within (fun c => { c with ambient := true }) do
    match ← token with
    | .word word false =>
      if word == "function" then return some (← functionDeclaration r true ds)
      if word == "class" then return some (← classDeclaration r start ds)
      if ← atConstEnum then return some (← constEnum r)
      if ["const", "let", "var"].contains word then return some (← variableDeclaration r false)
      if word == "global" then return some (← ambientModule r)
      wordDeclaration r start ds word true
    | _ => return none

end DocAnnotations.Script.Grammar
