import DocAnnotations.Script.Grammar.Pattern
import DocAnnotations.Script.Raw

/-!
# Types

A type is kept for the expressions in the keys of its members; everything else
about it is dropped.
-/

namespace DocAnnotations.Script.Grammar

open Script.Parser

/-! ## Templates -/

/-- The items between the chunks of a template, whose opening quote is the current token. -/
def templateItems {α : Type} (tagged : Bool) (item : Parser α) : Parser (List α) :=
  iterate (fun found => do
    let s ← get
    match readChunk true false 0 s.rest with
    | none => fail
    | some chunk =>
      unless chunk.isValid || tagged do fail
      moveTo false (s.line + chunk.ends) chunk.rest
      if chunk.isLast then return .inr found.reverse
      let a ← item
      unless ← isAt .closeBrace do fail
      return .inl (a :: found)) []

/-! ## Names -/

/-- A type's name behind its first word, with the names it is qualified by. -/
def qualifiers : Parser Unit := do
  let _ ← many do
    unless ← eat .dot do return none
    match ← token with
    | .word .. => advance; return some ()
    | .punct .hash => fail
    | _ => return none

def qualifiedName : Parser Unit := do
  let _ ← anyName
  qualifiers

/-- The types that a generic on the same line is applied to. -/
def appliedTypes (r : Rules) : Parser (List Node) := do
  if (← atLess) && !(← onNewLine) then typeArguments r else return []

/-! ## Members -/

def expectMemberEnd : Parser Unit := do unless ← eat .comma do expectEnd

def atIndexSignature : Parser Bool := do
  unless ← isAt .openBracket do return false
  lookAhead do
    advance
    unless (← token).isReference do return false
    advance
    return (← isAt .colon) || (← isAt .comma)

/-- An index signature, if one starts here. A comma may stand for the colon in front of its type. -/
def indexSignature (r : Rules) : Parser (Option (List Node)) := do
  unless ← atIndexSignature do return none
  expect .openBracket
  let _ ← anyName
  unless ← eat .comma do expect .colon
  let key ← r .type
  expect .closeBracket
  let value ← typeAnnotation r
  expectMemberEnd
  return some (key :: value)

/-- What a function or constructor takes and gives. -/
def signature (r : Rules) (mark : Punct) : Parser (List Node) := do
  let generic ← typeParameters r
  expect .openParen
  let ps ← typeSignature r
  let result ← if mark == .arrow then returnType r mark else optionalReturnType r
  return generic ++ ps ++ result

def typeMemberKey (r : Rules) : Parser (List Node) := do
  match ← token with
  | .punct .openBracket =>
    advance
    let e ← enclosed (r .assignment)
    expect .closeBracket
    return [e]
  | .punct .hash => let _ ← secretName; return []
  | .string _ | .number _ | .bigint => return [← r (.callee false)]
  | _ => let _ ← anyName; return []

/-- A getter or setter in a type. -/
def typeAccessor (r : Rules) : Parser (Option (List Node)) := attempt do
  let reads ← eatWord "get"
  unless reads do expectWord "set"
  let key ← typeMemberKey r
  expect .openParen
  if reads then
    expect .closeParen
    let value ← typeAnnotation r
    expectMemberEnd
    return some (key ++ value)
  else
    let ps ← typeSignature r
    if ps.isEmpty then fail
    expectMemberEnd
    return some (key ++ ps)

def typeMember (r : Rules) : Parser Node := do
  if (← isAt .openParen) || (← isAt .less) then
    let parts ← signature r .colon
    expectMemberEnd
    return .form .type parts
  if ← isAtWord "new" then
    let next := (← peek).token
    if next == .punct .openParen || next == .punct .less then
      advance
      let parts ← signature r .colon
      expectMemberEnd
      return .form .type parts
  let readonly := (← modifier ["readonly"]).isSome
  if let some parts ← indexSignature r then return .form .type parts
  unless readonly do
    if let some parts ← typeAccessor r then return .form .type parts
  let key ← typeMemberKey r
  let _ ← eat .question
  if (← isAt .openParen) || (← isAt .less) then
    if readonly then fail
    let parts ← signature r .colon
    expectMemberEnd
    return .form .type (key ++ parts)
  let value ← typeAnnotation r
  expectMemberEnd
  return .form .type (key ++ value)

def typeMembers (r : Rules) : Parser (List Node) := do
  expect .openBrace
  let members ← manyUntil (isAt .closeBrace) (typeMember r)
  expect .closeBrace
  return members

/-! ## Mapped types -/

def atMappedType : Parser Bool := lookAhead do
  expect .openBrace
  if ← eat .plus <||> eat .minus then return ← isAtWord "readonly"
  let _ ← eatWord "readonly"
  unless ← eat .openBracket do return false
  let _ ← anyName
  isAtWord "in"

/-- A mark that a mapped type adds or takes away. -/
def mappedMark (eatMark : Parser Bool) : Parser Unit := do
  if ← eat .plus <||> eat .minus then
    unless ← eatMark do fail
  else let _ ← eatMark

def mappedType (r : Rules) : Parser Node := do
  expect .openBrace
  mappedMark (eatWord "readonly")
  expect .openBracket
  let _ ← anyName
  expectWord "in"
  let keys ← r .type
  let renamed ← typeBehind r (eatWord "as")
  expect .closeBracket
  mappedMark (eat .question)
  let value ← typeAnnotation r
  expectEnd
  expect .closeBrace
  return .form .type (keys :: renamed ++ value)

/-! ## Tuples -/

def tupleLabel : Parser (Option Unit) := attempt do
  let _ ← eat .ellipsis
  let _ ← anyName
  let _ ← eat .question
  expect .colon
  return some ()

def tupleItem (r : Rules) : Parser Node := do
  let _ ← tupleLabel
  if ← eat .ellipsis then return ← r .type
  let t ← r .type
  let _ ← eat .question
  return t

/-! ## Simple types -/

/-- The words that are types by themselves. -/
def typeWords : List String :=
  ["any", "bigint", "boolean", "intrinsic", "never", "null", "number", "object", "string", "symbol",
    "undefined", "unknown", "void"]

def importType (r : Rules) : Parser Node := do
  expectWord "import"
  expect .openParen
  advance
  if ← eat .comma then
    if ← isAt .openBrace then let _ ← r .assignment
  expect .closeParen
  if ← eat .dot then qualifiedName
  return .form .type (← if ← atLess then typeArguments r else pure [])

/-- The type of a value. -/
def valueType (r : Rules) : Parser Node := do
  expectWord "typeof"
  if ← isAtWord "import" then
    let t ← importType r
    return .form .type (t :: (← appliedTypes r))
  qualifiedName
  return .form .type (← appliedTypes r)

/-- The type of the object itself, or a claim about it. -/
def selfType (r : Rules) : Parser Node := do
  expectWord "this"
  if (← isAtWord "is") && !(← onNewLine) then
    advance
    return .form .type [← r .type]
  return .leaf .type

def namedType (r : Rules) : Parser Node := do
  strayModifier
  qualifiedName
  return .form .type (← appliedTypes r)

def wordType (r : Rules) (name : String) (escaped : Bool) : Parser Node := do
  let next := (← peek).token
  if escaped then namedType r
  else if name == "this" then selfType r
  else if name == "true" || name == "false" then advance; return .leaf .type
  else if name == "typeof" then valueType r
  else if name == "import" then importType r
  else if name == "asserts" && next == .word "this" false then advance; selfType r
  else if typeWords.contains name && next != .punct .dot then advance; return .leaf .type
  else if mayRefer name false || ["void", "yield", "null", "await", "break"].contains name then
    namedType r
  else fail

/-- A type without operators around it. -/
def simpleType (r : Rules) : Parser Node := do
  match ← token with
  | .word name escaped => wordType r name escaped
  | .string _ | .number _ | .bigint => advance; return .leaf .type
  | .punct .minus =>
    advance
    match ← token with
    | .number _ | .bigint => advance; return .leaf .type
    | _ => fail
  | .punct .backquote => return .form .type (← templateItems false (r .type))
  | .punct .openBrace =>
    if ← atMappedType then mappedType r else return .form .type (← typeMembers r)
  | .punct .openBracket =>
    advance
    let items ← separated (isAt .closeBracket) (tupleItem r)
    expect .closeBracket
    return .form .type items
  | .punct .openParen =>
    advance
    let t ← r .type
    expect .closeParen
    return t
  | _ => fail

/-! ## Operators -/

def arrayType (r : Rules) : Parser Node := do
  let t ← simpleType r
  let indexes ← many do
    if (← isAt .openBracket) && !(← onNewLine) then
      advance
      let index ← if ← isAt .closeBracket then pure [] else pure [← r .type]
      expect .closeBracket
      return some index
    return none
  return if indexes.isEmpty then t else .form .type (t :: indexes.flatten)

/-- Types with an operator between them. One may come before the first as well. -/
def joinedTypes (mark : Punct) (item : Parser Node) : Parser Node := do
  let _ ← eat mark
  let first ← item
  let others ← many do if ← eat mark then return some (← item) else return none
  return if others.isEmpty then first else .form .type (first :: others)

/-- Whether a parameter of a function type starts here. It is passed over. -/
def passParameterStart (r : Rules) : Parser Bool := do
  strayModifier
  match ← token with
  | .word .. => advance; return true
  | .punct .openBrace | .punct .openBracket =>
    let _ ← r .pattern
    return true
  | _ => return false

def atFunctionType (r : Rules) : Parser Bool := do
  if ← isAt .less then return true
  unless ← isAt .openParen do return false
  lookAhead do
    advance
    if (← isAt .closeParen) || (← isAt .ellipsis) then return true
    unless ← passParameterStart r do return false
    if (← isAt .colon) || (← isAt .comma) || (← isAt .question) || (← isAt .equals) then return true
    eat .closeParen <&&> isAt .arrow

/-- Any type but a conditional one. -/
def unconditionalType (r : Rules) : Parser Node := do
  if ← atFunctionType r then return .form .type (← signature r .arrow)
  if (← isAtWord "abstract") && (← peek).token == .word "new" false then advance
  if ← eatWord "new" then return .form .type (← signature r .arrow)
  joinedTypes .bar (joinedTypes .ampersand (r .operatorType))

/-- A type that is inferred, with a bound that is not the test of a conditional type. -/
def inferredType (r : Rules) : Parser Node := do
  expectWord "infer"
  let _ ← anyName
  let bound ← attempt do
    expectWord "extends"
    let t ← unconditionalType r
    if (← read).plainTypes || !(← isAt .question) then return some t
    return none
  return .form .type bound.toList

def operatorType (r : Rules) : Parser Node := do
  if (← isAtWord "keyof") || (← isAtWord "unique") || (← isAtWord "readonly") then
    advance
    r .operatorType
  else if ← isAtWord "infer" then inferredType r
  else arrayType r

def type (r : Rules) : Parser Node := within (fun c => { c with plainTypes := false }) do
  let t ← unconditionalType r
  if ← onNewLine <||> not <$> eatWord "extends" then return t
  let bound ← within (fun c => { c with plainTypes := true }) (unconditionalType r)
  expect .question
  let whenTrue ← r .type
  expect .colon
  let whenFalse ← r .type
  return .form .type [t, bound, whenTrue, whenFalse]

end DocAnnotations.Script.Grammar
