import DocAnnotations.Script.Grammar.Operand

/-! # JSX -/

namespace DocAnnotations.Script.Grammar

open Script.Parser

/-! ## Names -/

def hyphenName : Parser String := do
  let s ← get
  unless s.current.token.isWord do fail
  let (name, rest) := readTagName s.current.text
  moveTo true s.current.mark.line rest
  return String.ofList name

/-- The names behind the first one of a tag, each with the mark in front of it. -/
def tagNameRest : Parser (List String) := many do
  if ← eat .dot then return some ("." ++ (← hyphenName))
  if ← eat .colon then return some (":" ++ (← hyphenName))
  return none

def tagName : Parser (List String) := do
  let first ← hyphenName
  return first :: (← tagNameRest)

/-! ## Attributes -/

/-- An expression in braces, behind an ellipsis if it is spread. The closing brace stays. -/
def braced (r : Rules) (isSpread : Bool) : Parser (List Node) := enclosed do
  expect .openBrace
  if isSpread then expect .ellipsis
  let e ← r .expression
  unless ← isAt .closeBrace do fail
  return [e]

def attributeValue (r : Rules) : Parser (List Node) := do
  let s ← get
  match s.current.text with
  | quote :: text =>
    if quote == '"' || quote == '\'' then
      match readTagString quote 0 text with
      | some (ends, rest) => moveTo true (s.current.mark.line + ends) rest; return []
      | none => fail
    else if ← isAt .openBrace then
      let e ← braced r false
      advance
      return e
    else return [← element r]
  | [] => fail

def tagAttribute (r : Rules) : Parser (List Node) := do
  if ← isAt .openBrace then
    let e ← braced r true
    advance
    return e
  let _ ← hyphenName
  if ← eat .colon then let _ ← hyphenName
  if ← eat .equals then attributeValue r else return []

/-! ## Elements -/

/-- Goes on to the tag or brace behind the text that follows the current token. -/
def passTagText : Parser Unit := do
  let s ← get
  match readTagText 0 s.rest with
  | some (ends, rest) => moveTo false (s.line + ends) rest
  | none => fail

/-- The closing tag of an element with the given name, up to its last angle bracket. -/
def closingTag (name : List String) : Parser Unit := do
  expect .less
  expect .slash
  let closed ← if ← isAt .greater then pure [] else tagName
  unless closed == name && (← isAt .greater) do fail

def children (r : Rules) (name : List String) : Parser (List Node) := do
  let parts ← many do
    passTagText
    if ← isAt .openBrace then
      let next := (← peek).token
      if next == .punct .closeBrace then advance; return some []
      return some (← braced r (next == .punct .ellipsis))
    if (← peek).token == .punct .slash then return none
    return some [← r .element]
  closingTag name
  return parts.flatten

/-- An element or a fragment, up to its last angle bracket. -/
def openElement (r : Rules) : Parser Node := do
  expect .less
  if ← isAt .greater then return .form .jsx (← children r [])
  let name ← tagName
  let types ← if (← types) && (← atLess) then typeArguments r else pure []
  let attributes ← manyUntil (return (← isAt .slash) || (← isAt .greater)) (tagAttribute r)
  if ← eat .slash then
    unless ← isAt .greater do fail
    return .form .jsx (attributes.flatten ++ types)
  return .form .jsx (attributes.flatten ++ (← children r name) ++ types)

end DocAnnotations.Script.Grammar
