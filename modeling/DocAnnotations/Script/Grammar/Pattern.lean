import DocAnnotations.Script.Grammar.Call

/-! # Keys, patterns and parameters -/

namespace DocAnnotations.Script

def Key.parts : Key → List Node
  | computed e => [e]
  | _ => []

namespace Grammar

open Script.Parser

/-! ## Keys -/

/-- Several expressions as one. -/
def sequence : List Node → Node
  | [e] => e
  | es => .form .sequence es

/-- The key of a property. A computed key may hold commas where types are annotated. -/
def propertyKey (r : Rules) : Parser Key := do
  match ← token with
  | .word name _ | .string name => advance; return .plain name
  | .number x => advance; return .plain x.toPlainText
  | .bigint => advance; return .bigint
  | .punct .openBracket =>
    advance
    let e ← enclosed do
      let first ← r .assignment
      if ← types then
        let others ← many do if ← eat .comma then return some (← r .assignment) else return none
        return sequence (first :: others)
      return first
    expect .closeBracket
    return .computed e
  | _ => fail

/-- A name behind `#`, without a gap. -/
def secretName : Parser String := do
  let s ← get
  expect .hash
  if (s.rest.head?.map fun c => isIdentStart c || c == '\\').getD false then anyName else fail

def memberKey (r : Rules) : Parser Key := do
  if ← isAt .hash then return .secret (← secretName)
  propertyKey r

/-! ## Patterns -/

def initializer (r : Rules) : Parser (List Node) := do
  if ← eat .equals then return [← r .assignment]
  return []

/-- A pattern with a value for what is missing. -/
def patternElement (r : Rules) : Parser Node := do
  let p ← r .pattern
  return .form .pattern (p :: (← enclosed (initializer r)))

def arrayPatternItem (r : Rules) : Parser Node := do
  if ← eat .ellipsis then r .pattern else patternElement r

def objectPatternItem (r : Rules) : Parser Node := do
  if ← eat .ellipsis then return ← r .pattern
  let isName := (← token).isWord
  let key ← propertyKey r
  if ← eat .colon then return .form .pattern (key.parts ++ [← patternElement r])
  unless isName do fail
  return .form .pattern (← enclosed (initializer r))

/-- The mark of something optional, in files that only declare. -/
def ambientOptional : Parser Unit := do
  if (← read).ambient || (← read).dialect.ambient then let _ ← eat .question

def pattern (r : Rules) : Parser Node := do
  match ← token with
  | .punct .openBracket =>
    advance
    let items ← manyUntil (isAt .closeBracket) do
      if ← eat .comma then return Node.leaf .hole
      let item ← arrayPatternItem r
      unless ← isAt .closeBracket do expect .comma
      return item
    expect .closeBracket
    ambientOptional
    return .form .arrayPattern items
  | .punct .openBrace =>
    advance
    let items ← separated (isAt .closeBrace) (objectPatternItem r)
    expect .closeBrace
    ambientOptional
    return .form .objectPattern items
  | _ => return .leaf (.identifier (← declaredName))

/-! ## Parameters -/

structure Parameter where
  decorators : List Decorator
  pattern : Node
  annotation : List Node
  default : List Node

def Parameter.node (p : Parameter) : Node :=
  .form .parameter (p.decorators.map (·.expression) ++ p.pattern :: p.annotation ++ p.default)

def singleParameter (r : Rules) (decorators : List Decorator) : Parser Parameter := do
  strayModifier
  let pattern ← r .pattern
  if ← types then let _ ← eat .question
  let annotation ← typeAnnotation r
  return ⟨decorators, pattern, annotation, ← initializer r⟩

/-- A parameter that takes all the other arguments, behind its ellipsis. -/
def restParameter (r : Rules) (decorators : List Decorator) : Parser Parameter := do
  let pattern ← r .pattern
  let default ← initializer r
  let annotation ← typeAnnotation r
  if ← types then let _ ← eat .question
  return ⟨decorators, .form .restPattern [pattern], annotation, default⟩

def parameter (r : Rules) : Parser Parameter := do
  let ds ← decorators r
  if ← eat .ellipsis then restParameter r ds else singleParameter r ds

def parameters (r : Rules) : Parser (List Parameter) := separated (isAt .closeParen) (parameter r)

/-- A parameter of a constructor, which may declare a property as well. Then it is a name. -/
def constructorParameter (r : Rules) : Parser Parameter := do
  let ds ← decorators r
  if ← eat .ellipsis then return ← restParameter r ds
  let access ← accessModifier
  let overrides ← modifier ["override"]
  let readonly ← modifier ["readonly"]
  let declares := (access.filter fun m => m != "in" && m != "out").isSome ||
    overrides.isSome || readonly.isSome
  let p ← singleParameter r ds
  if declares && p.default.isEmpty && p.pattern.identifier?.isNone then fail
  return p

/-- The parameters of a function type, behind the opening parenthesis. They have no defaults. -/
def typeSignature (r : Rules) : Parser (List Node) := do
  let ps ← parameters r
  unless ps.all (·.default.isEmpty) do fail
  expect .closeParen
  return ps.map Parameter.node

end Grammar

end DocAnnotations.Script
