import DocAnnotations.Script.Grammar.Type

/-! # Functions -/

namespace DocAnnotations.Script.Grammar

open Script.Parser

/-- Statements up to a closing brace. The end of the source closes a block as well. -/
def statements (r : Rules) : Parser (List Node) := do
  let items ← manyUntil (return (← isAt .closeBrace) || (← token) == .finish) (r .item)
  let _ ← eat .closeBrace
  return items

def block (r : Rules) : Parser (List Node) :=
  within (fun c => { c with topLevel := false, inLoopHead := false }) do
    expect .openBrace
    statements r

/-- What a function consists of, behind its name. -/
structure FunctionParts where
  parameters : List Parameter
  /-- The statements of its body; `none` where the function is only declared. -/
  body : Option (List Node)
  /-- The types of its generic parameters and its result. -/
  types : List Node

def FunctionParts.parameterNodes (f : FunctionParts) : List Node := f.parameters.map Parameter.node

/-- The body of a function, and the types, which are searched last. -/
def FunctionParts.bodyNodes (f : FunctionParts) : List Node := f.body.getD [] ++ f.types

def FunctionParts.nodes (f : FunctionParts) : List Node := f.parameterNodes ++ f.bodyNodes

/-- The body of a function. It may be left out where types are annotated. -/
def functionBody (r : Rules) : Parser (Option (List Node)) := do
  if (← types) && !(← isAt .openBrace) then
    if ← eatEnd then return none
  return some (← block r)

/-- A function, from its generic parameters on. -/
def functionParts (r : Rules) (isAsync isGenerator : Bool) (params : Parser (List Parameter)) :
    Parser FunctionParts :=
  within (fun c => { c with inAsync := isAsync, inGenerator := isGenerator }) do
    let generic ← typeParameters r
    expect .openParen
    let ps ← params
    expect .closeParen
    let result ← optionalReturnType r
    let body ← functionBody r
    return ⟨ps, body, generic ++ result⟩

def arrowBody (r : Rules) (isAsync : Bool) : Parser (List Node) :=
  within (fun c => { c with inAsync := isAsync, inGenerator := false }) do
    if ← isAt .openBrace then block r else return [← r .assignment]

/-- A function from the keyword on, behind `async` if it has it. -/
def functionBehindKeyword (r : Rules) (isAsync : Bool) (name : Parser Unit) :
    Parser FunctionParts := do
  expectWord "function"
  let isGenerator ← eat .star
  name
  functionParts r isAsync isGenerator (parameters r)

/-- A function that is an expression. It has a body. -/
def functionExpression (r : Rules) : Parser Node := do
  let isAsync ← eatWord "async"
  let f ← functionBehindKeyword r isAsync do let _ ← optionalName
  if f.body.isNone then fail
  return .form .function f.nodes

/-- A function that is declared, with its name unless that may be left out. -/
def functionDeclaration (r : Rules) (isNamed : Bool) (ds : List Decorator) : Parser Node := do
  let isAsync ← eatWord "async"
  let f ← functionBehindKeyword r isAsync do
    if isNamed then let _ ← declaredName else let _ ← optionalName
  return .form .function (f.parameterNodes ++ ds.map (·.expression) ++ f.bodyNodes)

end DocAnnotations.Script.Grammar
