import DocAnnotations.Script.Grammar.Annotation

/-! # Arguments and decorators -/

namespace DocAnnotations.Script.Grammar

open Script.Parser

/-- An expression in which `in` is an operator. -/
def withIn {α : Type} (p : Parser α) : Parser α := within (fun c => { c with allowsIn := true }) p

/-- An expression in brackets of its own. -/
def enclosed {α : Type} (p : Parser α) : Parser α :=
  within (fun c => { c with allowsIn := true, awaitsColon := false }) p

def spreadable (r : Rules) : Parser Node := do
  if ← eat .ellipsis then return .form .spread [← r .assignment]
  r .assignment

def arguments (r : Rules) : Parser (List Node) := enclosed do
  expect .openParen
  let items ← separated (isAt .closeParen) (spreadable r)
  expect .closeParen
  return items

def dottedNames : Parser Unit := do
  let _ ← many do
    if ← eat .dot then return some (← anyName)
    return none

/-- What a decorator calls: an expression in parentheses, or names with dots between them. -/
def decoratorCallee (r : Rules) : Parser (List Node) := do
  if ← eat .openParen then
    let e ← r .expression
    expect .closeParen
    return [e]
  let _ ← plainName
  dottedNames
  return []

/-- A decorator. Its arguments may be left out unless it is applied to types. -/
def decorator (r : Rules) : Parser Decorator := do
  let start := (← current).mark
  expect .at
  let callee ← decoratorCallee r
  let typeArgs ← if (← types) && (← isAt .less) then typeArguments r else pure []
  let args ← if (← isAt .openParen) || !typeArgs.isEmpty then arguments r else pure []
  return ⟨start, .form .call (callee ++ args ++ typeArgs)⟩

def decorators (r : Rules) : Parser (List Decorator) :=
  many do if ← isAt .at then return some (← decorator r) else return none

end DocAnnotations.Script.Grammar
