import DocAnnotations.Script.Tree

/-!
# Expressions read as patterns

What stands in front of an equals sign or an arrow is read as an expression first.
Most expressions that spell no pattern are tolerated: nothing is kept of them.
-/

namespace DocAnnotations.Script.Grammar

def isSimpleTarget (n : Node) : Bool :=
  match n with
  | .form f _ =>
    match f with
    | .identifier _ | .member | .superMember | .optionalChain | .group | .typed | .instantiation
    | .invalid => true
    | _ => false
  | _ => false

/-- The expressions that are kept as part of a pattern, whether they may be assigned to or not. -/
def isKeptTarget (n : Node) : Bool :=
  match n with
  | .form f _ =>
    match f with
    | .identifier _ | .member | .superMember | .group | .typed | .literal | .function | .call
    | .construct | .template => true
    | _ => false
  | .classExpression .. => true
  | _ => false

/-- What is left of an expression that spells no pattern. Only an assigned pattern has targets that
are not names. -/
def otherPattern (isBinding : Bool) (n : Node) : Node :=
  if n.identifier?.isSome || (!isBinding && isKeptTarget n) then n else .leaf .invalid

mutual

/-- The pattern that an expression spells; `none` if the source cannot be read. `isBinding` says
whether the pattern declares its names. -/
def toPattern (isBinding : Bool) : Node → Option Node
  | .form .object props => (toProperties isBinding props).map (.form .objectPattern)
  | .form .array items => (toItems isBinding items).map (.form .arrayPattern)
  | .form .assignment parts => some (.form .pattern parts)
  | n => some (otherPattern isBinding n)

def toProperties (isBinding : Bool) : List Node → Option (List Node)
  | [] => some []
  | .form .spread parts :: rest => do
    let p ← if isBinding then some (parts.map (otherPattern true)) else toItems false parts
    return p ++ (← toProperties isBinding rest)
  | .form (.property keySize) parts :: rest => do
    let p ← toKeyed isBinding keySize parts
    return .form .pattern p :: (← toProperties isBinding rest)
  | .form .shorthand parts :: rest => do
    return .form .pattern parts :: (← toProperties isBinding rest)
  | _ => none

/-- A key of so many parts and the pattern behind it. -/
def toKeyed (isBinding : Bool) (keySize : Nat) : List Node → Option (List Node)
  | [] => some []
  | part :: rest =>
    match keySize with
    | 0 => do return (← toPattern isBinding part) :: rest
    | keySize + 1 => do return part :: (← toKeyed isBinding keySize rest)

def toItems (isBinding : Bool) : List Node → Option (List Node)
  | [] => some []
  | .form .spread parts :: rest => do
    return .form .restPattern (← toItems isBinding parts) :: (← toItems isBinding rest)
  | .form .hole parts :: rest => do return .form .hole parts :: (← toItems isBinding rest)
  | n :: rest => do return (← toPattern isBinding n) :: (← toItems isBinding rest)

end

/-- What an equals sign assigns to, if the expression in front of it may be assigned to. -/
def assignmentTarget (n : Node) : Option Node :=
  match n with
  | .form .object _ | .form .array _ => toPattern false n
  | n => if isSimpleTarget n then some n else none

end DocAnnotations.Script.Grammar
