import DocAnnotations.Script.Grammar.Function

/-! # Classes -/

namespace DocAnnotations.Script.Grammar

open Script.Parser

/-! ## Members -/

/-- What stands in front of a member's key. -/
structure MemberHead where
  /-- The first token of the member. -/
  start : Mark
  decorators : List Decorator
  isStatic : Bool := false
  isReadonly : Bool := false

/-- Whether a method goes on here, behind its key. -/
def atMethod : Parser Bool := return (← isAt .openParen) || ((← types) && (← atLess))

/-- Whether a property goes on here, behind its key. -/
def atProperty (ends : Parser Bool) : Parser Bool := do
  if (← types) && ((← isAt .bang) || (← isAt .colon) || (← isAt .question)) then return true
  if (← isAt .equals) || (← isAt .closeBrace) then return true
  ends

def optionalMark : Parser Unit := do if ← types then let _ ← eat .question

def isConstructorKey (key : Key) : Bool :=
  match key with
  | .plain name => name == "constructor"
  | _ => false

def methodRest (r : Rules) (head : MemberHead) (keyStart : Mark) (key : Key)
    (isAsync isGenerator : Bool) : Parser Member := do
  let f ← functionParts r isAsync isGenerator (parameters r)
  return .method head.start keyStart key head.decorators f.parameterNodes f.bodyNodes

def constructorRest (r : Rules) (head : MemberHead) (keyStart : Mark) : Parser Member := do
  let f ← functionParts r false false (separated (isAt .closeParen) (constructorParameter r))
  return .constructor head.start keyStart f.parameterNodes (f.body.getD [])

/-- The type and the value of a property, up to its end. A missing end is tolerated. -/
def propertyRest (r : Rules) : Parser (List Node) := do
  if ← types then let _ ← eat .bang
  let annotation ← typeAnnotation r
  let value ← enclosed (initializer r)
  let _ ← eatEnd
  return value ++ annotation

/-- A property behind its key. None is called `constructor`. -/
def property (r : Rules) (head : MemberHead) (keyStart : Mark) (key : Key) : Parser Member := do
  if isConstructorKey key then fail
  return .property head.start keyStart key head.decorators (← propertyRest r)

/-- A member whose key has just been read, if it is a method or a property. -/
def memberNamed? (r : Rules) (head : MemberHead) (keyStart : Mark) (key : Key)
    (ends : Parser Bool) : Parser (Option Member) := do
  if ← atMethod then return some (← methodRest r head keyStart key false false)
  if ← atProperty ends then
    optionalMark
    return some (← property r head keyStart key)
  return none

/-- A member from its key on, behind every modifier. -/
def memberRest (r : Rules) (head : MemberHead) : Parser Member := do
  let keyStart := (← current).mark
  if ← eat .star then
    let keyStart := (← current).mark
    let key ← memberKey r
    if head.isReadonly then fail
    return ← methodRest r head keyStart key false true
  let word := (← token).name?
  let key ← memberKey r
  optionalMark
  if ← atMethod then
    if head.isReadonly then fail
    if isConstructorKey key && !head.isStatic then return ← constructorRest r head keyStart
    return ← methodRest r head keyStart key false false
  let accesses := (word == some "get" || word == some "set") &&
    !(← atProperty (isAt .semicolon)) && !((← isAt .star) && (← onNewLine))
  if !accesses && (← atProperty atEnd) then return ← property r head keyStart key
  if word == some "async" && !(← onNewLine) then
    let _ ← modifier ["override"]
    let isGenerator ← eat .star
    let keyStart := (← current).mark
    let key ← memberKey r
    if isConstructorKey key || head.isReadonly then fail
    optionalMark
    return ← methodRest r head keyStart key true isGenerator
  if accesses then
    let keyStart := (← current).mark
    let key ← memberKey r
    return ← methodRest r head keyStart key false false
  fail

/-- A field with accessors, behind its keyword. -/
def accessorRest (r : Rules) (head : MemberHead) : Parser Member := do
  let key ← memberKey r
  if isConstructorKey key then fail
  optionalMark
  return .accessor key head.decorators (← propertyRest r)

/-- A block that runs when its class is made. -/
def staticBlock (r : Rules) : Parser Member := do
  return .nameless (← within (fun c => { c with inAsync := false, inGenerator := false }) (block r))

/-- A member behind its access modifier and `static`. -/
def memberBehindStatic (r : Rules) (head : MemberHead) (access : Option String) :
    Parser Member := do
  let marks ← many do
    if (← isAtWord "static") && (← peek).token == .punct .openBrace then return none
    modifier ["abstract", "readonly", "override", "static"]
  let head := { head with
    isStatic := head.isStatic || marks.contains "static"
    isReadonly := marks.contains "readonly" }
  if ← types then
    let keyStart := (← current).mark
    if ← eatWord "accessor" then
      if let some m ← memberNamed? r head keyStart (.plain "accessor") atEnd then return m
      return ← accessorRest r head
  if head.isStatic && (← isAt .openBrace) then return ← staticBlock r
  if (← isAtWord "static") && (← peek).token == .punct .openBrace then
    advance
    return ← staticBlock r
  if (← types) && access.isNone && !marks.contains "abstract" && !marks.contains "override" then
    if let some parts ← indexSignature r then return .nameless parts
  memberRest r head

def member (r : Rules) : Parser Member := do
  let start := (← current).mark
  let ds ← decorators r
  let head : MemberHead := { start, decorators := ds }
  let early := (← current).mark
  let declares ← if ← types then eatWord "declare" else pure false
  let access ← accessModifier
  let late := (← current).mark
  let declaresLate ← if (← types) && !declares then eatWord "declare" else pure false
  if declares || declaresLate then
    let keyStart := if declares then early else late
    if let some m ← memberNamed? r head keyStart (.plain "declare") atEnd then return m
  let staticStart := (← current).mark
  if ← eatWord "static" then
    unless ← isAt .openBrace do
      if let some m ← memberNamed? r head staticStart (.plain "static") (isAt .semicolon) then
        return m
    return ← memberBehindStatic r { head with isStatic := true } access
  memberBehindStatic r head access

/-! ## The class -/

/-- One of the types that a class implements or an interface extends. -/
def heritageItem (r : Rules) : Parser Node := do
  let e ← r .heritage
  return .form .type (e :: (← if ← atLess then typeArguments r else pure []))

/-- The types that a class implements or an interface extends. -/
def heritageItems (r : Rules) : Parser (List Node) :=
  separated (return (← isAt .openBrace) || (← isAtWord "implements") || (← isAtWord "extends"))
    (heritageItem r)

def superClass (r : Rules) : Parser Node := do
  let e ← r (.leftHand false)
  if (← types) && (← atLess) then return .form .instantiation (e :: (← typeArguments r))
  return e

def extendsClause (r : Rules) : Parser (Option Node) := do
  if ← eatWord "extends" then return some (← superClass r)
  return none

def implementsClause (r : Rules) : Parser (List Node) := do
  if ← types <&&> eatWord "implements" then heritageItems r else return []

/-- A class from its keyword on. Clauses that come twice or in the wrong order are tolerated, and
dropped unless they tell what the class extends for the first time. -/
def classRest {α : Type} (r : Rules) (start : Mark) (ds : List Decorator) (name : Parser α) :
    Parser (α × Class) := do
  expectWord "class"
  let name ← name
  let generic ← typeParameters r
  let base ← extendsClause r
  if ← pure base.isSome <&&> types <&&> eat .comma then let _ ← heritageItems r
  let _ ← extendsClause r
  let interfaces ← implementsClause r
  let _ ← implementsClause r
  let lateBase ← extendsClause r
  expect .openBrace
  let members ← manyUntil (isAt .closeBrace) do
    if ← eat .semicolon then return .nameless []
    member r
  expect .closeBrace
  return (name, ⟨start, ds, members, (base <|> lateBase).toList ++ generic ++ interfaces⟩)

def classDeclaration (r : Rules) (start : Mark) (ds : List Decorator) : Parser Node := do
  let (name, body) ← classRest r start ds do
    if ← isAtWord "let" then fail
    declaredName
  return .classDeclaration name body

def classExpression (r : Rules) (start : Mark) (ds : List Decorator) : Parser Node := do
  let (name, body) ← classRest r start ds optionalName
  return .classExpression name body

end DocAnnotations.Script.Grammar
