import DocAnnotations.Script.Grammar.Class
import DocAnnotations.Script.Grammar.Target

/-! # Operands -/

namespace DocAnnotations.Script.Grammar

open Script.Parser

/-! ## Literals -/

def template (r : Rules) (tagged : Bool) : Parser Node :=
  return .form .template (← templateItems tagged (enclosed (r .expression)))

/-- A regular expression, whose first slash starts the current token. -/
def regularExpression : Parser Node := do
  let s ← get
  match readPattern false false (s.current.text.drop 1) with
  | some rest =>
    moveTo true s.current.mark.line rest
    return .leaf .literal
  | none => fail

def arrayLiteral (r : Rules) : Parser Node := do
  expect .openBracket
  let items ← enclosed <| manyUntil (isAt .closeBracket) do
    if ← eat .comma then return Node.leaf .hole
    let item ← spreadable r
    unless ← isAt .closeBracket do expect .comma
    return item
  expect .closeBracket
  return .form .array items

/-! ## Objects -/

def objectMethod (r : Rules) (key : List Node) (isAsync isGenerator : Bool) : Parser Node := do
  let f ← functionParts r isAsync isGenerator (parameters r)
  return .form .function (key ++ f.nodes)

/-- Whether a property that is no property can go on here, behind its key. -/
def mayFollowKey (t : Token) (isName : Bool) : Bool :=
  match t with
  | .word .. | .string _ | .number _ | .bigint => true
  | .punct p =>
    p == .openParen || p == .openBracket || p == .colon || p == .comma || p == .question ||
      p == .equals || p == .star || p == .less || p == .doubleLess || (p == .closeBrace && isName)
  | _ => false

def objectItem (r : Rules) : Parser Node := do
  if ← eat .ellipsis then return .form .spread [← withIn (r .assignment)]
  if ← eat .star then
    let key ← propertyKey r
    return ← objectMethod r key.parts false true
  strayModifier
  let word := (← token).name?
  let key := (← propertyKey r).parts
  if (← types) && !mayFollowKey (← token) word.isSome then
    return .form (.property key.length) (key ++ [.leaf .invalid])
  if ← eat .colon then
    return .form (.property key.length) (key ++ [← withIn (r .assignment)])
  if ← atMethod then return ← objectMethod r key false false
  if word.isNone then fail
  let _ ← eat .question
  if (← isAt .equals) || (← isAt .comma) || (← isAt .closeBrace) then
    return .form .shorthand (← withIn (initializer r))
  if word == some "get" || word == some "set" then
    let key ← propertyKey r
    objectMethod r key.parts false false
  else if word == some "async" then
    let isGenerator ← eat .star
    let key ← propertyKey r
    objectMethod r key.parts true isGenerator
  else fail

def objectLiteral (r : Rules) : Parser Node := do
  expect .openBrace
  let items ← separated (isAt .closeBrace) (objectItem r)
  expect .closeBrace
  return .form .object items

/-! ## Arrow functions and parentheses -/

/-- What stands between parentheses, before it is known whether an arrow follows. -/
inductive ParenItem where
  | value (e : Node)
  | spread (e : Node)
  /-- What can only be a parameter. -/
  | parameter (p : Node)

def asParameters (items : List ParenItem) : Option (List Node) :=
  items.mapM fun
    | .value e => toPattern true e
    | .spread e => toPattern true e
    | .parameter p => some p

/-- A branch of a conditional expression. -/
def branch {α : Type} (awaitsColon : Bool) (p : Parser α) : Parser α :=
  within (fun c => { c with inBranch := true, awaitsColon }) p

def conditionalRest (r : Rules) (test : Node) : Parser Node := do
  expect .question
  let yes ← within (fun c => { c with allowsIn := true }) (branch true (r .assignment))
  expect .colon
  let no ← branch false (r .assignment)
  return .form .conditional [test, yes, no]

/-- An assignment, from its operator on, if there is one. -/
def assignmentRest (r : Rules) (target : Node) : Parser Node := do
  if ← eat .equals then
    match assignmentTarget target with
    | some p => return .form .assignment [p, ← r .assignment]
    | none => fail
  let s ← get
  let computes ← match s.current.token with
    | .punct .updateAssign | .punct .slashAssign => advance; pure true
    | .punct .greater =>
      let (p, rest) := readGreater (s.current.text.drop 1)
      if p == .updateAssign then moveTo false s.line rest
      pure (p == .updateAssign)
    | _ => pure false
  if !computes then return target
  unless isSimpleTarget target do fail
  return .form .updateAssignment [target, ← r .assignment]

/-- The value of an item. Where types are annotated, a question mark behind a name may belong to a
parameter. -/
def parenValue (r : Rules) : Parser ParenItem := do
  let isSpread ← isAt .ellipsis
  let isName ← if isSpread then pure (← peek).token.isReference else pure (← token).isReference
  if (← types) && isName then
    if ← eat .ellipsis then return .spread (← r (.operation true))
    return .value (← assignmentRest r (← r (.operation true)))
  if ← eat .ellipsis then return .spread (← r .assignment)
  return .value (← r .assignment)

def ParenItem.node : ParenItem → Node
  | value e | spread e | parameter e => e

/-- The question mark behind an item: that of an optional parameter, or of a conditional expression.
The result says whether the parameter is optional. -/
def parenQuestion (r : Rules) (item : ParenItem) : Parser (ParenItem × Bool) := do
  unless (← types) && (← isAt .question) do return (item, false)
  let next := (← peek).token
  if next == .punct .comma || next == .punct .equals || next == .punct .closeParen ||
      next == .punct .colon then
    advance
    match item.node with
    | .form (.identifier _) _ | .form .object _ | .form .array _ => return (item, true)
    | _ => fail
  match item with
  | .value test => return (.value (← conditionalRest r test), false)
  | item => return (item, false)

def parenItem (r : Rules) : Parser (List ParenItem) := do
  strayModifier
  let (item, isOptional) ← parenQuestion r (← parenValue r)
  let item ←
    if isOptional || ((← types) && (← isAt .colon)) then
      match toPattern true item.node with
      | none => fail
      | some p =>
        let annotation ← typeAnnotation r
        pure (.parameter (.form .parameter (p :: annotation ++ (← initializer r))))
    else pure item
  if ← eat .arrow then
    if item.node.identifier?.isSome then
      return [item, .value (.form .arrow (← arrowBody r false))]
  return [item]

def parenItems (r : Rules) : Parser (List ParenItem) := enclosed do
  expect .openParen
  let items ← separated (isAt .closeParen) (parenItem r)
  expect .closeParen
  return items.flatten

def arrowRest (r : Rules) (items : List ParenItem) (types : List Node) (isAsync : Bool) :
    Parser Node := do
  expect .arrow
  match asParameters items with
  | some ps => return .form .arrow (ps ++ (← arrowBody r isAsync) ++ types)
  | none => fail

/-- An arrow function with a result type, in a branch of a conditional expression: its colon may be
the one of that expression. -/
def arrowInBranch (r : Rules) (items : List ParenItem) (isAsync : Bool) : Parser (Option Node) := do
  unless (← types) && (← read).inBranch && (← isAt .colon) do return none
  attempt do
    let result ← returnType r .colon
    let f ← arrowRest r items result isAsync
    if (← read).awaitsColon && !(← isAt .colon) then return none
    return some f

/-- The values of items that turned out to be no parameters. -/
def parenValues (items : List ParenItem) : Parser (List Node) :=
  items.mapM fun
    | .value e => return e
    | .spread e => return .form .spread [e]
    | .parameter _ => fail

/-- A parenthesis: an expression, the parameters of an arrow function, or behind `async` the
arguments of a call. -/
def parenthesis (r : Rules) (mayBeArrow isAsync : Bool) : Parser Node := do
  let items ← parenItems r
  if let some f ← arrowInBranch r items isAsync then return f
  let result ←
    if (← types) && !(← read).awaitsColon && (← isAt .colon) then
      attempt do
        let result ← returnType r .colon
        if ← isAt .arrow then return some result else return none
    else pure none
  let hasParameter := items.any fun | .parameter _ => true | _ => false
  if hasParameter || result.isSome || (← isAt .arrow) then
    if (← onNewLine) || !mayBeArrow then fail
    return ← arrowRest r items (result.getD []) isAsync
  let values ← parenValues items
  if isAsync then return .form .call (.leaf (.identifier "async") :: values)
  match values with
  | [] => fail
  | values =>
    if values.any (·.hasForm .spread) then fail
    return .form .group values

/-- A generic async arrow function behind `async`. -/
def genericAsyncArrow (r : Rules) : Parser (Option Node) := attempt do
  expectWord "async"
  let generic ← angled (typeParameter r)
  expect .openParen
  let ps ← parameters r
  expect .closeParen
  let result ← optionalReturnType r
  expect .arrow
  return some (.form .arrow (ps.map Parameter.node ++ (← arrowBody r true) ++ generic ++ result))

/-- What follows the name `async` when it stands in front of a parameter. -/
def asyncArrow (r : Rules) : Parser Node := do
  let here := Node.leaf (.identifier "async")
  if (← read).inLoopHead && (← isAtWord "of") && (← peek).token != .punct .arrow then return here
  let name ← declaredName
  if (← types) && name == "as" && !(← isAt .arrow) then return .form .typed [here, ← r .type]
  expect .arrow
  return .form .arrow (.leaf (.identifier name) :: (← arrowBody r true))

def nameOrArrow (r : Rules) (mayBeArrow : Bool) (name : String) : Parser Node := do
  advance
  let here := Node.leaf (.identifier name)
  if !mayBeArrow || (← onNewLine) then return here
  if name == "async" && (← token).isReference then return ← asyncArrow r
  if ← eat .arrow then return .form .arrow (here :: (← arrowBody r false))
  return here

/-! ## Primary expressions -/

def asyncOperand (r : Rules) (mayBeArrow : Bool) : Parser Node := do
  if ← wordFollows "function" then return ← functionExpression r
  let next ← peek
  if mayBeArrow && (← types) && next.token == .punct .less then
    if let some f ← genericAsyncArrow r then return f
  if mayBeArrow && next.token == .punct .openParen && !next.newLine then
    advance
    return ← parenthesis r true true
  nameOrArrow r mayBeArrow "async"

def wordOperand (r : Rules) (mayBeArrow : Bool) (name : String) : Parser Node := do
  if ["this", "null", "true", "false"].contains name then advance; return .leaf .literal
  else if name == "async" then asyncOperand r mayBeArrow
  else if name == "function" then functionExpression r
  else if name == "class" then classExpression r (← current).mark []
  else if name == "let" || mayRefer name false then nameOrArrow r mayBeArrow name
  else fail

/-- An expression that is not made of smaller ones by an operator or an access. -/
def primary (r : Rules) (mayBeArrow : Bool) : Parser Node := do
  let start := (← current).mark
  match ← token with
  | .word name true => nameOrArrow r mayBeArrow name
  | .word name false => wordOperand r mayBeArrow name
  | .string _ | .number _ | .bigint => advance; return .leaf .literal
  | .punct .openBracket => arrayLiteral r
  | .punct .openBrace => objectLiteral r
  | .punct .openParen => parenthesis r mayBeArrow false
  | .punct .backquote => template r false
  | .punct .slash | .punct .slashAssign => regularExpression
  | .punct .hash => let _ ← secretName; return .leaf .literal
  | .punct .at =>
    let ds ← decorators r
    match ← token with
    | .word "class" false => classExpression r start ds
    | .word name escaped =>
      if mayRefer name escaped || name == "let" then nameOrArrow r mayBeArrow name else fail
    | _ => fail
  | _ => fail

/-! ## Calls and members -/

def mayStartExpression (t : Token) : Bool :=
  match t with
  | .word name escaped =>
    mayRefer name escaped ||
      ["this", "super", "null", "true", "false", "function", "class", "new", "import", "delete",
        "typeof", "void", "await", "yield"].contains name
  | .string _ | .number _ | .bigint => true
  | .punct p =>
    p == .backquote || p == .openParen || p == .openBracket || p == .openBrace || p == .slash ||
      p == .slashAssign || p == .plus || p == .minus || p == .tilde || p == .bang ||
      p == .increment || p == .decrement || p == .less || p == .hash
  | _ => false

def isBinaryOperator (t : Token) : Bool :=
  match t with
  | .punct p =>
    p == .operator || p == .slash || p == .less || p == .doubleLess || p == .greater ||
      p == .plus || p == .minus || p == .star || p == .power || p == .bar || p == .ampersand
  | _ => false

/-- The types that an expression is applied to without being called, if what follows shows that
they are types and not operands. -/
def instantiation (r : Rules) : Parser (Option (List Node)) := do
  unless (← types) && (← atLess) do return none
  attempt do
    let args ← typeArguments r
    let next ← current
    match next.token with
    | .punct .less | .punct .greater | .punct .equals | .punct .plus | .punct .minus
    | .punct .openParen | .punct .backquote => return none
    | t =>
      if next.newLine || isBinaryOperator t || !mayStartExpression t then return some args
      return none

def memberName : Parser Unit := do
  if ← isAt .hash then let _ ← secretName
  else let _ ← anyName

def genericCall (r : Rules) (noCall : Bool) (f : Node) : Parser (Option Node) := attempt do
  let types ← typeArguments r
  if !noCall && (← isAt .openParen) then return some (.form .call (f :: (← arguments r) ++ types))
  if ← isAt .backquote then return some (.form .call (f :: types ++ [← template r true]))
  return none

/-- What stands behind `?.`. -/
def optionalAccess (r : Rules) (noComputed : Bool) (object : Node) : Parser Node := do
  if ← pure !noComputed <&&> eat .openBracket then
    let key ← enclosed (r .expression)
    expect .closeBracket
    return .form .optionalChain [object, key]
  let types ← if (← types) && (← atLess) then typeArguments r else pure []
  if ← isAt .openParen then return .form .optionalChain (object :: (← arguments r) ++ types)
  memberName
  return .form .optionalChain [object]

def memberForm (object : Node) : Form :=
  if object.hasForm .superObject then .superMember else .member

def access (r : Rules) (noCall noComputed : Bool) (object : Node) : Parser (Option Node) := do
  if (← types) && (← isAt .bang) && !(← onNewLine) then
    advance
    return some (.form .typed [object])
  if (← types) && (← atLess) then
    if let some e ← genericCall r noCall object then return some e
  if ← eat .questionDot then return some (← optionalAccess r noComputed object)
  if ← pure !noComputed <&&> eat .openBracket then
    let key ← enclosed (r .expression)
    expect .closeBracket
    return some (.form (memberForm object) [object, key])
  if !noCall && (← isAt .openParen) then return some (.form .call (object :: (← arguments r)))
  if ← eat .dot then
    memberName
    return some (.form (memberForm object) [object])
  if object.hasForm .superObject || object.hasForm .importFunction then fail
  if ← isAt .backquote then return some (.form .call [object, ← template r true])
  return none

def accesses (r : Rules) (noCall noComputed : Bool) (object : Node) : Parser Node :=
  iterate (fun object => do
    match ← access r noCall noComputed object with
    | some e => return .inl e
    | none => return .inr object) object

/-- An import that is called, or what is known about the module. -/
def importOperand (r : Rules) (noCall : Bool) : Parser Node := do
  expectWord "import"
  if ← eat .dot then
    let name ← anyName
    if name == "meta" then return ← accesses r noCall false (.leaf .literal)
    unless name == "defer" || name == "source" do fail
  accesses r noCall false (.leaf .importFunction)

/-- Whether an expression reaches through `?.` in its last two steps, so that `new` cannot stand in
front of it. -/
def isOptionalAccess (n : Node) : Bool :=
  match n with
  | .form .optionalChain _ => true
  | .form .member (object :: _) => object.hasForm .optionalChain
  | _ => false

/-- A construction, behind `new`. -/
def construction (r : Rules) : Parser Node := do
  if ← eat .dot then
    expectWord "target"
    return ← accesses r true false (.leaf .literal)
  let f ← r (.callee false)
  if f.hasForm .arrow then return f
  if isOptionalAccess f then fail
  let types ←
    if (← types) && (← atLess) then
      attempt do
        let types ← typeArguments r
        if ← isAt .openParen then return some types else return none
    else pure none
  if ← isAt .openParen then
    accesses r true false (.form .construct (f :: (← arguments r) ++ types.getD []))
  else return .form .bareConstruct [f]

def callee (r : Rules) (mayBeArrow : Bool) : Parser Node := do
  if ← eatWord "new" then return ← construction r
  if ← eatWord "super" then return ← accesses r true false (.leaf .superObject)
  if ← isAtWord "import" then return ← importOperand r true
  let e ← primary r mayBeArrow
  if e.hasForm .arrow then return e
  match ← instantiation r with
  | some types => accesses r true false (.form .instantiation (e :: types))
  | none => accesses r true false e

def atElement : Parser Bool := return (← read).dialect.jsx && (← isAt .less)

/-- A JSX element with its last angle bracket. -/
def element (r : Rules) : Parser Node := do
  let e ← r .element
  expect .greater
  return e

/-- An operand without operators around it. -/
def leftHand (r : Rules) (mayBeArrow : Bool) : Parser Node := do
  if ← atElement then return ← element r
  if ← eatWord "super" then return ← accesses r false false (.leaf .superObject)
  if ← isAtWord "import" then return ← importOperand r false
  let f ← r (.callee mayBeArrow)
  if f.hasForm .arrow then return f
  let types ←
    if (← types) && (← atLess) then
      attempt do
        let types ← typeArguments r
        if ← isAt .openParen then return some types else return none
    else pure none
  if ← isAt .openParen then
    if f.hasForm .bareConstruct then return f
    return ← accesses r false false (.form .call (f :: (← arguments r) ++ types.getD []))
  return f

/-- A name with members, as classes implement it. -/
def heritage (r : Rules) : Parser Node := do
  accesses r true true (.leaf (.identifier (← anyName)))

end DocAnnotations.Script.Grammar
