import DocAnnotations.Script.Grammar.Declaration

/-! # Imports and exports -/

namespace DocAnnotations.Script.Grammar

open Script.Parser

/-! ## Sources -/

/-- Attributes of an imported module, which start on the line of its name. -/
def attributes (r : Rules) : Parser (List Node) := do
  if (← onNewLine) then return []
  if ← eatWord "with" <||> eatWord "assert" then
    unless ← isAt .openBrace do fail
    return [← r (.operand false)]
  return []

/-- The name of a module as a string, its attributes, and the end of the statement. -/
def source (r : Rules) : Parser Node := do
  match ← token with
  | .string _ => advance
  | _ => fail
  let parts ← attributes r
  expectEnd
  return .form .declaration parts

def fromSource (r : Rules) : Parser Node := do
  expectWord "from"
  source r

/-- A name that a module gives to what it exports. -/
def exportName : Parser Unit := do
  match ← token with
  | .string _ | .word .. => advance
  | _ => fail

/-! ## Lists of names -/

/-- The rest of a name that is only imported or exported as a type, behind `type as`. -/
def typeAsRest : Parser Unit := do
  if (← token).isWord then
    let name ← anyName
    if name == "as" && (← token).isWord then let _ ← anyName

/-- Whether an item of a list of names is marked as a type, and whether the item is finished. -/
def typeMark (name : Option String) : Parser (Option String × Bool) := do
  if (← types) && name == some "type" && (← token).isWord then
    let name ← anyName
    if name == "as" then
      typeAsRest
      return (some name, true)
    return (some name, false)
  return (name, false)

def exportItem : Parser Unit := do
  let name := (← token).name?
  exportName
  let (_, isDone) ← typeMark name
  if ← pure !isDone <&&> eatWord "as" then exportName

/-- An imported name. It keeps its name only if that may refer to a variable. -/
def importItem : Parser Unit := do
  let name := (← token).name?
  exportName
  let (name, isDone) ← typeMark name
  if isDone then return
  if ← eatWord "as" then let _ ← declaredName
  else unless (name.map (mayRefer · false)).getD false do fail

def nameList (item : Parser Unit) : Parser Unit := do
  expect .openBrace
  let _ ← separated (isAt .closeBrace) item
  expect .closeBrace

/-! ## Imports -/

/-- An alias for a module or for something in a namespace, from its equals sign on. -/
def importAlias : Parser Node := do
  expect .equals
  if (← isAtWord "require") && (← peek).token == .punct .openParen then
    advance
    expect .openParen
    unless (← token) matches .string _ do fail
    advance
    expect .closeParen
  else
    let _ ← declaredName
    qualifiers
  expectEnd
  return .form .declaration []

/-- What is imported besides the default, up to the name of the module. -/
def importedNames (r : Rules) : Parser Node := do
  if ← eat .star then
    expectWord "as"
    let _ ← declaredName
  else if ← isAt .openBrace then nameList importItem
  fromSource r

/-- Whether `from` in front of the current token, as a name, is followed by the keyword. -/
def namesDefault : Parser Bool := do
  unless (← token).isReference do return false
  return !(← isAtWord "from") || (← peek).token == .word "from" false

def namedImport (r : Rules) : Parser Node := do
  let mut name ← declaredName
  if (← types) && name == "type" then
    if (← isAt .openBrace) || (← isAt .star) then return ← importedNames r
    if (← namesDefault) || ((← isAtWord "from") && (← peek).token == .punct .equals) then
      name ← declaredName
  if (← types) && (← isAt .equals) then return ← importAlias
  if name == "defer" && (← isAt .star) then return ← importedNames r
  if name == "source" && (← namesDefault) then let _ ← declaredName
  unless ← isAtWord "from" do expect .comma
  importedNames r

def importStatement (r : Rules) : Parser Node := do
  expectWord "import"
  match ← token with
  | .string _ => source r
  | t => if t.isReference then namedImport r else importedNames r

/-! ## Exports -/

/-- The parts of a default export that is a class. -/
def defaultClass (r : Rules) (keyword start : Mark) (ds : List Decorator) : Parser Node := do
  let (name, body) ← classRest r start ds optionalName
  return .exportedDefault keyword name body

def defaultExport (r : Rules) (keyword : Mark) (ds : List Decorator) : Parser Node := do
  let late ← decorators r
  unless ds.isEmpty || late.isEmpty do fail
  let ds := ds ++ late
  let start := (← current).mark
  if ← types then
    if (← isAtWord "abstract") && (← wordFollows "class") then
      advance
      return ← defaultClass r keyword start ds
    if (← isAtWord "abstract") && (← peek).token == .word "interface" false then advance
    if ← eatWord "interface" then return ← interface r
  if ← isAtWord "class" then return ← defaultClass r keyword start ds
  if (← isAtWord "function") || ((← isAtWord "async") && (← wordFollows "function")) then
    return ← functionDeclaration r false ds
  let e ← withIn (r .assignment)
  expectEnd
  return .form .declaration [e]

/-- An export that only exists where types are annotated, if this is one. A `declare` in front of
any other export is passed over. -/
def typedExport (r : Rules) (keyword : Mark) (ds : List Decorator) : Parser (Option Node) := do
  let start := (← current).mark
  if ← eatWord "declare" then
    if let some d ← ambientDeclaration r start ds then return some (.exported keyword d)
  if let .word word false := (← token) then
    if let some d ← attempt (wordDeclaration r start ds word true) then
      return some (.exported keyword d)
  if ← eatWord "import" then
    if (← isAtWord "type") && (← peek).token.isWord then advance
    let _ ← anyName
    return some (← importAlias)
  if ← eat .equals then
    let e ← r .expression
    expectEnd
    return some (.form .declaration [e])
  if ← eatWord "as" then
    expectWord "namespace"
    let _ ← plainName
    expectEnd
    return some (.form .declaration [])
  return none

/-- A list of exported names, or everything of another module. -/
def exportedNames (r : Rules) : Parser Node := do
  if ← eat .star then
    if ← eatWord "as" then exportName
    return ← fromSource r
  nameList exportItem
  if ← isAtWord "from" then fromSource r
  else
    let _ ← eatEnd
    return .form .declaration []

def exportedDeclaration (r : Rules) (ds : List Decorator) : Parser (Option Node) := do
  if ← isAtWord "class" then return some (← classDeclaration r (← current).mark ds)
  if (← isAtWord "function") || ((← isAtWord "async") && (← wordFollows "function")) then
    return some (← functionDeclaration r true ds)
  if ← atConstEnum then return some (← constEnum r)
  if ← atVariables then return some (← variableDeclaration r false)
  return none

def exportStatement (r : Rules) (ds : List Decorator) : Parser Node := do
  let keyword := (← current).mark
  expectWord "export"
  if ← types then
    if let some e ← typedExport r keyword ds then return e
    if ← eatWord "type" then return ← exportedNames r
  if ← eatWord "default" then return ← defaultExport r keyword ds
  let late ← decorators r
  unless ds.isEmpty || late.isEmpty do fail
  match ← exportedDeclaration r (ds ++ late) with
  | some d => return .exported keyword d
  | none => exportedNames r

end DocAnnotations.Script.Grammar
