import DocAnnotations.Script.Grammar.Module

/-! # Statements -/

namespace DocAnnotations.Script.Grammar

open Script.Parser

/-! ## Parts of statements -/

def condition (r : Rules) : Parser Node := do
  expect .openParen
  let e ← withIn (r .expression)
  expect .closeParen
  return e

def body (r : Rules) : Parser Node :=
  within (fun c => { c with topLevel := false, inLoopHead := false }) (r .statement)

def blockStatement (r : Rules) : Parser Node := return .form .statement (← block r)

/-- A statement that a keyword starts, from behind it on. -/
def statementOf (parts : Parser (List Node)) : Parser Node := do
  advance
  return .form .statement (← parts)

/-! ## Loops -/

/-- What a loop runs over, from `of` or `in` on. -/
def loopRange (r : Rules) (left : Node) : Parser (List Node) := do
  let isOf ← isAtWord "of"
  advance
  return [left, ← withIn (if isOf then r .assignment else r .expression)]

/-- The test and the step of a loop, behind its first semicolon. -/
def loopTest (r : Rules) (start : List Node) : Parser (List Node) := do
  let test ←
    if ← eat .semicolon then pure []
    else
      let e ← withIn (r .expression)
      let _ ← eat .semicolon
      pure [e]
  let step ← if ← isAt .closeParen then pure [] else pure [← withIn (r .expression)]
  return start ++ test ++ step

/-- The head of a loop behind what it starts with. `mustRange` says that it runs over something
asynchronous. -/
def loopHeadRest (r : Rules) (mustRange : Bool) (start : Node) : Parser (List Node) := do
  if mustRange && !(← isAtWord "of") then fail
  if ← atLoopRange then return ← loopRange r start
  expect .semicolon
  loopTest r [start]

/-- What the head of a loop starts with, when it is an expression that is assigned to. -/
def loopTarget (e : Node) : Option Node :=
  match e with
  | .form .object _ | .form .array _ => toPattern false e
  | e => some e

def loopHead (r : Rules) (mustRange : Bool) : Parser (List Node) := do
  if ← atVariables then return ← loopHeadRest r mustRange (← variableDeclaration r true)
  if ← pure !mustRange <&&> eat .semicolon then return ← loopTest r []
  let next ← peek
  if (← isAtWord "using") && next.token.isReference && !next.newLine &&
      next.token != .word "of" false then
    advance
    return ← loopHeadRest r mustRange (.form .declaration (← declarators r "var" true))
  let e ← within (fun c => { c with allowsIn := false }) (r .expression)
  if ← atLoopRange then
    match loopTarget e with
    | some p => return ← loopHeadRest r mustRange p
    | none => fail
  loopHeadRest r mustRange e

def forLoop (r : Rules) : Parser (List Node) := do
  let mustRange ← eatWord "await"
  expect .openParen
  let head ← within (fun c => { c with inLoopHead := !mustRange }) (loopHead r mustRange)
  expect .closeParen
  return head ++ [← body r]

/-- A loop with its test at the end. The test is searched first. -/
def doLoop (r : Rules) : Parser (List Node) := do
  let b ← body r
  expectWord "while"
  let test ← condition r
  let _ ← eatEnd
  return [test, b]

/-! ## Branches -/

def ifBranches (r : Rules) : Parser (List Node) := do
  let test ← condition r
  let yes ← body r
  if ← eatWord "else" then return [test, yes, ← body r]
  return [test, yes]

def switchCase (r : Rules) : Parser (List Node) := do
  let test ←
    if ← eatWord "case" then pure [← withIn (r .expression)]
    else
      expectWord "default"
      pure []
  expect .colon
  let atNext : Parser Bool :=
    return (← isAtWord "case") || (← isAtWord "default") || (← isAt .closeBrace)
  return test ++ (← manyUntil atNext (r .item))

def switchCases (r : Rules) : Parser (List Node) := do
  let e ← condition r
  expect .openBrace
  let cases ← within (fun c => { c with topLevel := false })
    (manyUntil (isAt .closeBrace) (switchCase r))
  expect .closeBrace
  return e :: cases.flatten

/-! ## Exceptions -/

def catchClause (r : Rules) : Parser (List Node) := do
  unless ← eatWord "catch" do return []
  let parameter ←
    if ← eat .openParen then
      let p ← r .pattern
      let annotation ← typeAnnotation r
      expect .closeParen
      pure (p :: annotation)
    else pure []
  return parameter ++ (← block r)

def finallyClause (r : Rules) : Parser (List Node) := do
  if ← eatWord "finally" then block r else return []

/-- Clauses without the block that they belong to. They are dropped, and so is what is wrong with
them. -/
def strayClauses (r : Rules) : Parser Node := do
  let _ ← tolerate (catchClause r)
  let _ ← tolerate (finallyClause r)
  return .leaf .invalid

/-! ## Keyword statements -/

/-- A jump to a label or out of the statement around it. -/
def jump : Parser (List Node) := do
  if ← eatEnd then return []
  let _ ← declaredName
  expectEnd
  return []

def keywordStatement (r : Rules) (word : String) : Parser (Option Node) := do
  match word with
  | "break" | "continue" => some <$> statementOf jump
  | "debugger" => some <$> statementOf do expectEnd; return []
  | "do" => some <$> statementOf (doLoop r)
  | "for" => some <$> statementOf (forLoop r)
  | "if" => some <$> statementOf (ifBranches r)
  | "while" | "with" => some <$> statementOf do return [← condition r, ← body r]
  | "switch" => some <$> statementOf (switchCases r)
  | "try" => some <$> statementOf do
    let b ← block r
    let handler ← catchClause r
    return b ++ handler ++ (← finallyClause r)
  | "catch" | "finally" => some <$> strayClauses r
  | "throw" => some <$> statementOf do
    if ← onNewLine then fail
    let e ← withIn (r .expression)
    expectEnd
    return [e]
  | "return" => some <$> statementOf do
    if ← eatEnd then return []
    let e ← withIn (r .expression)
    expectEnd
    return [e]
  | _ => return none

/-! ## Expressions as statements -/

/-- The declaration or label that a name starts, if it starts one. -/
def nameStatement (r : Rules) (start : Mark) (ds : List Decorator) (name : String) :
    Parser (Option Node) := do
  if ← eat .colon then
    if ← isAtWord "function" then return some (← functionDeclaration r true [])
    return some (← body r)
  unless ← types do return none
  if name == "declare" then return ← ambientDeclaration r start ds
  if name == "global" then
    if ← isAt .openBrace then return some (← namespaceBlock r)
    return none
  if let some d ← wordDeclaration r start ds name false then return some d
  if ← pure (["public", "static", "abstract"].contains name) <&&> eatWord "interface" then
    return some (← interface r)
  return none

/-- A statement that starts with an expression. Where an operator follows, its operands are
tolerated. -/
def expressionStatement (r : Rules) (ds : List Decorator) : Parser Node := do
  let start := (← current).mark
  let e ← withIn (r .expression)
  if let some name := e.identifier? then
    if let some d ← nameStatement r start ds name then return d
  if ← eatEnd then return .form .statement [e]
  if isBinaryOperator (← token) then return .form .statement [← operationRest r e]
  fail

/-- A declaration that starts with a word which may not refer to a variable. -/
def reservedDeclaration (r : Rules) (ds : List Decorator) (word : String) : Parser Node := do
  let start := (← current).mark
  advance
  if word == "interface" && (← onNewLine) then return .leaf .statement
  match ← wordDeclaration r start ds word false with
  | some d => return d
  | none => fail

/-! ## Statements -/

/-- A resource that is waited for when it is closed. -/
def awaitedResources (r : Rules) : Parser (Option Node) := do
  unless (← peek).token == .word "using" false do return none
  attempt do
    advance
    resources r

/-- The declaration or statement that a word starts. `isItem` says whether it may be one that needs
a list of statements around it. -/
def wordStatement (r : Rules) (isItem : Bool) (start : Mark) (ds : List Decorator) (word : String) :
    Parser Node := do
  if ← atConstEnum then return ← constEnum r
  if let some s ← keywordStatement r word then return s
  if word == "function" then return ← functionDeclaration r true ds
  if word == "class" then return ← classDeclaration r start ds
  if word == "var" || (isItem && (← atVariables)) then return ← variableDeclaration r false
  if isItem && word == "using" then
    if let some d ← resources r then return d
  if word == "await" && (isItem || (← read).topLevel) then
    if let some d ← awaitedResources r then return d
  if word == "async" && (← wordFollows "function") then return ← functionDeclaration r true ds
  if (← types) && (word == "enum" || word == "interface") then
    return ← reservedDeclaration r ds word
  expressionStatement r ds

/-- An import or export, or an expression that starts with an import. -/
def moduleItem (r : Rules) (ds : List Decorator) : Parser Node := do
  let next := (← peek).token
  if (← isAtWord "import") && (next == .punct .dot || next == .punct .openParen) then
    let e ← r .expression
    let _ ← eatEnd
    return .form .statement [e]
  unless (← read).topLevel do fail
  if ← isAtWord "import" then importStatement r else exportStatement r ds

def statement (r : Rules) (isItem : Bool) : Parser Node :=
  within (fun c => { c with awaitsColon := false }) do
    let start := (← current).mark
    let ds ← decorators r
    match ← token with
    | .word word false =>
      if word == "import" || word == "export" then
        if word == "export" && !ds.isEmpty && !(← types) then fail
        moduleItem r ds
      else wordStatement r isItem start ds word
    | .punct .openBrace => blockStatement r
    | .punct .semicolon => advance; return .leaf .statement
    | _ => expressionStatement r ds

end DocAnnotations.Script.Grammar
