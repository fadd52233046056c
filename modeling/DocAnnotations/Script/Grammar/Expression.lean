import DocAnnotations.Script.Grammar.Operand

/-!
# Expressions

Which operand binds to which operator is not kept: the operands of a chain are
searched in order.
-/

namespace DocAnnotations.Script.Grammar

open Script.Parser

/-! ## In front of an operand -/

/-- An operand that is waited for. Outside async functions, `await` may stand alone. -/
def awaited (r : Rules) : Parser Node := do
  expectWord "await"
  if ← isAt .star then fail
  if !(← read).inAsync then
    if (← atEnd) || (← isAt .closeParen) || (← isAt .closeBracket) || (← isAt .comma) then
      return .leaf (.identifier "await")
  return .form .await [← r (.operand false)]

/-- An operand behind the type that it is said to have. -/
def typeAssertion (r : Rules) : Parser Node := do
  expect .less
  if ← eatWord "const" then
    expect .greater
    return .form .typed [← r (.operand false)]
  let t ← r .type
  expect .greater
  return .form .typed [← r (.operand false), t]

def isUnaryOperator (t : Token) : Bool :=
  match t with
  | .word name false => ["delete", "void", "typeof"].contains name
  | .punct p => p == .plus || p == .minus || p == .tilde || p == .bang
  | _ => false

/-- An operand with the operators in front of it and behind it. What follows an operator may
fail. -/
def operand (r : Rules) (mayBeArrow : Bool) : Parser Node := do
  let d := (← read).dialect
  if d.types && !d.jsx && (← isAt .less) then return ← typeAssertion r
  if ← eat .increment <||> eat .decrement then return .form .update [← r (.operand false)]
  if isUnaryOperator (← token) then
    advance
    return .form .unary (← tolerate (r (.operand false))).toList
  if ← isAtWord "await" then return ← awaited r
  let e ← r (.leftHand mayBeArrow)
  if e.hasForm .arrow || (← onNewLine) then return e
  if ← eat .increment <||> eat .decrement then return .form .update [e]
  return e

/-! ## Between operands -/

/-- Goes past an operator between two operands, if one stands here. The result says whether it is a
power, which must not follow an operator in front of an operand. -/
def eatOperator : Parser (Option Bool) := do
  let s ← get
  match s.current.token with
  | .word "in" false =>
    if (← read).allowsIn then advance; return some false
    return none
  | .word "instanceof" false => advance; return some false
  | .punct .greater =>
    let (p, rest) := readGreater (s.current.text.drop 1)
    if p != .operator then return none
    moveTo false s.line rest
    return some false
  | t =>
    if isBinaryOperator t then advance; return some (t == .punct .power)
    return none

/-- The type behind an expression, if one stands here. -/
def typeBehindExpression (r : Rules) : Parser (Option (List Node)) := do
  unless (← types) && !(← onNewLine) do return none
  if ← eatWord "as" then
    if ← eatWord "const" then return some []
    return some [← r .type]
  if ← eatWord "satisfies" then return some [← r .type]
  return none

/-- A chain of operands, from behind the first one on. -/
def operationRest (r : Rules) (first : Node) : Parser Node :=
  iterate (fun (left, last) => do
    if let some types ← typeBehindExpression r then
      let e := Node.form .typed (left :: types)
      return .inl (e, e)
    match ← eatOperator with
    | none => return .inr left
    | some isPower =>
      if isPower && (last.hasForm .unary || last.hasForm .await) then fail
      let right ← r (.operand false)
      return .inl (.form .binary [left, right], right)) (first, first)

/-- Operands with operators between them. A first operand may be missing. -/
def operation (r : Rules) (mayBeArrow : Bool) : Parser Node := do
  match ← tolerate (r (.operand mayBeArrow)) with
  | some e => if e.hasForm .arrow then return e else operationRest r e
  | none =>
    let t ← token
    let goesOn := isBinaryOperator t || t == .word "instanceof" false ||
      (t == .word "in" false && (← read).allowsIn)
    if goesOn then operationRest r (.leaf .invalid) else fail

/-! ## Assignments -/

/-- What a generator hands out. -/
def yielded (r : Rules) : Parser Node := do
  expectWord "yield"
  let t ← token
  if (← atEnd) || !(mayStartExpression t || t == .punct .star) then return .leaf .yield
  let _ ← eat .star
  return .form .yield [← r .assignment]

def genericArrow (r : Rules) : Parser (Option Node) :=
  within (fun c => { c with awaitsColon := false }) <| attempt do
    let generic ← angled (typeParameter r)
    match ← r .assignment with
    | .form .arrow parts => return some (.form .arrow (parts ++ generic))
    | _ => return none

/-- An assignment, a conditional expression, or less. -/
def plainAssignment (r : Rules) : Parser Node := do
  if (← read).inGenerator && (← isAtWord "yield") then return ← yielded r
  let test ← r (.operation true)
  if test.hasForm .arrow then return test
  if ← isAt .question then return ← conditionalRest r test
  match test.form? with
  | some .binary | some .unary | some .update => return test
  | _ => assignmentRest r test

def assignment (r : Rules) : Parser Node := do
  let d := (← read).dialect
  unless d.types && (← atLess) do return ← plainAssignment r
  if d.jsx then
    if let some e ← attempt (some <$> plainAssignment r) then return e
  if let some f ← genericArrow r then return f
  plainAssignment r

def expression (r : Rules) : Parser Node := do
  let first ← r .assignment
  let others ← many do if ← eat .comma then return some (← r .assignment) else return none
  return sequence (first :: others)

end DocAnnotations.Script.Grammar
