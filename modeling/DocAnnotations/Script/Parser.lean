import DocAnnotations.Script.Dialect
import DocAnnotations.Script.Lexeme

/-!
# Parsers

A failure leaves the source where it was found, so that a construct that tolerates
a failure goes on from there; `attempt` goes back.
-/

namespace DocAnnotations.Script

/-! ## What a parser knows -/

/-- What the constructs around a place mean for it. -/
structure Context where
  dialect : Dialect
  /-- More than the number of tokens in the source, hence of steps in any loop. -/
  bound : Nat
  /-- Whether imports and exports may stand here. -/
  topLevel : Bool
  /-- Whether what is declared here is defined elsewhere. -/
  ambient : Bool
  inGenerator : Bool
  inAsync : Bool
  /-- Whether `in` is an operator, which it is not in the head of a loop. -/
  allowsIn : Bool
  inLoopHead : Bool
  /-- Whether this is a branch of a conditional expression. -/
  inBranch : Bool
  /-- Whether the colon of a conditional expression must still come. -/
  awaitsColon : Bool
  /-- Whether a conditional type must not be read. -/
  plainTypes : Bool

/-- Where a parser is. -/
structure State where
  current : Lexeme
  /-- The line on which the current token ends. -/
  line : Nat
  /-- What follows the current token. -/
  rest : List Char

/-- The state behind a gap. -/
def State.behind (taken newLine : Bool) (line : Nat) (cs : List Char) : State :=
  let (current, line, rest) := nextLexeme taken newLine line cs
  ⟨current, line, rest⟩

abbrev Parser := ReaderT Context (EStateM Unit State)

namespace Parser

/-- Gives up: the source does not follow the grammar. -/
def fail {α : Type} : Parser α := throw ()

/-- Changes what is known about the constructs around. -/
def within {α : Type} (f : Context → Context) (p : Parser α) : Parser α := fun c => p (f c)

def types : Parser Bool := return (← read).dialect.types

/-! ## Tokens -/

def current : Parser Lexeme := return (← get).current

def token : Parser Token := return (← get).current.token

/-- Goes on to the token behind some text. -/
def moveTo (taken : Bool) (line : Nat) (cs : List Char) : Parser Unit :=
  set (State.behind taken false line cs)

def advance : Parser Unit :=
  modify fun s => .behind s.current.token.takesComments false s.line s.rest

def peek : Parser Lexeme :=
  return (State.behind (← get).current.token.takesComments false (← get).line (← get).rest).current

def isAt (p : Punct) : Parser Bool := return (← token) == .punct p

def isAtWord (word : String) : Parser Bool := return (← token) == .word word false

def eat (p : Punct) : Parser Bool := do
  if ← isAt p then advance; return true
  return false

def eatWord (word : String) : Parser Bool := do
  if ← isAtWord word then advance; return true
  return false

def expect (p : Punct) : Parser Unit := do unless ← eat p do fail

def expectWord (word : String) : Parser Unit := do unless ← eatWord word do fail

def onNewLine : Parser Bool := return (← current).newLine

/-- Whether the token after the current one is `word`, on the same line. -/
def wordFollows (word : String) : Parser Bool := do
  let next ← peek
  return next.token == .word word false && !next.newLine

/-! ## Semicolons -/

def atEnd : Parser Bool := do
  let t ← token
  return t == .punct .semicolon || t == .punct .closeBrace || t == .finish || (← onNewLine)

def eatEnd : Parser Bool := do
  if ← eat .semicolon then return true
  atEnd

def expectEnd : Parser Unit := do unless ← eatEnd do fail

/-! ## Going back -/

/-- Reads something if it is there, and else goes back. -/
def attempt {α : Type} (p : Parser (Option α)) : Parser (Option α) := do
  let start ← get
  try
    match ← p with
    | some a => return some a
    | none => set start; return none
  catch _ => set start; return none

/-- Whether something can be read here. Nothing is read in the end. -/
def lookAhead (p : Parser Bool) : Parser Bool := do
  let start ← get
  let answer ← try p catch _ => pure false
  set start
  return answer

/-- Reads something, or fails half-way through it and goes on from there. -/
def tolerate {α : Type} (p : Parser α) : Parser (Option α) := do
  try return some (← p) catch _ => return none

/-! ## Loops -/

def stepUpTo {σ α : Type} (step : σ → Parser (σ ⊕ α)) : Nat → σ → Parser α
  | 0, _ => fail
  | n + 1, s => do
    match ← step s with
    | .inl s => stepUpTo step n s
    | .inr a => return a

/-- Repeats a step until it gives a result. -/
def iterate {σ α : Type} (step : σ → Parser (σ ⊕ α)) (s : σ) : Parser α := do
  stepUpTo step (← read).bound s

/-- Everything that can be read until there is nothing more. -/
def many {α : Type} (item : Parser (Option α)) : Parser (List α) :=
  iterate (fun found => do
    match ← item with
    | some a => return .inl (a :: found)
    | none => return .inr found.reverse) []

/-- Items up to a token that stays unread. -/
def manyUntil {α : Type} (closes : Parser Bool) (item : Parser α) : Parser (List α) :=
  many do if ← closes then return none else return some (← item)

/-- Items with commas between them, up to a token that stays unread. A comma may close the list. -/
def separated {α : Type} (closes : Parser Bool) (item : Parser α) : Parser (List α) :=
  manyUntil closes do
    let a ← item
    unless ← closes do expect .comma
    return a

end Parser

/-! ## The constructs that contain each other -/

/-- The constructs whose grammars are needed by others, before they are defined. -/
inductive Phrase where
  /-- A statement or declaration of a list, or an import or export. -/
  | item
  /-- A statement that stands alone, such as the body of a loop. -/
  | statement
  /-- An expression with commas. -/
  | expression
  /-- An expression without commas. -/
  | assignment
  /-- Operands and the operators between them; `mayBeArrow` says whether an arrow function may
  start here. -/
  | operation (mayBeArrow : Bool)
  /-- An operand with the operators in front of it; `mayBeArrow` says whether an arrow function may
  start with it. -/
  | operand (mayBeArrow : Bool)
  /-- An operand without operators around it. -/
  | leftHand (mayBeArrow : Bool)
  /-- What may be called. -/
  | callee (mayBeArrow : Bool)
  /-- A name with members, as classes implement it. -/
  | heritage
  /-- A pattern of names. -/
  | pattern
  | type
  /-- A type that is no union or intersection. -/
  | operatorType
  /-- A JSX element, up to its last angle bracket. -/
  | element

/-- A parser for each phrase. -/
abbrev Rules := Phrase → Parser Node

end DocAnnotations.Script
