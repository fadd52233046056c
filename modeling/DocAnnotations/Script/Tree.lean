import DocAnnotations.Number.Decimal

/-!
# The syntax tree of a script

The tree of a source file, as far as documentation needs it. Classes, their
members and the exports of classes have nodes of their own; every other construct
is a form with its parts.
-/

namespace DocAnnotations.Script

/-! ## Places -/

/-- A comment without its delimiters. -/
structure Remark where
  /-- Whether it is written between stars rather than to the end of a line. -/
  isBlock : Bool
  text : String
deriving DecidableEq, Inhabited, Repr

/-- Where a token stands. -/
structure Mark where
  /-- Counted from 1. -/
  line : Nat
  /-- The comments in front of the token that belong to it, in order. -/
  leading : List Remark
deriving DecidableEq, Inhabited, Repr

/-! ## Forms -/

/-- The constructs that are told apart only by name. -/
inductive Form where
  -- Values
  | identifier (name : String)
  | literal
  | template
  | array
  /-- A place in an array that is left empty. -/
  | hole
  | object
  /-- A property whose key has so many parts, and its value behind them. -/
  | property (keySize : Nat)
  /-- A name for both the key and the value, with the value for what is missing. -/
  | shorthand
  | spread
  | function
  | arrow
  | jsx
  -- Operations
  | group
  | sequence
  | unary
  | update
  | await
  | yield
  | binary
  | conditional
  | assignment
  /-- An assignment that also computes. -/
  | updateAssignment
  -- Access
  | superObject
  | importFunction
  | member
  | superMember
  | optionalChain
  | call
  | construct
  /-- A construction without arguments. -/
  | bareConstruct
  /-- An expression with a type that it is said to have. -/
  | typed
  /-- A generic and the types it is applied to. -/
  | instantiation
  -- Patterns
  | arrayPattern
  | objectPattern
  | restPattern
  | pattern
  | parameter
  /-- What is left of a construct that could not be read. -/
  | invalid
  -- The rest
  | type
  | statement
  | declaration
deriving DecidableEq, Inhabited, Repr

/-! ## Nodes -/

mutual

/-- A node of the tree. The parts of a form stand in the order in which they are searched. -/
inductive Node where
  | form (form : Form) (parts : List Node)
  | classDeclaration (name : String) (body : Class)
  | classExpression (name : Option String) (body : Class)
  /-- A declaration behind `export`, the keyword marked. -/
  | exported (keyword : Mark) (declaration : Node)
  /-- A class behind `export default`, the first keyword marked. -/
  | exportedDefault (keyword : Mark) (name : Option String) (body : Class)

structure Class where
  start : Mark
  decorators : List Decorator
  members : List Member
  /-- What the class extends and implements, and its type parameters. -/
  heritage : List Node

structure Decorator where
  /-- The place of its `@`. -/
  start : Mark
  expression : Node

inductive Key where
  /-- An identifier, a string or a number, as text. -/
  | plain (name : String)
  /-- A name behind `#`. -/
  | secret (name : String)
  | bigint
  | computed (expression : Node)

inductive Member where
  | constructor (start key : Mark) (parameters body : List Node)
  | method (start keyStart : Mark) (key : Key) (decorators : List Decorator)
      (parameters body : List Node)
  | property (start keyStart : Mark) (key : Key) (decorators : List Decorator) (value : List Node)
  | accessor (key : Key) (decorators : List Decorator) (value : List Node)
  /-- An index signature or a static block. -/
  | nameless (parts : List Node)

end

instance : Inhabited Node := ⟨.form .invalid []⟩

structure Module where
  items : List Node

namespace Node

def leaf (f : Form) : Node := .form f []

def form? : Node → Option Form
  | .form f _ => some f
  | _ => none

def hasForm (f : Form) (n : Node) : Bool := n.form? == some f

def identifier? : Node → Option String
  | .form (.identifier name) _ => some name
  | _ => none

end Node

end DocAnnotations.Script
