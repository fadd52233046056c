import DocAnnotations.Script.Tree

/-!
# Tokens

Closing angle brackets and slashes are tokens of their own: whether more
characters belong to one depends on where it stands.
-/

namespace DocAnnotations.Script

/-- The punctuators that the grammar tells apart. -/
inductive Punct where
  | openBrace
  | closeBrace
  | openParen
  | closeParen
  | openBracket
  | closeBracket
  | semicolon
  | comma
  | colon
  | dot
  | ellipsis
  | question
  | questionDot
  | arrow
  | at
  | hash
  | backquote
  | equals
  /-- An assignment that also computes, such as `+=`. -/
  | updateAssign
  | slash
  /-- `/=`, which may also start a regular expression. -/
  | slashAssign
  | less
  /-- `<<`, which may also open two lists of types. -/
  | doubleLess
  | greater
  | plus
  | minus
  | increment
  | decrement
  | star
  | power
  | bar
  | ampersand
  | bang
  | tilde
  /-- Any other operator between two operands. -/
  | operator
deriving DecidableEq, Repr

inductive Token where
  /-- A name or keyword; an escaped one is never a keyword. -/
  | word (name : String) (escaped : Bool)
  | string (value : String)
  | number (value : Binary64)
  | bigint
  | punct (p : Punct)
  /-- The end of the source. -/
  | finish
  /-- Text that is no token. -/
  | invalid
deriving DecidableEq, Repr

/-! ## Words -/

/-- The words that never name anything. -/
def reservedWords : List String :=
  ["break", "case", "catch", "class", "const", "continue", "debugger", "default", "delete", "do",
    "else", "enum", "export", "extends", "false", "finally", "for", "function", "if", "import",
    "in", "instanceof", "new", "null", "return", "super", "switch", "this", "throw", "true", "try",
    "typeof", "var", "void", "while", "with"]

/-- The words that name something only outside strict code. -/
def strictWords : List String :=
  ["await", "implements", "interface", "let", "package", "private", "protected", "public", "yield"]

def isReserved (name : String) : Bool := reservedWords.contains name

/-- Whether a comment right behind a word belongs to the word. Keywords take no comments, except for
`enum`, and neither does `module`. -/
def wordTakesComments (name : String) : Bool :=
  name == "enum" ||
    !(isReserved name || name == "let" || name == "await" || name == "yield" || name == "module")

/-- Whether a comment right behind a token, on its line, belongs to the token. -/
def Token.takesComments : Token → Bool
  | word name escaped => escaped || wordTakesComments name
  | string _ | number _ | bigint => true
  | punct p => p == .semicolon || p == .openBrace || p == .closeBrace
  | finish | invalid => false

end DocAnnotations.Script
