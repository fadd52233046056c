import DocAnnotations.Script.Literal
import DocAnnotations.Script.Space

/-! # The next token -/

namespace DocAnnotations.Script

/-! ## Punctuators -/

/-- The longest punctuator at the start of the text, and what follows it. -/
def readPunct : List Char → Option (Punct × List Char)
  | '{' :: cs => some (.openBrace, cs)
  | '}' :: cs => some (.closeBrace, cs)
  | '(' :: cs => some (.openParen, cs)
  | ')' :: cs => some (.closeParen, cs)
  | '[' :: cs => some (.openBracket, cs)
  | ']' :: cs => some (.closeBracket, cs)
  | ';' :: cs => some (.semicolon, cs)
  | ',' :: cs => some (.comma, cs)
  | ':' :: cs => some (.colon, cs)
  | '~' :: cs => some (.tilde, cs)
  | '@' :: cs => some (.at, cs)
  | '#' :: cs => some (.hash, cs)
  | '`' :: cs => some (.backquote, cs)
  | '>' :: cs => some (.greater, cs)
  | '.' :: cs =>
    match cs with
    | '.' :: '.' :: cs => some (.ellipsis, cs)
    | cs => some (.dot, cs)
  | '?' :: cs =>
    match cs with
    | '?' :: '=' :: cs => some (.updateAssign, cs)
    | '?' :: cs => some (.operator, cs)
    | '.' :: cs =>
      if (cs.head?.map Decimal.isDigit).getD false then some (.question, '.' :: cs)
      else some (.questionDot, cs)
    | cs => some (.question, cs)
  | '=' :: cs =>
    match cs with
    | '=' :: '=' :: cs => some (.operator, cs)
    | '=' :: cs => some (.operator, cs)
    | '>' :: cs => some (.arrow, cs)
    | cs => some (.equals, cs)
  | '!' :: cs =>
    match cs with
    | '=' :: '=' :: cs => some (.operator, cs)
    | '=' :: cs => some (.operator, cs)
    | cs => some (.bang, cs)
  | '/' :: cs =>
    match cs with
    | '=' :: cs => some (.slashAssign, cs)
    | cs => some (.slash, cs)
  | '<' :: cs =>
    match cs with
    | '<' :: '=' :: cs => some (.updateAssign, cs)
    | '<' :: cs => some (.doubleLess, cs)
    | '=' :: cs => some (.operator, cs)
    | cs => some (.less, cs)
  | '+' :: cs =>
    match cs with
    | '+' :: cs => some (.increment, cs)
    | '=' :: cs => some (.updateAssign, cs)
    | cs => some (.plus, cs)
  | '-' :: cs =>
    match cs with
    | '-' :: cs => some (.decrement, cs)
    | '=' :: cs => some (.updateAssign, cs)
    | cs => some (.minus, cs)
  | '*' :: cs =>
    match cs with
    | '*' :: '=' :: cs => some (.updateAssign, cs)
    | '*' :: cs => some (.power, cs)
    | '=' :: cs => some (.updateAssign, cs)
    | cs => some (.star, cs)
  | '%' :: cs =>
    match cs with
    | '=' :: cs => some (.updateAssign, cs)
    | cs => some (.operator, cs)
  | '&' :: cs =>
    match cs with
    | '&' :: '=' :: cs => some (.updateAssign, cs)
    | '&' :: cs => some (.operator, cs)
    | '=' :: cs => some (.updateAssign, cs)
    | cs => some (.ampersand, cs)
  | '|' :: cs =>
    match cs with
    | '|' :: '=' :: cs => some (.updateAssign, cs)
    | '|' :: cs => some (.operator, cs)
    | '=' :: cs => some (.updateAssign, cs)
    | cs => some (.bar, cs)
  | '^' :: cs =>
    match cs with
    | '=' :: cs => some (.updateAssign, cs)
    | cs => some (.operator, cs)
  | _ => none

/-- The operator or assignment that a closing angle bracket starts between two operands. -/
def readGreater : List Char → Punct × List Char
  | '>' :: '>' :: '=' :: cs => (.updateAssign, cs)
  | '>' :: '>' :: cs => (.operator, cs)
  | '>' :: '=' :: cs => (.updateAssign, cs)
  | '>' :: cs => (.operator, cs)
  | '=' :: cs => (.operator, cs)
  | cs => (.operator, cs)

/-! ## Tokens -/

/-- The token at the start of the text, how many lines end in it, and what follows it. -/
def readToken (cs : List Char) : Token × Nat × List Char :=
  match cs with
  | [] => (.finish, 0, [])
  | c :: rest =>
    if isIdentStart c || c == '\\' then
      let (t, rest) := readWord cs
      (t, 0, rest)
    else if Decimal.isDigit c || (c == '.' && (rest.head?.map Decimal.isDigit).getD false) then
      let (t, rest) := readNumber cs
      (t, 0, rest)
    else if c == '"' || c == '\'' then readString c rest
    else
      match readPunct cs with
      | some (p, rest) => (.punct p, 0, rest)
      | none => (.invalid, 0, rest)

structure Lexeme where
  token : Token
  mark : Mark
  /-- Whether a line break lies between this token and the one before. -/
  newLine : Bool
  /-- The source from the token's first character on. -/
  text : List Char

/-- The token behind a gap, with the line on which it ends and what follows it. `taken` says whether
the token before the gap takes comments, `newLine` whether a line break is known to lie in it. -/
def nextLexeme (taken newLine : Bool) (line : Nat) (cs : List Char) : Lexeme × Nat × List Char :=
  let gap := passGap taken .between newLine line [] cs
  let (token, ends, rest) := readToken gap.rest
  (⟨token, ⟨gap.line, gap.leading⟩, gap.newLine, gap.rest⟩, gap.line + ends, rest)

/-- The source without the line that names its interpreter. -/
def skipShebang (cs : List Char) : List Char :=
  match cs with
  | '#' :: '!' :: rest => rest.dropWhile fun c => !isLineEnd c
  | _ => cs

end DocAnnotations.Script
