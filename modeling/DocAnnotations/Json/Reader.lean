import DocAnnotations.Json.Number
import DocAnnotations.Json.Text

/-! # Reading JSON -/

namespace DocAnnotations.Json

/-- The white space that JSON allows between tokens. -/
def isSpace (c : Char) : Bool := c == ' ' || c == '\t' || c == '\n' || c == '\r'

def skipSpace (cs : List Char) : List Char := cs.dropWhile isSpace

def maxDepth : Nat := 127

mutual

/-- The value at the start of the text, at most `depth` levels deep, and what follows it. -/
def readValue (fuel depth : Nat) (cs : List Char) : Option (Value × List Char) :=
  match fuel with
  | 0 => none
  | fuel + 1 =>
    match cs with
    | 'n' :: 'u' :: 'l' :: 'l' :: rest => some (.null, rest)
    | 't' :: 'r' :: 'u' :: 'e' :: rest => some (.bool true, rest)
    | 'f' :: 'a' :: 'l' :: 's' :: 'e' :: rest => some (.bool false, rest)
    | '"' :: rest => do
      let (s, rest) ← readText rest
      some (.text (String.ofList s), rest)
    | '[' :: rest =>
      match depth with
      | 0 => none
      | depth + 1 =>
        match skipSpace rest with
        | ']' :: rest => some (.list [], rest)
        | rest => do
          let (items, rest) ← readItems fuel depth rest
          some (.list items, rest)
    | '{' :: rest =>
      match depth with
      | 0 => none
      | depth + 1 =>
        match skipSpace rest with
        | '}' :: rest => some (.map [], rest)
        | rest => do
          let (members, rest) ← readMembers fuel depth rest
          some (.ofMembers members, rest)
    | cs => do
      let (n, rest) ← readNumeral cs
      some (← n.value?, rest)

def readItems (fuel depth : Nat) (cs : List Char) : Option (List Value × List Char) :=
  match fuel with
  | 0 => none
  | fuel + 1 => do
    let (v, rest) ← readValue fuel depth (skipSpace cs)
    match skipSpace rest with
    | ',' :: rest => do
      let (items, rest) ← readItems fuel depth rest
      some (v :: items, rest)
    | ']' :: rest => some ([v], rest)
    | _ => none

def readMembers (fuel depth : Nat) (cs : List Char) : Option (List (String × Value) × List Char) :=
  match fuel with
  | 0 => none
  | fuel + 1 =>
    match skipSpace cs with
    | '"' :: rest => do
      let (key, rest) ← readText rest
      match skipSpace rest with
      | ':' :: rest => do
        let (v, rest) ← readValue fuel depth (skipSpace rest)
        match skipSpace rest with
        | ',' :: rest => do
          let (members, rest) ← readMembers fuel depth rest
          some ((String.ofList key, v) :: members, rest)
        | '}' :: rest => some ([(String.ofList key, v)], rest)
        | _ => none
      | _ => none
    | _ => none

end

/-- The value that a whole text spells. No reading takes more steps than two for each character. -/
def readChars (cs : List Char) : Option Value := do
  let (v, rest) ← readValue (2 * cs.length + 2) maxDepth (skipSpace cs)
  if skipSpace rest = [] then some v else none

def read (text : String) : Option Value := readChars text.toList

end DocAnnotations.Json
