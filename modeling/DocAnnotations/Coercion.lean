import DocAnnotations.Comment.Line
import DocAnnotations.Json.Reader

/-!
# Reading the text of an annotation

The first rule that applies gives the value; the last one takes the text as it is,
so that no text is refused.
-/

namespace DocAnnotations.Coercion

/-! ## Splitting at commas -/

/-- Where a position of the text lies: how many brackets are open around it, and whether it is in a
string. -/
inductive Place where
  | bare (depth : Nat)
  | quoted (depth : Nat)
  | escaped (depth : Nat)
deriving DecidableEq

/-- The place after a character; there is none after a closing bracket that has no opener. -/
def Place.next? (p : Place) (c : Char) : Option Place :=
  match p with
  | escaped d => some (quoted d)
  | quoted d => some (if c = '\\' then escaped d else if c = '"' then bare d else quoted d)
  | bare d =>
    if c = '"' then some (quoted d)
    else if c = '[' ∨ c = '{' then some (bare (d + 1))
    else if c = ']' ∨ c = '}' then
      match d with
      | 0 => none
      | d + 1 => some (bare d)
    else some (bare d)

def consFirst (c : Char) : List (List Char) → List (List Char)
  | [] => [[c]]
  | piece :: pieces => (c :: piece) :: pieces

/-- The pieces of a text that starts at the given place. -/
def splitAt (p : Place) : List Char → Option (List (List Char))
  | [] => if p = .bare 0 then some [[]] else none
  | c :: rest =>
    match p.next? c with
    | none => none
    | some q =>
      match splitAt q rest with
      | none => none
      | some pieces => some (if p = .bare 0 ∧ c = ',' then [] :: pieces else consFirst c pieces)

/-- Splits at the commas outside strings and brackets. There is no answer if a bracket or a string
is left open or a bracket closes nothing. -/
def splitTopLevel (cs : List Char) : Option (List (List Char)) := splitAt (.bare 0) cs

/-! ## Lists -/

/-- A word that may stand in a list without quotes: no blanks, and nothing that JSON gives a
meaning. -/
def isBareWord (cs : List Char) : Bool :=
  !cs.isEmpty && cs.all fun c =>
    !(Text.isBlank c || c == '[' || c == ']' || c == '\x7b' || c == '\x7d' || c == '"' ||
      c == ':' || c == ',')

/-- An item of a list: JSON if it is JSON, else a bare word. -/
def readItem? (piece : List Char) : Option Value :=
  let item := Text.trimBlank piece
  match Json.readChars item with
  | some v => some v
  | none => if isBareWord item then some (.text (String.ofList item)) else none

/-- A list of two or more items, some of which may be bare words. -/
def readBareList? (cs : List Char) : Option (List Value) :=
  match splitTopLevel cs with
  | some (first :: second :: rest) => (first :: second :: rest).mapM readItem?
  | _ => none

def readWrapped? (cs : List Char) : Option (List Value) :=
  match Json.readChars ('[' :: (cs ++ [']'])) with
  | some (.list items) => some items
  | _ => none

def readList? (cs : List Char) : Option (List Value) :=
  match readWrapped? cs with
  | some items => some items
  | none => readBareList? cs

/-! ## The rules -/

/-- The value of a JSON text other than null. -/
def readLiteral? (cs : List Char) : Option Value :=
  match Json.readChars cs with
  | some .null => none
  | v => v

/-- Whether the text is the word `null` in any mix of upper and lower case. -/
def isNullWord (cs : List Char) : Bool := cs.map Char.toLower == "null".toList

def ofChars (cs : List Char) : Value :=
  if isNullWord cs then .null
  else
    match readLiteral? cs with
    | some v => v
    | none =>
      match readList? cs with
      | some items => .list items
      | none => .text (String.ofList cs)

/-- The value of an annotation's text, if it has one. -/
def coerce : Option String → Value
  | none => .bool true
  | some text => ofChars text.toList

end DocAnnotations.Coercion
