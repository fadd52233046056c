import DocAnnotations.Json.Number
import DocAnnotations.Json.Text

/-! # Writing JSON -/

namespace DocAnnotations.Json

/-! ## Compact -/

mutual

def writeValue : Value → List Char
  | .null => "null".toList
  | .bool true => "true".toList
  | .bool false => "false".toList
  | .int n => writeInt n.toInt
  | .float x => writeFloat x
  | .text s => writeText s.toList
  | .list items => '[' :: (writeItems items ++ [']'])
  | .map entries => '{' :: (writeEntries entries ++ ['}'])

def writeItems : List Value → List Char
  | [] => []
  | [v] => writeValue v
  | v :: w :: rest => writeValue v ++ ',' :: writeItems (w :: rest)

def writeEntries : List (String × Value) → List Char
  | [] => []
  | [(k, v)] => writeText k.toList ++ ':' :: writeValue v
  | (k, v) :: e :: rest =>
    writeText k.toList ++ ':' :: (writeValue v ++ ',' :: writeEntries (e :: rest))

end

def write (v : Value) : String := String.ofList (writeValue v)

/-! ## Indented -/

def newLine (level : Nat) : List Char := '\n' :: List.replicate (2 * level) ' '

mutual

/-- A value that stands at the given level. An empty list or map stays on its line. -/
def indentValue (level : Nat) : Value → List Char
  | .list (v :: rest) =>
    '[' :: (newLine (level + 1) ++ indentItems (level + 1) (v :: rest) ++ newLine level ++ [']'])
  | .map (e :: rest) =>
    '{' :: (newLine (level + 1) ++ indentEntries (level + 1) (e :: rest) ++ newLine level ++ ['}'])
  | v => writeValue v

def indentItems (level : Nat) : List Value → List Char
  | [] => []
  | [v] => indentValue level v
  | v :: w :: rest => indentValue level v ++ ',' :: (newLine level ++ indentItems level (w :: rest))

def indentEntries (level : Nat) : List (String × Value) → List Char
  | [] => []
  | [(k, v)] => writeText k.toList ++ ':' :: ' ' :: indentValue level v
  | (k, v) :: e :: rest =>
    writeText k.toList ++ ':' :: ' ' ::
      (indentValue level v ++ ',' :: (newLine level ++ indentEntries level (e :: rest)))

end

def indent (v : Value) : String := String.ofList (indentValue 0 v)

end DocAnnotations.Json
