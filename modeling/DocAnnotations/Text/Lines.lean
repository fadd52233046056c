/-!
# Lines

A carriage return directly before a line feed belongs to the line's end. The last
line may be unterminated, and is then kept only if it holds something.
-/

namespace DocAnnotations.Text

def dropReturn (line : List Char) : List Char :=
  if line.getLast? = some '\r' then line.dropLast else line

/-- Splits at every line feed; the pieces still hold their carriage returns. -/
def splitFeeds : List Char → List (List Char)
  | [] => [[]]
  | c :: rest =>
    if c = '\n' then [] :: splitFeeds rest
    else
      match splitFeeds rest with
      | [] => [[c]]
      | piece :: pieces => (c :: piece) :: pieces

/-- Every piece but the last ended with a line feed: those lose a carriage return, and the last one
is a line only if it is not empty. -/
def closeLines : List (List Char) → List (List Char)
  | [] => []
  | [last] => if last = [] then [] else [last]
  | piece :: pieces => dropReturn piece :: closeLines pieces

/-- The lines of a text. -/
def lines (text : List Char) : List (List Char) := closeLines (splitFeeds text)

end DocAnnotations.Text
