import DocAnnotations.Text.Blank
import DocAnnotations.Text.Lines

/-!
# Annotation lines

A line is an annotation if it starts with `@` once the comment's decoration is
gone.
-/

namespace DocAnnotations.Comment

/-- One annotation as it is written in a comment. -/
structure Line where
  /-- With its leading `@`. -/
  name : String
  /-- What follows the first space, without blanks around it; `none` if there is no space. -/
  text : Option String
deriving DecidableEq, Inhabited, Repr

/-- What a comment puts around its lines: stars, slashes and indentation. -/
def isDecoration (c : Char) : Bool :=
  c == '\t' || c == '\n' || c == ' ' || c == '*' || c == '/'

/-- The annotation that starts after the decoration, if there is one. -/
def Line.ofBare? (cs : List Char) : Option Line :=
  if cs.head? = some '@' then
    match cs.span (· ≠ ' ') with
    | (name, []) => some ⟨String.ofList name, none⟩
    | (name, _ :: rest) => some ⟨String.ofList name, some (String.ofList (Text.trimBlank rest))⟩
  else none

def Line.ofChars? (cs : List Char) : Option Line :=
  Line.ofBare? (Text.trimBoth isDecoration cs)

/-- The annotation lines of a comment, in order. -/
def scan (comment : String) : List Line :=
  (Text.lines comment.toList).filterMap Line.ofChars?

end DocAnnotations.Comment
