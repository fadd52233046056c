import DocAnnotations.Text.Blank
import DocAnnotations.Script.Tree

/-!
# Between tokens

A block comment belongs to the token after it if a line break came before the
comment, or if the token before it takes no comments.
-/

namespace DocAnnotations.Script

def isLineEnd (c : Char) : Bool :=
  c == '\n' || c == '\r' || c == '\u2028' || c == '\u2029'

-- Not unfolded by itself: the equations of `passGap` are found only where it is left alone.
/-- The characters between tokens, line ends included. -/
@[irreducible] def isGap (c : Char) : Bool := Text.isBlank c || c == '\uFEFF'

/-- How many lines end with a character. A carriage return before a line feed ends none, and
neither do the separators, which break lines without counting. -/
def lineEnds (c : Char) (rest : List Char) : Nat :=
  if c == '\n' then 1
  else if c == '\r' then (if rest.head? == some '\n' then 0 else 1)
  else 0

structure Gap where
  leading : List Remark
  newLine : Bool
  /-- The line of the next token. -/
  line : Nat
  rest : List Char

/-- Where a position in a gap lies. The text of a comment is kept backwards, with whether the
comment leads the next token. -/
inductive GapPlace where
  | between
  | lineRemark (leads : Bool) (text : List Char)
  | blockRemark (leads : Bool) (text : List Char)
  /-- Before the slash that ends a block comment. -/
  | closing

/-- The leading comments, backwards, with a finished comment added if it leads. -/
def addRemark (isBlock leads : Bool) (text : List Char) (found : List Remark) : List Remark :=
  if leads then ⟨isBlock, String.ofList text.reverse⟩ :: found else found

/-- Passes over a gap. `taken` says whether the token before takes comments, `found` holds the
leading comments so far, backwards. The old marks for comments, `<!--` and at the start of a line
`-->`, count as well. -/
def passGap (taken : Bool) (place : GapPlace) (newLine : Bool) (line : Nat) (found : List Remark) :
    List Char → Gap
  | [] =>
    match place with
    | .lineRemark leads text => ⟨(addRemark false leads text found).reverse, newLine, line, []⟩
    | _ => ⟨found.reverse, newLine, line, []⟩
  | c :: rest =>
    match place with
    | .between =>
      if isLineEnd c then passGap taken .between true (line + lineEnds c rest) found rest
      else if isGap c then passGap taken .between newLine line found rest
      else if c == '/' then
        match rest with
        | '/' :: after =>
          passGap taken (.lineRemark (newLine || !taken) []) newLine line found after
        | '*' :: after =>
          passGap taken (.blockRemark (newLine || !taken) []) newLine line found after
        | _ => ⟨found.reverse, newLine, line, c :: rest⟩
      else if c == '<' then
        match rest with
        | '!' :: '-' :: '-' :: after =>
          passGap taken (.lineRemark false []) newLine line found after
        | _ => ⟨found.reverse, newLine, line, c :: rest⟩
      else if c == '-' && newLine then
        match rest with
        | '-' :: '>' :: after => passGap taken (.lineRemark false []) newLine line found after
        | _ => ⟨found.reverse, newLine, line, c :: rest⟩
      else ⟨found.reverse, newLine, line, c :: rest⟩
    | .lineRemark leads text =>
      if isLineEnd c then
        passGap taken .between true (line + lineEnds c rest) (addRemark false leads text found) rest
      else passGap taken (.lineRemark leads (c :: text)) newLine line found rest
    | .blockRemark leads text =>
      if c == '*' && rest.head? == some '/' then
        passGap taken .closing newLine line (addRemark true leads text found) rest
      else
        passGap taken (.blockRemark leads (c :: text)) (newLine || isLineEnd c)
          (line + lineEnds c rest) found rest
    | .closing => passGap taken .between newLine line found rest

end DocAnnotations.Script
