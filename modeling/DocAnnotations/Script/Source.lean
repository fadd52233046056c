import DocAnnotations.Script.Grammar.Jsx
import DocAnnotations.Script.Grammar.Statement

/-! # Reading a source -/

namespace DocAnnotations.Script

open Grammar

def grammar (r : Rules) : Rules
  | .item => statement r true
  | .statement => statement r false
  | .expression => expression r
  | .assignment => assignment r
  | .operation mayBeArrow => operation r mayBeArrow
  | .operand mayBeArrow => operand r mayBeArrow
  | .leftHand mayBeArrow => leftHand r mayBeArrow
  | .callee mayBeArrow => callee r mayBeArrow
  | .heritage => heritage r
  | .pattern => pattern r
  | .type => type r
  | .operatorType => operatorType r
  | .element => openElement r

/-- The grammars of phrases that stand in each other at most so deep. -/
def rulesUpTo : Nat → Rules
  | 0, _ => Parser.fail
  | depth + 1, p => grammar (rulesUpTo depth) p

/-- How many phrases may start at one token, one within the other. -/
def phrasesPerToken : Nat := 8

def fileItems (depth : Nat) : Parser (List Node) :=
  Parser.manyUntil (return (← Parser.token) == .finish) (rulesUpTo depth .item)

/-- What is known at the start of a file. A module is read as strict code. -/
def Context.ofDialect (d : Dialect) (bound : Nat) : Context where
  dialect := d
  bound := bound
  topLevel := true
  ambient := d.ambient
  inGenerator := false
  inAsync := false
  allowsIn := true
  inLoopHead := false
  inBranch := false
  awaitsColon := false
  plainTypes := false

/-- The tree of a source; `none` if the source does not follow the grammar. -/
def Module.ofSource? (d : Dialect) (text : String) : Option Module :=
  let cs := text.toList
  let size := cs.length + 2
  let start := State.behind false true 1 (skipShebang cs)
  match fileItems (phrasesPerToken * size) (.ofDialect d size) start with
  | .ok found _ => some ⟨found⟩
  | .error _ _ => none

end DocAnnotations.Script
