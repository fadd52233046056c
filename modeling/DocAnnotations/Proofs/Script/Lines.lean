import DocAnnotations.Proofs.Script.Words
import DocAnnotations.Script.Parser

/-!
# Lines of a source

Tokens are cut off a source from its start on, so their lines never go back.
-/

namespace DocAnnotations.Script

theorem le_line_passGap (taken : Bool) (place : GapPlace) (newLine : Bool) (line : Nat)
    (found : List Remark) (cs : List Char) :
    line ≤ (passGap taken place newLine line found cs).line := by
  fun_induction passGap <;> grind

/-- That a state has reached a line: its token starts there or later, and ends on no earlier line
than it starts. If the token is a word, then it is well spelled. -/
structure State.Reaches (s : State) (line : Nat) : Prop where
  le_start : line ≤ s.current.mark.line
  start_le : s.current.mark.line ≤ s.line
  spelled : s.current.token.Spelled

namespace State

theorem Reaches.of_le {s : State} {line line' : Nat} (h : s.Reaches line') (hle : line ≤ line') :
    s.Reaches line :=
  ⟨Nat.le_trans hle h.le_start, h.start_le, h.spelled⟩

theorem Reaches.le_line {s : State} {line : Nat} (h : s.Reaches line) : line ≤ s.line :=
  Nat.le_trans h.le_start h.start_le

theorem reaches_behind (taken newLine : Bool) (line : Nat) (cs : List Char) :
    (behind taken newLine line cs).Reaches line :=
  ⟨le_line_passGap taken .between newLine line [] cs, Nat.le_add_right _ _, spelled_readToken _⟩

end State

end DocAnnotations.Script
