import DocAnnotations.Proofs.Script.Place
import DocAnnotations.Proofs.Script.Words

/-!
# Trees in the order of their source

In each class, the class starts first and its members start after each other.
Nothing is said of the order of two classes.
-/

namespace DocAnnotations.Script

/-- That marks stand on lines that do not go back. -/
def Ascends (marks : List Mark) : Prop := marks.Pairwise fun a b => a.line ≤ b.line

/-- Where a member that may be recorded starts. -/
def Member.start? : Member → Option Mark
  | .constructor start .. | .method start .. | .property start .. => some start
  | .accessor .. | .nameless _ => none

/-- Where a class starts, and then its members. -/
def Class.starts (c : Class) : List Mark := c.start :: c.members.filterMap Member.start?

/-- A class, whether it has a name or not. -/
def Node.class? : Node → Option Class
  | .classDeclaration _ c | .classExpression _ c | .exportedDefault _ _ c => some c
  | .form .. | .exported .. => none

/-- The name with which a class is written. -/
def Node.className? : Node → Option String
  | .classDeclaration name _ => some name
  | .classExpression name _ | .exportedDefault _ name _ => name
  | .form .. | .exported .. => none

/-- That the classes of a node are in order, those inside it included. -/
inductive Node.InOrder : Node → Prop
  | mk {n : Node} (own : ∀ c, n.class? = some c → Ascends c.starts)
      (named : ∀ name, n.className? = some name → IsIdentifier name)
      (parts : ∀ part ∈ n.parts, part.InOrder) : n.InOrder

theorem Node.InOrder.own {n : Node} (h : n.InOrder) {c : Class} (hc : n.class? = some c) :
    Ascends c.starts := by
  cases h with
  | mk own named parts => exact own c hc

theorem Node.InOrder.named {n : Node} (h : n.InOrder) {name : String}
    (hname : n.className? = some name) : IsIdentifier name := by
  cases h with
  | mk own named parts => exact named name hname

theorem Node.InOrder.parts {n : Node} (h : n.InOrder) : ∀ part ∈ n.parts, part.InOrder := by
  cases h with
  | mk own named parts => exact parts

theorem inOrder_of_mem_placesFrom {i : Nat} {ns : List Node} (h : ∀ n ∈ ns, n.InOrder)
    {p : List Nat × Node} (hp : p ∈ placesFrom i ns) : p.2.InOrder := by
  induction i, ns using placesFrom.induct generalizing p with
  | case1 i => simp [placesFrom] at hp
  | case2 i n rest ihparts ihrest =>
    have hn : n.InOrder := h n List.mem_cons_self
    rw [placesFrom, List.cons_append, List.mem_cons, List.mem_append, List.mem_map] at hp
    rcases hp with rfl | ⟨q, hq, rfl⟩ | hp
    · exact hn
    · exact ihparts (p := q) hn.parts hq
    · exact ihrest (fun n' hn' => h n' (List.mem_cons_of_mem n hn')) hp

end DocAnnotations.Script
