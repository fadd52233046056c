import DocAnnotations.Proofs.Extraction.Sites
import DocAnnotations.Proofs.Script.Grammar.Statements
import Mathlib.Data.List.Chain

/-!
# In which order elements are recorded

What stands inside a class is recorded behind its members, so lines go back where
a class is recorded.
-/

namespace DocAnnotations

namespace Script

/-! ## One class -/

theorem Member.line_of_finding? {className : String} {m : Member} {f : Finding}
    (h : m.finding? className = some f) : ∃ start, m.start? = some start ∧ f.line = start.line := by
  cases m with
  | constructor start =>
    cases h
    exact ⟨start, rfl, rfl⟩
  | method start keyStart key | property start keyStart key =>
    obtain ⟨name, -, rfl⟩ := Option.map_eq_some_iff.mp h
    exact ⟨start, rfl, rfl⟩
  | accessor | nameless => cases h

theorem Class.pairwise_findings (keywords : List Mark) (name : String) {c : Class}
    (h : Ascends c.starts) : (c.findings keywords name).Pairwise fun f f' => f.line ≤ f'.line := by
  obtain ⟨hclass, hmembers⟩ := List.pairwise_cons.mp h
  rw [findings, List.pairwise_cons]
  constructor
  · intro f hf
    obtain ⟨m, hm, hfinding⟩ := List.mem_filterMap.mp hf
    obtain ⟨start, hstart, hline⟩ := Member.line_of_finding? hfinding
    rw [hline]
    exact hclass start (List.mem_filterMap.mpr ⟨m, hm, hstart⟩)
  · rw [List.pairwise_filterMap] at hmembers ⊢
    refine hmembers.imp fun hm f hf f' hf' => ?_
    obtain ⟨start, hstart, hline⟩ := Member.line_of_finding? hf
    obtain ⟨start', hstart', hline'⟩ := Member.line_of_finding? hf'
    rw [hline, hline']
    exact hm start hstart start' hstart'

/-! ## One class after the other -/

/-- That outlines start with a class and then go on with another class, or on no earlier line. -/
def Staged (os : List Outline) : Prop :=
  (∀ o ∈ os.head?, o.kind = .classKind) ∧
    os.IsChain fun o o' => o'.kind ≠ .classKind → o.line ≤ o'.line

theorem staged_append {os os' : List Outline} (h : Staged os) (h' : Staged os') :
    Staged (os ++ os') := by
  constructor
  · cases os with
    | nil => exact h'.1
    | cons o os => exact h.1
  · exact h.2.append h'.2 fun _ _ o' ho' hkind => absurd (h'.1 o' ho') hkind

theorem staged_flatMap {α : Type} {l : List α} {f : α → List Outline} (h : ∀ a ∈ l, Staged (f a)) :
    Staged (l.flatMap f) := by
  induction l with
  | nil => exact ⟨by simp, List.isChain_nil⟩
  | cons a l ih =>
    rw [List.flatMap_cons]
    exact staged_append (h a List.mem_cons_self) (ih fun b hb => h b (List.mem_cons_of_mem a hb))

theorem Node.class?_of_namedClass? {n : Node} {name : String} {c : Class}
    (h : n.namedClass? = some (name, c)) : n.class? = some c := by
  unfold namedClass? at h
  split at h <;> cases h <;> rfl

theorem Node.staged_outlines {n : Node} (h : n.InOrder) : Staged n.outlines := by
  rw [outlines]
  cases hc : n.namedClass? with
  | none => exact ⟨by simp, List.isChain_nil⟩
  | some named =>
    obtain ⟨name, c⟩ := named
    have hpairwise := c.pairwise_findings [] name (h.own (class?_of_namedClass? hc))
    refine ⟨by simp [Class.findings, Finding.outline], ?_⟩
    exact (List.isChain_map _).mpr (hpairwise.isChain.imp fun f f' hle _ => hle)

theorem Module.staged_findings {d : Dialect} {text : String} {m : Module}
    (h : ofSource? d text = some m) : Staged (m.findings.map Finding.outline) := by
  rw [findings, outlines_searchNodes 0]
  exact staged_flatMap fun p hp =>
    p.2.staged_outlines (inOrder_of_mem_placesFrom (inOrder_of_ofSource? h) hp)

end Script

/-! ## Elements -/

namespace Element

variable {path source : String} {es : List Element}

theorem isChain_extract (h : extract path source = .ok es) :
    es.IsChain fun e e' => e'.kind ≠ .classKind → e.line ≤ e'.line := by
  obtain ⟨m, hm, rfl⟩ := extract_eq_ok_iff.mp h
  have hfindings := (List.isChain_map _).mp (Script.Module.staged_findings hm).2
  have hpairs : (m.findings.map fun f => (f.kind, f.line)).IsChain fun p p' =>
      p'.1 ≠ .classKind → p.2 ≤ p'.2 := (List.isChain_map _).mpr hfindings
  rw [← map_kind_line_ofFindings path] at hpairs
  exact (List.isChain_map _).mp hpairs

/-- The lines of the elements of a source go back at most at a class. They ascend exactly if no
class starts above the element that is recorded in front of it, be that a member of the class
around it. -/
theorem lines_ascend_iff (h : extract path source = .ok es) :
    es.IsChain (fun e e' => e'.kind ≠ .classKind → e.line ≤ e'.line) ∧
      (es.Pairwise (fun e e' => e.line ≤ e'.line) ↔
        es.IsChain fun e e' => e'.kind = .classKind → e.line ≤ e'.line) := by
  have hmembers := isChain_extract h
  refine ⟨hmembers, fun hall => hall.isChain.imp fun e e' hle _ => hle, fun hclasses => ?_⟩
  rw [← List.pairwise_map (f := Element.line) (R := (· ≤ ·)), ← List.isChain_iff_pairwise,
    List.isChain_map, List.isChain_iff_getElem]
  rw [List.isChain_iff_getElem] at hmembers hclasses
  intro i hi
  by_cases hkind : es[i + 1].kind = .classKind
  · exact hclasses i hi hkind
  · exact hmembers i hi hkind

theorem lines_ascend_iff_flat :
    let source := "class A \x7b\n  m() \x7b\x7d\n\x7d\nclass B \x7b\x7d"
    let es := [⟨"a.js::A", "A", .classKind, "a.js", 1, none⟩,
      ⟨"a.js::A::m", "A::m", .method, "a.js", 2, none⟩,
      ⟨"a.js::B", "B", .classKind, "a.js", 4, none⟩]
    extract "a.js" source = .ok es ∧ es.Pairwise fun e e' => e.line ≤ e'.line := by
  intro source es
  have h : extract "a.js" source = .ok es := by decide +kernel
  exact ⟨h, (lines_ascend_iff h).2.mpr (by decide)⟩

/-- A class inside a method starts above the next member of the class around it. -/
theorem nested_class_behind_member :
    let source := "class A \x7b\n  m() \x7b\n    class B \x7b\x7d\n  \x7d\n  n() \x7b\x7d\n\x7d"
    ∃ es, extract "a.js" source = .ok es ∧
      es.map (fun e => (e.qualifiedName, e.line)) = [("A", 1), ("A::m", 2), ("A::n", 5), ("B", 3)] ∧
      ¬ es.Pairwise fun e e' => e.line ≤ e'.line := by
  intro source
  refine ⟨[⟨"a.js::A", "A", .classKind, "a.js", 1, none⟩,
    ⟨"a.js::A::m", "A::m", .method, "a.js", 2, none⟩,
    ⟨"a.js::A::n", "A::n", .method, "a.js", 5, none⟩,
    ⟨"a.js::B", "B", .classKind, "a.js", 3, none⟩], ?_, rfl, by decide⟩
  decide +kernel

end Element

end DocAnnotations
