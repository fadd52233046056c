import DocAnnotations.Proofs.Extraction.Sites
import DocAnnotations.Proofs.Script.Grammar.Statements

/-! # How qualified names start -/

namespace DocAnnotations

def StartsNamed (text : String) : Prop :=
  ∃ name rest, Script.IsIdentifier name ∧ text = name ++ rest

theorem StartsNamed.append {text : String} (h : StartsNamed text) (more : String) :
    StartsNamed (text ++ more) := by
  obtain ⟨name, rest, hname, rfl⟩ := h
  exact ⟨name, rest ++ more, hname, String.append_assoc⟩

theorem StartsNamed.head?_ne_colon {text : String} (h : StartsNamed text) :
    text.toList.head? ≠ some ':' := by
  obtain ⟨name, rest, hname, rfl⟩ := h
  obtain ⟨c, hc, -⟩ := hname.start
  intro hcolon
  rw [String.toList_append, List.head?_append, hc, Option.some_or] at hcolon
  exact hname.colon_not_mem (List.mem_of_mem_head? (hc.trans hcolon))

theorem StartsNamed.numbered {name : String} (h : StartsNamed name) (n : Nat) :
    StartsNamed (numbered name n) := by
  unfold DocAnnotations.numbered
  split
  · exact h
  · exact (h.append _).append _

namespace Script

theorem Node.isIdentifier_of_namedClass? {n : Node} {name : String} {c : Class} (h : n.InOrder)
    (hc : n.namedClass? = some (name, c)) : IsIdentifier name := by
  unfold namedClass? at hc
  split at hc <;> cases hc
  · exact h.named rfl
  · exact h.named rfl
  · exact h.named rfl
  -- The name `default` is given, not read.
  · exact ⟨⟨'d', rfl, by decide⟩, List.all_eq_true.mp (by decide)⟩

theorem Member.name_of_finding? {className : String} {m : Member} {f : Finding}
    (h : m.finding? className = some f) : ∃ rest, f.name = className ++ rest := by
  cases m with
  | constructor start =>
    cases h
    exact ⟨_, String.append_assoc⟩
  | method start keyStart key | property start keyStart key =>
    obtain ⟨name, -, rfl⟩ := Option.map_eq_some_iff.mp h
    exact ⟨_, String.append_assoc⟩
  | accessor | nameless => cases h

theorem Class.startsNamed_of_mem_findings {keywords : List Mark} {name : String} {c : Class}
    (hname : IsIdentifier name) {f : Finding} (hf : f ∈ c.findings keywords name) :
    StartsNamed f.name := by
  rw [findings, List.mem_cons] at hf
  rcases hf with rfl | hf
  · exact ⟨name, "", hname, String.append_empty.symm⟩
  · obtain ⟨m, -, hm⟩ := List.mem_filterMap.mp hf
    obtain ⟨rest, hrest⟩ := m.name_of_finding? hm
    exact ⟨name, rest, hname, hrest⟩

theorem Module.startsNamed_findings {d : Dialect} {text : String} {m : Module}
    (h : ofSource? d text = some m) {f : Finding} (hf : f ∈ m.findings) : StartsNamed f.name := by
  have hout : f.outline ∈ m.findings.map Finding.outline := List.mem_map_of_mem hf
  rw [findings, outlines_searchNodes 0, List.mem_flatMap] at hout
  obtain ⟨p, hp, hout⟩ := hout
  have hp := inOrder_of_mem_placesFrom (inOrder_of_ofSource? h) hp
  rw [Node.outlines] at hout
  cases hc : p.2.namedClass? with
  | none => simp [hc] at hout
  | some named =>
    rw [hc, Option.map_some, Option.getD_some, List.mem_map] at hout
    obtain ⟨f', hf', heq⟩ := hout
    have hstarts := named.2.startsNamed_of_mem_findings (p.2.isIdentifier_of_namedClass? hp hc) hf'
    have hsame : f'.name = f.name := congrArg Outline.name heq
    rwa [← hsame]

end Script

namespace Element

variable {path source : String} {es : List Element} {e : Element}

theorem startsNamed_of_mem_extract (h : extract path source = .ok es) (he : e ∈ es) :
    StartsNamed e.qualifiedName := by
  obtain ⟨m, hm, rfl⟩ := extract_eq_ok_iff.mp h
  have hname : e.qualifiedName ∈ numberNames [] (m.findings.map (·.name)) := by
    rw [← qualifiedNames_ofFindings path]
    exact List.mem_map_of_mem he
  rw [numberNames_eq, List.mem_map] at hname
  obtain ⟨⟨name, n⟩, huse, heq⟩ := hname
  obtain ⟨f, hf, rfl⟩ := List.mem_map.mp (mem_of_mem_uses _ name n huse)
  rw [← heq]
  exact (Script.Module.startsNamed_findings hm hf).numbered n

end Element

end DocAnnotations
