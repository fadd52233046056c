import DocAnnotations.Proofs.Annotations.Groups
import Mathlib.Algebra.BigOperators.Group.List.Lemmas
import Mathlib.Algebra.GroupWithZero.Nat

/-! # From lines to annotations -/

namespace DocAnnotations

namespace Annotations

/-! ## Different names -/

theorem pairwise_idxOf_eraseDups (names : List String) :
    names.eraseDups.Pairwise fun m n => names.idxOf m < names.idxOf n := by
  induction names using List.reverseRecOn with
  | nil => exact List.Pairwise.nil
  | append_singleton names name ih =>
    have hplace : ∀ m ∈ names.eraseDups, (names ++ [name]).idxOf m = names.idxOf m :=
      fun m hm => List.idxOf_append_of_mem (List.mem_eraseDups.mp hm)
    have hold : names.eraseDups.Pairwise fun m n =>
        (names ++ [name]).idxOf m < (names ++ [name]).idxOf n := by
      apply ih.imp_of_mem
      intro m n hm hn hlt
      rwa [hplace m hm, hplace n hn]
    rw [eraseDups_snoc]
    split
    · simpa using hold
    · next hnew =>
      rw [List.pairwise_append]
      refine ⟨hold, List.pairwise_singleton _ _, ?_⟩
      intro m hm n hn
      rw [List.mem_singleton] at hn
      subst hn
      rw [hplace m hm, List.idxOf_append_of_notMem hnew, List.idxOf_cons_self, Nat.add_zero]
      exact List.idxOf_lt_length_of_mem (List.mem_eraseDups.mp hm)

theorem nodup_eraseDups (names : List String) : names.eraseDups.Nodup := by
  apply (pairwise_idxOf_eraseDups names).imp
  rintro m n hlt rfl
  exact Nat.lt_irrefl _ hlt

theorem eraseDups_perm_dedup (names : List String) : names.eraseDups.Perm names.dedup := by
  rw [List.perm_ext_iff_of_nodup (nodup_eraseDups names) names.nodup_dedup]
  simp [List.mem_eraseDups]

theorem sum_count_eraseDups (names : List String) :
    (names.eraseDups.map fun name => names.count name).sum = names.length := by
  rw [((eraseDups_perm_dedup names).map _).sum_eq, List.sum_map_count_dedup_eq_length]

/-! ## Values of names -/

theorem length_valuesOf (name : String) (named : List (String × Value)) :
    (valuesOf name named).length = (named.map (·.1)).count name := by
  rw [valuesOf, List.length_map, ← List.countP_eq_length_filter, List.count, List.countP_map]
  apply List.countP_congr
  simp

theorem sum_length_grouped (named : List (String × Value)) :
    ((grouped named).map (·.2.length)).sum = named.length := by
  have hlengths : (grouped named).map (·.2.length) =
      (named.map (·.1)).eraseDups.map fun name => (named.map (·.1)).count name := by
    simp only [grouped, List.map_map, Function.comp_def, length_valuesOf]
  rw [hlengths, sum_count_eraseDups, List.length_map]

theorem valuesOf_ne_nil_iff (name : String) (named : List (String × Value)) :
    valuesOf name named ≠ [] ↔ name ∈ named.map (·.1) := by
  rw [← List.length_pos_iff, length_valuesOf, List.count_pos_iff]

theorem contains_ofList (named : List (String × Value)) (q : String) :
    (ofList named).contains q = true ↔ (ofList named).all q ≠ [] := by
  have hnone := (consistent_ofList named).index_eq_none_iff _ (normalizeName q)
  rw [names_ofList, List.mem_eraseDups] at hnone
  rw [all_ofList, valuesOf_ne_nil_iff, contains, Std.TreeMap.contains_eq_isSome_getElem?,
    Option.isSome_iff_ne_none, ne_eq, hnone, not_not]

/-! ## Names of lines -/

theorem head_of_ofBare? (cs : List Char) (line : Comment.Line)
    (h : Comment.Line.ofBare? cs = some line) : line.name.toList.head? = some '@' := by
  unfold Comment.Line.ofBare? at h
  split at h
  · next hat =>
    obtain ⟨rest, rfl⟩ : ∃ rest, cs = '@' :: rest := by
      cases cs <;> simp_all
    split at h
    all_goals
      next hspan =>
      rw [List.span_eq_takeWhile_dropWhile, Prod.mk.injEq] at hspan
      simp only [Option.some.injEq] at h
      subst h
      simp [← hspan.1]
  · simp at h

theorem normalizeName_of_mem_scan (comment : String) (line : Comment.Line)
    (h : line ∈ Comment.scan comment) : normalizeName line.name = line.name := by
  obtain ⟨cs, -, hline⟩ := List.mem_filterMap.mp h
  exact if_pos (head_of_ofBare? _ line hline)

/-! ## The whole comment -/

theorem map_fst_namedOf (lines : List Comment.Line) :
    (namedOf lines).map (·.1) = lines.map (·.name) := by
  simp [namedOf, Function.comp_def]

theorem valuesOf_namedOf (name : String) (lines : List Comment.Line) :
    valuesOf name (namedOf lines) =
      (lines.filter (·.name = name)).map fun line => Coercion.coerce line.text := by
  simp [valuesOf, namedOf, List.filter_map, Function.comp_def]

theorem names_parse (comment : String) :
    (parse comment).names = ((Comment.scan comment).map (·.name)).eraseDups := by
  rw [parse_eq_ofList, names_ofList, map_fst_namedOf]

theorem all_parse (comment q : String) :
    (parse comment).all q = ((Comment.scan comment).filter (·.name = normalizeName q)).map
      fun line => Coercion.coerce line.text := by
  rw [parse_eq_ofList, all_ofList, valuesOf_namedOf]

theorem mem_toList_parse (comment : String) (e : String × List Value)
    (h : e ∈ (parse comment).toList) : e.2 ≠ [] ∧ e.2 = (parse comment).all e.1 := by
  rw [parse_eq_ofList, toList_ofList, grouped] at h
  obtain ⟨name, hname, rfl⟩ := List.mem_map.mp h
  rw [List.mem_eraseDups] at hname
  refine ⟨(valuesOf_ne_nil_iff _ _).mpr hname, ?_⟩
  rw [map_fst_namedOf] at hname
  obtain ⟨line, hline, rfl⟩ := List.mem_map.mp hname
  rw [parse_eq_ofList, all_ofList, normalizeName_of_mem_scan comment line hline]

/-- A lookup gives the values of the lines with that name, in order. The names are those of the
lines, each once and where it comes first, none without values; and there are as many values as
lines. -/
theorem parse_aggregates (comment q : String) :
    (parse comment).all q = ((Comment.scan comment).filter (·.name = normalizeName q)).map
      (fun line => Coercion.coerce line.text) ∧
    (parse comment).first? q = ((parse comment).all q).head? ∧
    ((parse comment).contains q = true ↔ (parse comment).all q ≠ []) ∧
    (∀ name, name ∈ (parse comment).names ↔ ∃ line ∈ Comment.scan comment, line.name = name) ∧
    (parse comment).names.Nodup ∧
    (parse comment).names.Pairwise (fun m n =>
      ((Comment.scan comment).map (·.name)).idxOf m <
        ((Comment.scan comment).map (·.name)).idxOf n) ∧
    (parse comment).toList.map (·.1) = (parse comment).names ∧
    (∀ e ∈ (parse comment).toList, e.2 ≠ [] ∧ e.2 = (parse comment).all e.1) ∧
    ((parse comment).toList.map (·.2.length)).sum = (Comment.scan comment).length := by
  refine ⟨all_parse comment q, rfl, ?_, ?_, ?_, ?_, (names_eq _).symm, mem_toList_parse comment, ?_⟩
  · simp only [parse_eq_ofList, contains_ofList]
  · intro name
    simp [names_parse, List.mem_eraseDups]
  · rw [names_parse]
    exact nodup_eraseDups _
  · rw [names_parse]
    exact pairwise_idxOf_eraseDups _
  · simp only [parse_eq_ofList, toList_ofList, sum_length_grouped, namedOf, List.length_map]

end Annotations

end DocAnnotations
