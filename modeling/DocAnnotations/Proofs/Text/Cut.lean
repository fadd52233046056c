import DocAnnotations.Text.Blank
import DocAnnotations.Text.Lines
import Mathlib.Data.List.TakeDrop
import Mathlib.Data.List.TakeWhile

/-! # Cutting a text -/

namespace DocAnnotations.Text

/-! ## Lines -/

theorem splitFeeds_ne_nil (cs : List Char) : splitFeeds cs ≠ [] := by
  cases cs with
  | nil => simp [splitFeeds]
  | cons c rest =>
    rw [splitFeeds]
    split
    · simp
    · split <;> simp

theorem splitFeeds_line (line rest : List Char) (h : '\n' ∉ line) :
    splitFeeds (line ++ '\n' :: rest) = line :: splitFeeds rest := by
  induction line with
  | nil => simp [splitFeeds]
  | cons c line ih =>
    simp only [List.mem_cons, not_or] at h
    simp [splitFeeds, Ne.symm h.1, ih h.2]

theorem lines_cons (line rest : List Char) (h : '\n' ∉ line) :
    lines (line ++ '\n' :: rest) = dropReturn line :: lines rest := by
  obtain ⟨piece, pieces, hp⟩ := List.exists_cons_of_ne_nil (splitFeeds_ne_nil rest)
  rw [lines, lines, splitFeeds_line line rest h, hp, closeLines]
  simp

theorem splitFeeds_of_not_mem (cs : List Char) (h : '\n' ∉ cs) : splitFeeds cs = [cs] := by
  induction cs with
  | nil => rfl
  | cons c cs ih =>
    simp only [List.mem_cons, not_or] at h
    simp [splitFeeds, Ne.symm h.1, ih h.2]

theorem lines_of_not_mem (cs : List Char) (h : '\n' ∉ cs) :
    lines cs = if cs = [] then [] else [cs] := by
  rw [lines, splitFeeds_of_not_mem cs h, closeLines]

/-- A text is its last line, or a line with its line feed and a text behind it. -/
@[elab_as_elim]
theorem induction_lines {motive : List Char → Prop} (last : ∀ cs, '\n' ∉ cs → motive cs)
    (line : ∀ line rest, '\n' ∉ line → motive rest → motive (line ++ '\n' :: rest))
    (cs : List Char) : motive cs := by
  by_cases h : '\n' ∈ cs
  · obtain ⟨first, rest, rfl, hfirst⟩ := List.eq_append_cons_of_mem h
    have hshorter : rest.length < (first ++ '\n' :: rest).length := by
      simp only [List.length_append, List.length_cons]
      omega
    exact line first rest hfirst (induction_lines last line rest)
  · exact last cs h
termination_by cs.length

theorem dropReturn_of_not_mem (line : List Char) (h : '\r' ∉ line) : dropReturn line = line := by
  rw [dropReturn, if_neg]
  intro hlast
  exact h (List.mem_of_getLast? hlast)

theorem dropReturn_append (before line : List Char) (h : '\r' ∉ before) :
    dropReturn (before ++ line) = before ++ dropReturn line := by
  rcases List.eq_nil_or_concat line with rfl | ⟨front, c, rfl⟩
  · have hnil : dropReturn [] = [] := rfl
    rw [hnil, List.append_nil, dropReturn_of_not_mem before h]
  · rw [List.concat_eq_append, ← List.append_assoc, dropReturn, dropReturn, List.getLast?_concat,
      List.getLast?_concat, List.dropLast_concat, List.dropLast_concat]
    split
    · rfl
    · rw [List.append_assoc]

theorem dropReturn_sublist (line : List Char) : (dropReturn line).Sublist line := by
  rw [dropReturn]
  split
  · exact List.dropLast_sublist line
  · exact List.Sublist.refl line

theorem not_mem_of_mem_lines {cs line : List Char} (h : line ∈ lines cs) : '\n' ∉ line := by
  induction cs using induction_lines with
  | last cs hcs =>
    rw [lines_of_not_mem cs hcs] at h
    split at h
    · exact absurd h List.not_mem_nil
    · rwa [List.mem_singleton.mp h]
  | line first rest hfirst ih =>
    rw [lines_cons first rest hfirst, List.mem_cons] at h
    rcases h with rfl | h
    · exact fun hc => hfirst ((dropReturn_sublist first).subset hc)
    · exact ih h

theorem dropReturn_eq_self_iff (line : List Char) :
    dropReturn line = line ↔ line.getLast? ≠ some '\r' := by
  constructor
  · intro h hlast
    obtain ⟨front, rfl⟩ := List.getLast?_eq_some_iff.mp hlast
    simp [dropReturn] at h
  · intro h
    rw [dropReturn, if_neg h]

/-! ## Trimming -/

variable {p : Char → Bool}

theorem trimBoth_cons (c : Char) (cs : List Char) (h : p c = true) :
    trimBoth p (c :: cs) = trimBoth p cs := by
  simp [trimBoth, h]

theorem dropWhile_of_head (cs : List Char) (h : ∀ c, cs.head? = some c → p c = false) :
    cs.dropWhile p = cs := by
  cases cs with
  | nil => rfl
  | cons c cs => simp [h c rfl]

theorem trimBoth_of_ends (cs : List Char) (hfirst : ∀ c, cs.head? = some c → p c = false)
    (hlast : ∀ c, cs.getLast? = some c → p c = false) : trimBoth p cs = cs := by
  rw [trimBoth, dropWhile_of_head cs hfirst, dropWhile_of_head cs.reverse, List.reverse_reverse]
  intro c hc
  exact hlast c (by simpa using hc)

theorem trimBoth_padded (before cs after : List Char) (hbefore : ∀ c ∈ before, p c = true)
    (hafter : ∀ c ∈ after, p c = true) :
    trimBoth p (before ++ (cs ++ after)) = trimBoth p cs := by
  have hback : ∀ ds : List Char, (ds ++ after).reverse.dropWhile p = ds.reverse.dropWhile p := by
    intro ds
    rw [List.reverse_append]
    apply List.dropWhile_append_of_pos
    intro c hc
    exact hafter c (List.mem_reverse.mp hc)
  rw [trimBoth, trimBoth, List.dropWhile_append_of_pos hbefore, List.dropWhile_append]
  split
  · next hempty =>
    rw [List.isEmpty_iff.mp hempty, List.dropWhile_eq_nil_iff.mpr hafter]
  · rw [hback]

theorem exists_trimmed (p : Char → Bool) (cs : List Char) :
    ∃ before after, (∀ c ∈ before, p c = true) ∧ (∀ c ∈ after, p c = true) ∧
      cs.dropWhile p = trimBoth p cs ++ after ∧ cs = before ++ (trimBoth p cs ++ after) := by
  have hback : cs.dropWhile p =
      trimBoth p cs ++ ((cs.dropWhile p).reverse.takeWhile p).reverse := by
    rw [trimBoth, ← List.reverse_append, List.takeWhile_append_dropWhile, List.reverse_reverse]
  refine ⟨cs.takeWhile p, _, fun _ hc => List.mem_takeWhile_imp hc, ?_, hback, ?_⟩
  · intro c hc
    exact List.mem_takeWhile_imp (List.mem_reverse.mp hc)
  · rw [← hback, List.takeWhile_append_dropWhile]

theorem trimBoth_sublist (p : Char → Bool) (cs : List Char) : (trimBoth p cs).Sublist cs := by
  obtain ⟨before, after, -, -, -, h⟩ := exists_trimmed p cs
  have hback : (trimBoth p cs).Sublist (trimBoth p cs ++ after) := List.sublist_append_left _ _
  have hfront : (trimBoth p cs).Sublist (before ++ (trimBoth p cs ++ after)) :=
    hback.trans (List.sublist_append_right _ _)
  rwa [← h] at hfront

theorem trimBoth_concat (cs : List Char) (c : Char) (h : p c = false) :
    trimBoth p (cs ++ [c]) = cs.dropWhile p ++ [c] := by
  have hfront : (cs ++ [c]).dropWhile p = cs.dropWhile p ++ [c] := by
    rw [List.dropWhile_append]
    split
    · next hempty => simp [h, List.isEmpty_iff.mp hempty]
    · rfl
  rw [trimBoth, hfront, List.reverse_append, List.reverse_singleton, List.singleton_append,
    dropWhile_of_head (c :: (cs.dropWhile p).reverse) (by simpa using h), List.reverse_cons,
    List.reverse_reverse]

theorem head?_dropWhile_eq_some {cs : List Char} {c : Char} (h : (cs.dropWhile p).head? = some c) :
    p c = false := by
  have hnot := List.head?_dropWhile_not p cs
  rw [h] at hnot
  simpa using hnot

theorem head_trimBoth {cs : List Char} {c : Char} (h : (trimBoth p cs).head? = some c) :
    p c = false := by
  obtain ⟨before, after, -, -, hdrop, -⟩ := exists_trimmed p cs
  apply head?_dropWhile_eq_some
  rw [hdrop, List.head?_append, h, Option.some_or]

theorem last_trimBoth {cs : List Char} {c : Char} (h : (trimBoth p cs).getLast? = some c) :
    p c = false := by
  rw [trimBoth, List.getLast?_reverse] at h
  exact head?_dropWhile_eq_some h

/-! ## Runs -/

theorem span_append (run rest : List Char) (hrun : ∀ c ∈ run, p c = true)
    (hrest : ∀ c, rest.head? = some c → p c = false) : (run ++ rest).span p = (run, rest) := by
  have hstop : rest.takeWhile p = [] := by
    cases rest with
    | nil => rfl
    | cons c cs => simp [hrest c rfl]
  rw [List.span_eq_takeWhile_dropWhile, List.takeWhile_append_of_pos hrun,
    List.dropWhile_append_of_pos hrun, hstop, dropWhile_of_head rest hrest, List.append_nil]

end DocAnnotations.Text
