import DocAnnotations.Comment.Line
import DocAnnotations.Proofs.Text.Cut

/-! # How a line is scanned -/

namespace DocAnnotations.Comment

theorem span_name (name rest : List Char) (hspace : ' ' ∉ name)
    (hrest : ∀ c, rest.head? = some c → c = ' ') :
    (name ++ rest).span (· ≠ ' ') = (name, rest) := by
  apply Text.span_append
  · intro c hc
    simp only [ne_eq, decide_not, Bool.not_eq_true', decide_eq_false_iff_not]
    rintro rfl
    exact hspace hc
  · intro c hc
    simp [hrest c hc]

theorem ofBare?_present (name : List Char) (hat : name.head? = some '@') (hspace : ' ' ∉ name) :
    Line.ofBare? name = some ⟨String.ofList name, none⟩ := by
  have hspan := span_name name [] hspace (by simp)
  rw [List.append_nil] at hspan
  rw [Line.ofBare?, if_pos hat, hspan]

theorem ofBare?_text (name text : List Char) (hat : name.head? = some '@') (hspace : ' ' ∉ name) :
    Line.ofBare? (name ++ ' ' :: text) =
      some ⟨String.ofList name, some (String.ofList (Text.trimBlank text))⟩ := by
  have hspan := span_name name (' ' :: text) hspace (by simp)
  have hhead : (name ++ ' ' :: text).head? = some '@' := by simp [List.head?_append, hat]
  rw [Line.ofBare?, if_pos hhead, hspan]

/-! ## Line by line -/

theorem ofChars?_padded (before line after : List Char)
    (hbefore : ∀ c ∈ before, isDecoration c = true) (hafter : ∀ c ∈ after, isDecoration c = true) :
    Line.ofChars? (before ++ (line ++ after)) = Line.ofChars? line := by
  rw [Line.ofChars?, Line.ofChars?, Text.trimBoth_padded before line after hbefore hafter]

theorem scan_last (cs : List Char) (h : '\n' ∉ cs) :
    scan (String.ofList cs) = (Line.ofChars? cs).toList := by
  have hnil : Line.ofChars? [] = none := rfl
  rw [scan, String.toList_ofList, Text.lines_of_not_mem cs h]
  split
  · next hcs => simp [hcs, hnil]
  · cases hline : Line.ofChars? cs <;> simp [hline]

theorem scan_line (line rest : List Char) (h : '\n' ∉ line) :
    scan (String.ofList (line ++ '\n' :: rest)) =
      (Line.ofChars? (Text.dropReturn line)).toList ++ scan (String.ofList rest) := by
  rw [scan, scan, String.toList_ofList, String.toList_ofList, Text.lines_cons line rest h]
  cases hline : Line.ofChars? (Text.dropReturn line) <;> simp [hline]

theorem scan_lines (lines : List (List Char)) (rest : List Char) (h : ∀ line ∈ lines, '\n' ∉ line) :
    scan (String.ofList (lines.flatMap (· ++ ['\n']) ++ rest)) =
      lines.filterMap (fun line => Line.ofChars? (Text.dropReturn line)) ++
        scan (String.ofList rest) := by
  induction lines with
  | nil => rfl
  | cons line lines ih =>
    obtain ⟨hline, hlines⟩ := List.forall_mem_cons.mp h
    rw [List.flatMap_cons, List.append_assoc, List.append_assoc, List.singleton_append,
      scan_line line _ hline, ih hlines]
    cases hread : Line.ofChars? (Text.dropReturn line) <;> simp [hread]

theorem scan_feed (cs rest : List Char) (h : cs.getLast? ≠ some '\r') :
    scan (String.ofList (cs ++ '\n' :: rest)) =
      scan (String.ofList cs) ++ scan (String.ofList rest) := by
  induction cs using Text.induction_lines with
  | last cs hline =>
    rw [scan_line cs rest hline, (Text.dropReturn_eq_self_iff cs).mpr h, scan_last cs hline]
  | line line cs hline ih =>
    have hlast : cs.getLast? ≠ some '\r' := by
      intro hreturn
      apply h
      rw [List.getLast?_append, List.getLast?_cons, hreturn]
      rfl
    rw [List.append_assoc, List.cons_append, scan_line line _ hline, scan_line line cs hline,
      ih hlast, List.append_assoc]

theorem scan_append (a b : String) (h : a.toList.getLast? ≠ some '\r') :
    scan (a ++ "\n" ++ b) = scan a ++ scan b := by
  have htext : a ++ "\n" ++ b = String.ofList (a.toList ++ '\n' :: b.toList) := by
    rw [String.ext_iff]
    simp
  rw [htext, scan_feed a.toList b.toList h, String.ofList_toList, String.ofList_toList]

end DocAnnotations.Comment
