import DocAnnotations.Proofs.Annotations.Groups
import DocAnnotations.Proofs.Coercion.Written
import DocAnnotations.Proofs.Comment.Scan

/-! # Annotations written and read back -/

namespace DocAnnotations.Comment

open Json (isEnd writeValue)

/-- An annotation to be written; one without a value is only present. -/
structure Note where
  name : String
  value : Option Value

namespace Note

/-- What the annotation says. -/
def meaning (n : Note) : Value := n.value.getD (.bool true)

/-- Its line in a comment, without the line feed. -/
def line (n : Note) : List Char :=
  ' ' :: '*' :: ' ' :: (n.name.toList ++ (n.value.map fun v => ' ' :: writeValue v).getD [])

/-- What a name and a value have to be like so that a line can hold them. -/
structure Writable (n : Note) : Prop where
  marked : n.name.toList.head? = some '@'
  unbroken : ∀ c ∈ n.name.toList, c ≠ ' ' ∧ c ≠ '\n' ∧ c ≠ '\r'
  bareEnd : n.value = none →
    ∀ c, n.name.toList.getLast? = some c → c ≠ '\t' ∧ c ≠ '*' ∧ c ≠ '/'
  readable : ∀ v, n.value = some v → v.FloatFree ∧ v.KeysDistinct ∧ v.depth ≤ 127

end Note

/-- The first line of a comment. -/
def opening : List Char := ['/', '*', '*']

/-- Its last line. -/
def closing : List Char := [' ', '*', '/']

/-- A comment with each note on a line of its own between the first and the last. -/
def write (notes : List Note) : String :=
  String.ofList (opening ++ '\n' :: ((notes.flatMap fun n => n.line ++ ['\n']) ++ closing))

/-! ## One line -/

theorem isDecoration_of_isEnd (c : Char) (h : isEnd c = true) : isDecoration c = false := by
  by_contra hdeco
  simp only [isDecoration, Bool.not_eq_false, Bool.or_eq_true, beq_iff_eq] at hdeco
  rcases hdeco with (((rfl | rfl) | rfl) | rfl) | rfl <;> exact absurd h (by decide)

theorem ofChars?_decorated (cs : List Char) (hat : cs.head? = some '@')
    (hlast : ∀ c, cs.getLast? = some c → isDecoration c = false) :
    Line.ofChars? (' ' :: '*' :: ' ' :: cs) = Line.ofBare? cs := by
  have hfirst : ∀ c, cs.head? = some c → isDecoration c = false := by
    intro c hc
    rw [hat, Option.some.injEq] at hc
    subst c
    rfl
  -- The three characters in front are decoration, and the ends of the others are none.
  rw [Line.ofChars?, Text.trimBoth_cons _ _ rfl, Text.trimBoth_cons _ _ rfl,
    Text.trimBoth_cons _ _ rfl, Text.trimBoth_of_ends cs hfirst hlast]

theorem ofChars?_line (n : Note) (h : n.Writable) :
    Line.ofChars? n.line = some ⟨n.name, n.value.map Json.write⟩ := by
  have hspace : ' ' ∉ n.name.toList := fun hmem => (h.unbroken _ hmem).1 rfl
  cases hv : n.value with
  | none =>
    have hlast : ∀ c, n.name.toList.getLast? = some c → isDecoration c = false := by
      intro c hc
      obtain ⟨htab, hstar, hslash⟩ := h.bareEnd hv c hc
      obtain ⟨hblank, hfeed, -⟩ := h.unbroken c (List.mem_of_getLast? hc)
      simp [isDecoration, htab, hstar, hslash, hblank, hfeed]
    rw [Note.line, hv, Option.map_none, Option.getD_none, List.append_nil,
      ofChars?_decorated n.name.toList h.marked hlast,
      ofBare?_present n.name.toList h.marked hspace]
    simp
  | some v =>
    obtain ⟨hf, hk, -⟩ := h.readable v hv
    have hspells := Json.spells_self v hf hk
    have htrim : Text.trimBlank (writeValue v) = writeValue v := by
      simpa using Json.trimBlank_padded Json.spaces_nil Json.spaces_nil hspells
    have hhead : (n.name.toList ++ ' ' :: writeValue v).head? = some '@' := by
      simp [List.head?_append, h.marked]
    have hlast : ∀ c, (n.name.toList ++ ' ' :: writeValue v).getLast? = some c →
        isDecoration c = false := by
      intro c hc
      obtain ⟨d, ds, hd, -⟩ := hspells.head
      apply isDecoration_of_isEnd c
      apply hspells.last c
      rw [hd] at hc ⊢
      simpa using hc
    rw [Note.line, hv, Option.map_some, Option.getD_some, ofChars?_decorated _ hhead hlast,
      ofBare?_text n.name.toList _ h.marked hspace, htrim]
    simp [Json.write]

theorem line_unbroken (n : Note) (h : n.Writable) : '\n' ∉ n.line ∧ '\r' ∉ n.line := by
  have hname : ∀ c ∈ n.name.toList, c ≠ '\n' ∧ c ≠ '\r' := fun c hc => (h.unbroken c hc).2
  have hvalue : ∀ v, n.value = some v → ∀ c ∈ writeValue v, c ≠ '\n' ∧ c ≠ '\r' := by
    intro v hv c hc
    obtain ⟨hf, hk, -⟩ := h.readable v hv
    have := Json.writeValue_visible v (Json.exact_parts v hf hk) c hc
    constructor
    · rintro rfl
      exact absurd this (by decide)
    · rintro rfl
      exact absurd this (by decide)
  have hline : ∀ c ∈ n.line, c ≠ '\n' ∧ c ≠ '\r' := by
    intro c hc
    simp only [Note.line, List.mem_cons, List.mem_append] at hc
    rcases hc with rfl | rfl | rfl | hc | hc
    · decide
    · decide
    · decide
    · exact hname c hc
    · cases hv : n.value with
      | none => simp [hv] at hc
      | some v =>
        simp only [hv, Option.map_some, Option.getD_some, List.mem_cons] at hc
        rcases hc with rfl | hc
        · decide
        · exact hvalue v hv c hc
  exact ⟨fun hc => (hline _ hc).1 rfl, fun hc => (hline _ hc).2 rfl⟩

/-! ## The whole comment -/

theorem scan_write (notes : List Note) (h : ∀ n ∈ notes, n.Writable) :
    scan (write notes) = notes.map fun n => ⟨n.name, n.value.map Json.write⟩ := by
  have hopen : Line.ofChars? (Text.dropReturn opening) = none := by decide
  have hclose : scan (String.ofList closing) = [] := by decide
  have hlines := scan_lines (notes.map Note.line) closing (by
    intro line hline
    obtain ⟨n, hn, rfl⟩ := List.mem_map.mp hline
    exact (line_unbroken n (h n hn)).1)
  have hread : (notes.filterMap fun n => Line.ofChars? (Text.dropReturn n.line)) =
      notes.map fun n => ⟨n.name, n.value.map Json.write⟩ := by
    rw [← List.filterMap_eq_map]
    apply List.filterMap_congr
    intro n hn
    rw [Text.dropReturn_of_not_mem _ (line_unbroken n (h n hn)).2]
    exact ofChars?_line n (h n hn)
  rw [List.flatMap_map, List.filterMap_map, Function.comp_def, hread, hclose, List.append_nil]
    at hlines
  rw [write, scan_line opening _ (by decide), hopen, Option.toList_none, List.nil_append, hlines]

theorem namedOf_notes (notes : List Note) (h : ∀ n ∈ notes, n.Writable) :
    Annotations.namedOf (notes.map fun n => ⟨n.name, n.value.map Json.write⟩) =
      notes.map fun n => (n.name, n.meaning) := by
  rw [Annotations.namedOf, List.map_map]
  apply List.map_congr_left
  intro n hn
  cases hv : n.value with
  | none => simp [Note.meaning, hv, Coercion.coerce]
  | some v =>
    obtain ⟨hf, hk, hd⟩ := (h n hn).readable v hv
    simp [Note.meaning, hv, Coercion.coerce_write v hf hk hd]

theorem valuesOf_notes (notes : List Note) (name : String) :
    Annotations.valuesOf name (notes.map fun n => (n.name, n.meaning)) =
      (notes.filter (·.name = name)).map Note.meaning := by
  simp [Annotations.valuesOf, List.filter_map, Function.comp_def]

/-- Writing notes into a comment and reading the comment gives the notes back. -/
theorem parse_write (notes : List Note) (h : ∀ n ∈ notes, n.Writable) :
    (Annotations.parse (write notes)).names = (notes.map (·.name)).eraseDups ∧
    (Annotations.parse (write notes)).toList = (notes.map (·.name)).eraseDups.map (fun name =>
      (name, (notes.filter (·.name = name)).map Note.meaning)) ∧
    ∀ name, (Annotations.parse (write notes)).all name =
      (notes.filter (·.name = normalizeName name)).map Note.meaning := by
  have hnames : (notes.map fun n => (n.name, n.meaning)).map (·.1) = notes.map (·.name) := by
    simp [Function.comp_def]
  rw [Annotations.parse_eq_ofList, scan_write notes h, namedOf_notes notes h]
  refine ⟨?_, ?_, ?_⟩
  · rw [Annotations.names_ofList, hnames]
  · rw [Annotations.toList_ofList, Annotations.grouped, hnames]
    simp only [valuesOf_notes]
  · intro name
    rw [Annotations.all_ofList, valuesOf_notes]

theorem parse_write_three :
    let notes : List Note := [
      ⟨"@A", some (.list [.int (-7), .text "*/\n\"@B\"", .map [("k", .null), ("", .list [])]])⟩,
      ⟨"@B/x", none⟩, ⟨"@A", some .null⟩]
    (∀ n ∈ notes, n.Writable) ∧
    (Annotations.parse (write notes)).names = ["@A", "@B/x"] ∧
    (Annotations.parse (write notes)).all "A" =
      [.list [.int (-7), .text "*/\n\"@B\"", .map [("k", .null), ("", .list [])]], .null] := by
  intro notes
  have h : ∀ n ∈ notes, n.Writable := by
    intro n hn
    simp only [notes, List.mem_cons, List.not_mem_nil, or_false] at hn
    rcases hn with rfl | rfl | rfl
    all_goals refine ⟨by decide, by simp, ?_, ?_⟩
    all_goals simp [Value.FloatFree, Value.KeysDistinct, Value.parts, Value.itemParts,
      Value.entryParts, Value.depth, Value.itemDepth, Value.entryDepth]
  obtain ⟨hnames, -, hall⟩ := parse_write notes h
  refine ⟨h, hnames.trans (by decide), (hall "A").trans ?_⟩
  simp [notes, normalizeName, Note.meaning]

end DocAnnotations.Comment
