import DocAnnotations.Proofs.Comment.Scan
import Mathlib.Data.List.Basic

/-!
# A comment scanned twice

A second scan finds the lines as they are, unless a line of the comment ended in a
blank: with that gone, a text can end in decoration, or be empty.
-/

namespace DocAnnotations.Comment

theorem isDecoration_eq_false_iff {c : Char} (h : Text.isBlank c = false) :
    isDecoration c = false ↔ c ≠ '*' ∧ c ≠ '/' := by
  have hblank : ∀ d : Char, Text.isBlank d = true → c ≠ d := by
    rintro d hd rfl
    simp [hd] at h
  simp [isDecoration, hblank '\t' rfl, hblank '\n' rfl, hblank ' ' rfl]

namespace Line

/-- The line as it is written. -/
def toChars (l : Line) : List Char :=
  l.name.toList ++ (l.text.map fun t => ' ' :: t.toList).getD []

/-- What every scanned line is like. -/
structure Scanned (l : Line) : Prop where
  marked : l.name.toList.head? = some '@'
  unspaced : ' ' ∉ l.name.toList
  unbroken : '\n' ∉ l.toChars
  bareEnd : l.text = none → ∀ c, l.name.toList.getLast? = some c → isDecoration c = false
  trimmed : ∀ t, l.text = some t →
    ∀ c, t.toList.head? = some c ∨ t.toList.getLast? = some c → Text.isBlank c = false

/-- Nothing at the end of the written line is taken for something else. -/
structure Settled (l : Line) : Prop where
  name : l.text = none → l.name.toList.getLast? ≠ some '\r'
  text : ∀ t, l.text = some t → t ≠ "" ∧ ∀ c, t.toList.getLast? = some c → c ≠ '*' ∧ c ≠ '/'

/-! ## What is scanned -/

theorem ofBare?_eq_some {cs : List Char} {l : Line} (h : ofBare? cs = some l) :
    l.name.toList.head? = some '@' ∧ ' ' ∉ l.name.toList ∧
      ((l.text = none ∧ cs = l.name.toList) ∨
        ∃ text, l.text = some (String.ofList (Text.trimBlank text)) ∧
          cs = l.name.toList ++ ' ' :: text) := by
  have hat : cs.head? = some '@' := by
    by_contra hne
    rw [ofBare?, if_neg hne] at h
    cases h
  by_cases hspace : ' ' ∈ cs
  · obtain ⟨name, text, rfl, hname⟩ := List.eq_append_cons_of_mem hspace
    have hmarked : name.head? = some '@' := by
      cases name with
      | nil => simp at hat
      | cons c name => simpa using hat
    rw [ofBare?_text name text hmarked hname, Option.some.injEq] at h
    subst l
    simp only [String.toList_ofList]
    exact ⟨hmarked, hname, .inr ⟨text, rfl, rfl⟩⟩
  · rw [ofBare?_present cs hat hspace, Option.some.injEq] at h
    subst l
    simp [hat, hspace]

theorem toChars_sublist {cs : List Char} {l : Line} (h : ofBare? cs = some l) :
    l.toChars.Sublist cs := by
  obtain ⟨-, -, ⟨htext, hcs⟩ | ⟨text, htext, hcs⟩⟩ := ofBare?_eq_some h
  · rw [toChars, htext, hcs]
    simp
  · have htrim : (Text.trimBlank text).Sublist text := Text.trimBoth_sublist Text.isBlank text
    rw [toChars, htext, hcs]
    simpa using htrim

theorem scanned_of_ofChars? {cs : List Char} {l : Line} (hcs : '\n' ∉ cs)
    (h : ofChars? cs = some l) : l.Scanned := by
  have hsub : l.toChars.Sublist cs :=
    (toChars_sublist h).trans (Text.trimBoth_sublist isDecoration cs)
  obtain ⟨hmarked, hunspaced, hrest⟩ := ofBare?_eq_some h
  refine ⟨hmarked, hunspaced, fun hc => hcs (hsub.subset hc), ?_, ?_⟩
  · intro hnone c hc
    obtain ⟨-, hbare⟩ | ⟨text, hsome, -⟩ := hrest
    · exact Text.last_trimBoth (by rw [hbare]; exact hc)
    · simp [hnone] at hsome
  · intro t ht c hc
    obtain ⟨hnone, -⟩ | ⟨text, hsome, -⟩ := hrest
    · simp [hnone] at ht
    · obtain rfl : t = String.ofList (Text.trimBlank text) := by simpa [ht] using hsome
      rw [String.toList_ofList] at hc
      rcases hc with hc | hc
      · exact Text.head_trimBoth hc
      · exact Text.last_trimBoth hc

theorem scanned_of_mem {comment : String} {l : Line} (h : l ∈ scan comment) : l.Scanned := by
  obtain ⟨cs, hcs, hl⟩ := List.mem_filterMap.mp h
  exact scanned_of_ofChars? (Text.not_mem_of_mem_lines hcs) hl

/-! ## What is scanned again -/

theorem Scanned.ofBare?_toChars {l : Line} (h : l.Scanned) : ofBare? l.toChars = some l := by
  obtain ⟨name, text⟩ := l
  cases text with
  | none =>
    have hbare := ofBare?_present name.toList h.marked h.unspaced
    simpa [toChars] using hbare
  | some t =>
    have htrim : Text.trimBlank t.toList = t.toList :=
      Text.trimBoth_of_ends t.toList (fun c hc => h.trimmed t rfl c (.inl hc))
        fun c hc => h.trimmed t rfl c (.inr hc)
    have hbare := ofBare?_text name.toList t.toList h.marked h.unspaced
    rw [htrim] at hbare
    simpa [toChars] using hbare

theorem text_settled_iff (t : String)
    (h : ∀ c, t.toList.getLast? = some c → Text.isBlank c = false) :
    (t ≠ "" ∧ ∀ c, t.toList.getLast? = some c → c ≠ '*' ∧ c ≠ '/') ↔
      ∀ c, (' ' :: t.toList).getLast? = some c → isDecoration c = false ∧ c ≠ '\r' := by
  rw [List.getLast?_cons]
  -- Without a text, the space behind the name is decoration.
  rcases List.eq_nil_or_concat t.toList with ht | ⟨front, d, ht⟩
  · have hempty : t = "" := String.toList_eq_nil_iff.mp ht
    constructor
    · intro hs
      exact absurd hempty hs.1
    · intro hend
      exact absurd (hend ' ' (by simp [ht])).1 (by decide)
  · have hlast : t.toList.getLast? = some d := by simp [ht]
    have hblank : Text.isBlank d = false := h d hlast
    have hreturn : d ≠ '\r' := by
      rintro rfl
      exact absurd hblank (by decide)
    have hne : t ≠ "" := by
      rintro rfl
      simp at hlast
    have hend := isDecoration_eq_false_iff hblank
    simp [hlast, hne, hend, hreturn]

theorem Scanned.settled_iff {l : Line} (h : l.Scanned) :
    l.Settled ↔ ∀ c, l.toChars.getLast? = some c → isDecoration c = false ∧ c ≠ '\r' := by
  obtain ⟨name, text⟩ := l
  cases text with
  | none =>
    have hline : toChars ⟨name, none⟩ = name.toList := by simp [toChars]
    rw [hline]
    constructor
    · intro hs c hc
      refine ⟨h.bareEnd rfl c hc, ?_⟩
      rintro rfl
      exact hs.name rfl hc
    · intro hlast
      exact ⟨fun _ hc => (hlast _ hc).2 rfl, by simp⟩
  | some t =>
    have hline : (toChars ⟨name, some t⟩).getLast? = (' ' :: t.toList).getLast? := by
      simp [toChars, List.getLast?_append, List.getLast?_cons]
    rw [hline, ← text_settled_iff t fun c hc => h.trimmed t rfl c (.inr hc)]
    constructor
    · intro hs
      exact hs.text t rfl
    · intro ht
      refine ⟨by simp, fun u hu => ?_⟩
      obtain rfl : t = u := by simpa using hu
      exact ht

theorem Scanned.ofChars?_toChars_iff {l : Line} (h : l.Scanned) :
    ofChars? (Text.dropReturn l.toChars) = some l ↔ l.Settled := by
  rw [h.settled_iff]
  constructor
  · intro hl
    -- What is found in the written line is as long as it, so nothing has been taken off.
    have hfound := toChars_sublist hl
    have htrim := Text.trimBoth_sublist isDecoration (Text.dropReturn l.toChars)
    have hdrop := Text.dropReturn_sublist l.toChars
    have hreturn : Text.dropReturn l.toChars = l.toChars := hdrop.antisymm (hfound.trans htrim)
    rw [hreturn] at hfound htrim
    have hbare : Text.trimBoth isDecoration l.toChars = l.toChars := htrim.antisymm hfound
    intro c hc
    constructor
    · exact Text.last_trimBoth (by rw [hbare]; exact hc)
    · rintro rfl
      exact (Text.dropReturn_eq_self_iff l.toChars).mp hreturn hc
  · intro hlast
    have hfirst : ∀ c, l.toChars.head? = some c → isDecoration c = false := by
      intro c hc
      obtain rfl : '@' = c := by simpa [toChars, List.head?_append, h.marked] using hc
      rfl
    have hreturn := (Text.dropReturn_eq_self_iff l.toChars).mpr fun hc => (hlast _ hc).2 rfl
    rw [hreturn, ofChars?, Text.trimBoth_of_ends _ hfirst fun c hc => (hlast c hc).1,
      h.ofBare?_toChars]

end Line

/-- Each line on a line of its own. -/
def ofLines (lines : List Line) : String :=
  String.ofList (lines.flatMap fun l => l.toChars ++ ['\n'])

theorem scan_ofLines (lines : List Line) (h : ∀ l ∈ lines, '\n' ∉ l.toChars) :
    scan (ofLines lines) = lines.filterMap fun l => Line.ofChars? (Text.dropReturn l.toChars) := by
  have hscan := scan_lines (lines.map Line.toChars) [] (by simpa using h)
  have hnil : scan (String.ofList []) = [] := rfl
  rw [List.append_nil, hnil, List.append_nil, List.flatMap_map, List.filterMap_map] at hscan
  exact hscan

theorem scan_ofLines_eq_iff (lines : List Line) (h : ∀ l ∈ lines, l.Scanned) :
    scan (ofLines lines) = lines ↔ ∀ l ∈ lines, l.Settled := by
  rw [scan_ofLines lines fun l hl => (h l hl).unbroken]
  have hall := List.filterMap_eq_map_iff_forall_eq_some
    (f := fun l => Line.ofChars? (Text.dropReturn l.toChars)) (g := id) (l := lines)
  rw [List.map_id] at hall
  rw [hall]
  exact forall₂_congr fun l hl => (h l hl).ofChars?_toChars_iff

/-! ## Lines that end in a blank -/

/-- Whether a line of a comment ends in a blank once its decoration is gone. -/
def endsBlank (cs : List Char) : Bool := (Text.trimBoth isDecoration cs).getLast?.any Text.isBlank

theorem settled_of_ofChars? {cs : List Char} {l : Line} (h : Line.ofChars? cs = some l)
    (hend : endsBlank cs = false) : l.Settled := by
  have hlast : ∀ c, (Text.trimBoth isDecoration cs).getLast? = some c →
      isDecoration c = false ∧ Text.isBlank c = false := by
    intro c hc
    exact ⟨Text.last_trimBoth hc, by simpa [endsBlank, hc] using hend⟩
  obtain ⟨-, -, ⟨htext, hbare⟩ | ⟨text, htext, hbare⟩⟩ := Line.ofBare?_eq_some h
  · rw [hbare] at hlast
    refine ⟨fun _ hc => ?_, by simp [htext]⟩
    exact absurd (hlast _ hc).2 (by decide)
  · rw [hbare, List.getLast?_append, List.getLast?_cons, Option.some_or] at hlast
    rcases List.eq_nil_or_concat text with rfl | ⟨front, d, rfl⟩
    · exact absurd (hlast ' ' rfl).1 (by decide)
    · obtain ⟨hdecoration, hblank⟩ := hlast d (by simp)
      -- The blanks in front of the text go, its last character does not.
      rw [List.concat_eq_append, Text.trimBlank, Text.trimBoth_concat front d hblank] at htext
      refine ⟨by simp [htext], fun t ht => ?_⟩
      obtain rfl : String.ofList (front.dropWhile Text.isBlank ++ [d]) = t := by
        simpa [htext] using ht
      refine ⟨by simp, fun c hc => ?_⟩
      obtain rfl : d = c := by simpa using hc
      exact (isDecoration_eq_false_iff hblank).mp hdecoration

/-- Scanned texts have no blanks at their ends. A line that does not end in a blank, once its
decoration is gone, gives an annotation that stays when the comment is scanned again, and if all
annotations do, then the second scan gives what the first one gave. -/
theorem scan_rescanned (comment : String) :
    (∀ l ∈ scan comment, ∀ t, l.text = some t →
      ∀ c, t.toList.head? = some c ∨ t.toList.getLast? = some c → Text.isBlank c = false) ∧
    (∀ cs ∈ Text.lines comment.toList, endsBlank cs = false →
      ∀ l, Line.ofChars? cs = some l → l.Settled) ∧
    (scan (ofLines (scan comment)) = scan comment ↔ ∀ l ∈ scan comment, l.Settled) ∧
    ((∀ cs ∈ Text.lines comment.toList, endsBlank cs = false) →
      scan (ofLines (scan comment)) = scan comment) := by
  have hscanned : ∀ l ∈ scan comment, l.Scanned := fun l hl => Line.scanned_of_mem hl
  have hagain := scan_ofLines_eq_iff (scan comment) hscanned
  refine ⟨fun l hl => (hscanned l hl).trimmed, ?_, hagain, ?_⟩
  · intro cs _ hend l hl
    exact settled_of_ofChars? hl hend
  · intro hend
    rw [hagain]
    intro l hl
    obtain ⟨cs, hcs, hread⟩ := List.mem_filterMap.mp hl
    exact settled_of_ofChars? hread (hend cs hcs)

theorem scan_rescanned_starred :
    let comment := "/**\r\n * @A* x* \t*\n * @B\tx */"
    (∀ cs ∈ Text.lines comment.toList, endsBlank cs = false) ∧
    scan comment = [⟨"@A*", some "x"⟩, ⟨"@B\tx", none⟩] ∧
    scan (ofLines (scan comment)) = scan comment := by
  intro comment
  have hend : ∀ cs ∈ Text.lines comment.toList, endsBlank cs = false := by decide
  exact ⟨hend, by decide, (scan_rescanned comment).2.2.2 hend⟩

/-- A text that ends in a star, an empty one, and a name that ends in a carriage return: all three
are something else the second time. -/
theorem scan_unsettled :
    let comment := "@A x*\u00a0\n@B \u00a0\n@C\r"
    scan comment = [⟨"@A", some "x*"⟩, ⟨"@B", some ""⟩, ⟨"@C\r", none⟩] ∧
    scan (ofLines (scan comment)) = [⟨"@A", some "x"⟩, ⟨"@B", none⟩, ⟨"@C", none⟩] ∧
    scan (ofLines (scan comment)) ≠ scan comment := by
  decide

end DocAnnotations.Comment
