import DocAnnotations.Proofs.Comment.Scan

/-! # The layout of a comment -/

namespace DocAnnotations.Comment

/-! ## What is put around a text -/

def isPadding (c : Char) : Bool := c == '\t' || c == ' ' || c == '*' || c == '/'

theorem isDecoration_of_isPadding (c : Char) (h : isPadding c = true) : isDecoration c = true := by
  simp only [isPadding, Bool.or_eq_true, beq_iff_eq] at h
  rcases h with ((rfl | rfl) | rfl) | rfl <;> rfl

theorem not_mem_of_isPadding {cs : List Char} (h : ∀ c ∈ cs, isPadding c = true) :
    '\n' ∉ cs ∧ '\r' ∉ cs := by
  constructor
  · intro hc
    exact absurd (h _ hc) (by decide)
  · intro hc
    exact absurd (h _ hc) (by decide)

theorem scan_before (before cs : List Char) (h : ∀ c ∈ before, isPadding c = true) :
    scan (String.ofList (before ++ cs)) = scan (String.ofList cs) := by
  obtain ⟨hfeed, hreturn⟩ := not_mem_of_isPadding h
  have hpadded : ∀ line, Line.ofChars? (before ++ line) = Line.ofChars? line := by
    intro line
    simpa using ofChars?_padded before line [] (fun c hc => isDecoration_of_isPadding c (h c hc))
      (by simp)
  -- Only the first line has the padding.
  induction cs using Text.induction_lines with
  | last cs hcs => rw [scan_last _ (by simp [hfeed, hcs]), scan_last cs hcs, hpadded]
  | line line rest hline _ =>
    rw [← List.append_assoc, scan_line _ _ (by simp [hfeed, hline]), scan_line line rest hline,
      Text.dropReturn_append before line hreturn, hpadded]

theorem scan_after (cs after : List Char) (h : ∀ c ∈ after, isPadding c = true) :
    scan (String.ofList (cs ++ after)) = scan (String.ofList cs) := by
  induction cs using Text.induction_lines with
  | last cs hcs =>
    have hfeed := (not_mem_of_isPadding h).1
    have hpadded := ofChars?_padded [] cs after (by simp)
      fun c hc => isDecoration_of_isPadding c (h c hc)
    rw [List.nil_append] at hpadded
    rw [scan_last _ (by simp [hfeed, hcs]), scan_last cs hcs, hpadded]
  | line line rest hline ih =>
    rw [List.append_assoc, List.cons_append, scan_line line _ hline, scan_line line rest hline, ih]

/-! ## Rows -/

/-- A line with what is put around it. -/
structure Row where
  before : List Char
  line : List Char
  after : List Char
  /-- Whether a carriage return stands in front of the line feed. -/
  returned : Bool

namespace Row

def text (r : Row) : List Char := r.before ++ (r.line ++ r.after)

def ended (r : Row) : List Char := r.text ++ if r.returned then ['\r', '\n'] else ['\n']

/-- The line is one line, with padding around it. -/
structure Plain (r : Row) : Prop where
  unbroken : '\n' ∉ r.line ∧ '\r' ∉ r.line
  before : ∀ c ∈ r.before, isPadding c = true
  after : ∀ c ∈ r.after, isPadding c = true

theorem Plain.text_unbroken {r : Row} (h : r.Plain) : '\n' ∉ r.text ∧ '\r' ∉ r.text := by
  have hbefore := not_mem_of_isPadding h.before
  have hafter := not_mem_of_isPadding h.after
  have hline := h.unbroken
  simp [text, hbefore, hafter, hline]

theorem Plain.ofChars?_text {r : Row} (h : r.Plain) :
    Line.ofChars? r.text = Line.ofChars? r.line :=
  ofChars?_padded _ _ _ (fun c hc => isDecoration_of_isPadding c (h.before c hc))
    fun c hc => isDecoration_of_isPadding c (h.after c hc)

theorem Plain.scan_ended {r : Row} (h : r.Plain) (rest : List Char) :
    scan (String.ofList (r.ended ++ rest)) =
      (Line.ofChars? r.line).toList ++ scan (String.ofList rest) := by
  obtain ⟨hfeed, hreturn⟩ := h.text_unbroken
  -- The carriage return goes with the line feed.
  cases hr : r.returned with
  | true =>
    have hended : r.ended ++ rest = (r.text ++ ['\r']) ++ '\n' :: rest := by simp [ended, hr]
    have hdrop : Text.dropReturn (r.text ++ ['\r']) = r.text := by simp [Text.dropReturn]
    rw [hended, scan_line _ _ (by simp [hfeed]), hdrop, h.ofChars?_text]
  | false =>
    have hended : r.ended ++ rest = r.text ++ '\n' :: rest := by simp [ended, hr]
    rw [hended, scan_line _ _ hfeed, Text.dropReturn_of_not_mem _ hreturn, h.ofChars?_text]

end Row

/-- The rows with their line ends, and perhaps one more row without. -/
def layOut (rows : List Row) (last : Option Row) : String :=
  String.ofList (rows.flatMap Row.ended ++ (last.map Row.text).getD [])

theorem scan_layOut (rows : List Row) (last : Option Row)
    (h : ∀ r ∈ rows ++ last.toList, r.Plain) :
    scan (layOut rows last) = (rows ++ last.toList).filterMap fun r => Line.ofChars? r.line := by
  unfold layOut
  induction rows with
  | nil =>
    cases last with
    | none => rfl
    | some r =>
      have hr : r.Plain := h r (by simp)
      have hlast := scan_last r.text hr.text_unbroken.1
      rw [hr.ofChars?_text] at hlast
      cases hline : Line.ofChars? r.line <;> simpa [hline] using hlast
  | cons r rows ih =>
    have hr : r.Plain := h r (by simp)
    have hrest := ih fun s hs => h s (List.mem_cons_of_mem r hs)
    rw [List.flatMap_cons, List.append_assoc, hr.scan_ended, hrest]
    cases hline : Line.ofChars? r.line <;> simp [hline]

theorem scan_joined (lines : List (List Char)) (h : ∀ line ∈ lines, '\n' ∉ line ∧ '\r' ∉ line) :
    scan (String.ofList (['\n'].intercalate lines)) = lines.filterMap Line.ofChars? := by
  induction lines with
  | nil => rfl
  | cons line lines ih =>
    obtain ⟨⟨hfeed, hreturn⟩, hlines⟩ := List.forall_mem_cons.mp h
    cases lines with
    | nil =>
      have hlast := scan_last line hfeed
      cases hline : Line.ofChars? line <;> simpa [hline] using hlast
    | cons next lines =>
      have hjoin : ['\n'].intercalate (line :: next :: lines) =
          line ++ '\n' :: ['\n'].intercalate (next :: lines) := by
        simp [List.intercalate]
      rw [hjoin, scan_line line _ hfeed, Text.dropReturn_of_not_mem line hreturn, ih hlines]
      cases hline : Line.ofChars? line <;> simp [hline]

/-- A comment says the same as its bare lines, with whatever padding and line ends. In particular,
the marks around a comment may be there or not. -/
theorem scan_layout :
    (∀ (rows : List Row) (last : Option Row), (∀ r ∈ rows ++ last.toList, r.Plain) →
      scan (layOut rows last) =
        scan (String.ofList (['\n'].intercalate ((rows ++ last.toList).map Row.line)))) ∧
    ∀ body, scan ("/**" ++ body ++ "*/") = scan body := by
  constructor
  · intro rows last h
    have hlines : ∀ line ∈ (rows ++ last.toList).map Row.line, '\n' ∉ line ∧ '\r' ∉ line := by
      intro line hline
      obtain ⟨r, hr, rfl⟩ := List.mem_map.mp hline
      exact (h r hr).unbroken
    rw [scan_layOut rows last h, scan_joined _ hlines, List.filterMap_map]
    rfl
  · intro body
    have hopen : ∀ c ∈ "/**".toList, isPadding c = true := List.all_eq_true.mp (by decide)
    have hclose : ∀ c ∈ "*/".toList, isPadding c = true := List.all_eq_true.mp (by decide)
    have htext : "/**" ++ body ++ "*/" =
        String.ofList ("/**".toList ++ (body.toList ++ "*/".toList)) := by
      rw [String.ext_iff]
      simp
    rw [htext, scan_before _ _ hopen, scan_after _ _ hclose, String.ofList_toList]

theorem scan_layout_threeRows :
    let rows : List Row := [
      ⟨"/**".toList, [], [], true⟩, ⟨" *\t".toList, "@A 1".toList, " *".toList, false⟩]
    let last : Row := ⟨" ".toList, "@B".toList, "*/".toList, false⟩
    (∀ r ∈ rows ++ [last], r.Plain) ∧ layOut rows (some last) = "/**\r\n *\t@A 1 *\n @B*/" ∧
    scan (layOut rows (some last)) = scan "\n@A 1\n@B" ∧
    scan ("/**" ++ "@C\r" ++ "*/") = scan "@C\r" := by
  intro rows last
  have hplain : ∀ r ∈ rows ++ [last], r.Plain := by
    intro r hr
    simp only [rows, last, List.mem_append, List.mem_cons, List.not_mem_nil, or_false] at hr
    rcases hr with (rfl | rfl) | rfl
    all_goals exact ⟨by decide, List.all_eq_true.mp (by decide), List.all_eq_true.mp (by decide)⟩
  have hbare : String.ofList (['\n'].intercalate ((rows ++ [last]).map Row.line)) =
      "\n@A 1\n@B" := by decide
  have hscan := scan_layout.1 rows (some last) hplain
  rw [Option.toList_some, hbare] at hscan
  exact ⟨hplain, by decide, hscan, scan_layout.2 "@C\r"⟩

end DocAnnotations.Comment
