import DocAnnotations.Json.Writer
import DocAnnotations.Proofs.Annotations.Aggregation
import DocAnnotations.Proofs.Comment.Scan

/-! # Annotations part by part -/

namespace DocAnnotations.Annotations

theorem eraseDups_append_eq (names more : List String) :
    (names ++ more).eraseDups =
      names.eraseDups ++ more.eraseDups.filter (· ∉ names.eraseDups) := by
  induction more using List.reverseRecOn with
  | nil => simp
  | append_singleton more name ih =>
    rw [← List.append_assoc, eraseDups_snoc, ih, eraseDups_snoc]
    -- A name that comes again keeps the place where it came first.
    by_cases hmore : name ∈ more
    · simp [hmore]
    · by_cases hnames : name ∈ names <;> simp [hmore, hnames, List.mem_eraseDups]

variable {a b : String}

theorem all_parse_append (q : String) (h : a.toList.getLast? ≠ some '\r') :
    (parse (a ++ "\n" ++ b)).all q = (parse a).all q ++ (parse b).all q := by
  simp only [all_parse, Comment.scan_append a b h, List.filter_append, List.map_append]

theorem names_parse_append (h : a.toList.getLast? ≠ some '\r') :
    (parse (a ++ "\n" ++ b)).names =
      (parse a).names ++ (parse b).names.filter (· ∉ (parse a).names) := by
  simp only [names_parse, Comment.scan_append a b h, List.map_append]
  exact eraseDups_append_eq _ _

/-- Lines do not reach over a line feed, so that two comments which are put below each other say
what they say alone: first all that the first one says, then what the second one adds. -/
theorem parse_joined (a b : String) (h : a.toList.getLast? ≠ some '\r') :
    Comment.scan (a ++ "\n" ++ b) = Comment.scan a ++ Comment.scan b ∧
    (∀ q, (parse (a ++ "\n" ++ b)).all q = (parse a).all q ++ (parse b).all q) ∧
    (parse (a ++ "\n" ++ b)).names =
      (parse a).names ++ (parse b).names.filter (· ∉ (parse a).names) ∧
    ∀ q, (parse (a ++ "\n" ++ b)).first? q = ((parse a).first? q).or ((parse b).first? q) := by
  refine ⟨Comment.scan_append a b h, fun q => all_parse_append q h, names_parse_append h, ?_⟩
  intro q
  rw [first?, all_parse_append q h, List.head?_append, ← first?, ← first?]

theorem parse_joined_overlap :
    let a := "@A 1\n * @B x"
    let b := "@B\r\n@A 2\n@C"
    a.toList.getLast? ≠ some '\r' ∧
    Comment.scan (a ++ "\n" ++ b) = Comment.scan a ++ Comment.scan b ∧
    (parse (a ++ "\n" ++ b)).names = ["@A", "@B", "@C"] ∧
    ((parse (a ++ "\n" ++ b)).all "A").map Json.write = ["1", "2"] ∧
    ((parse (a ++ "\n" ++ b)).first? "B").map Json.write = some "\"x\"" := by
  intro a b
  have h : a.toList.getLast? ≠ some '\r' := by decide
  obtain ⟨hscan, hall, hnames, hfirst⟩ := parse_joined a b h
  refine ⟨h, hscan, ?_, ?_, ?_⟩
  · rw [hnames]
    decide +kernel
  · rw [hall "A"]
    decide +kernel
  · rw [hfirst "B"]
    decide +kernel

end DocAnnotations.Annotations
