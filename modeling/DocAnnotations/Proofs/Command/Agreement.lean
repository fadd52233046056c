import DocAnnotations.Proofs.Command.Arguments
import DocAnnotations.Proofs.FileTree.Following
import DocAnnotations.Proofs.Json.Written
import DocAnnotations.Proofs.Query.Calls

/-!
# Two ways to ask

A command makes an index of the one file and starts with an empty cache. A call
has no index, and a cache that other calls have left.
-/

namespace DocAnnotations

/-! ## Outcomes -/

/-- A run of the program says the same as an answer: the code which sort it is, the output its
text. -/
structure Outcome.Reports (o : Outcome) (answer : Query.Answer) : Prop where
  value : ∀ text, answer = .ok (some text) ↔ o.code = 0 ∧ o.output = text ++ "\n"
  absence : answer = .ok none ↔ o.code = 1 ∧ o.output = ""
  failure : (∃ e, answer = .error e) ↔ o.code = 2 ∧ o.output = ""
  silence : o.code ≠ 0 → o.output = ""

/-! ## What a command prints -/

namespace Outcome

theorem reports_printed (line : String) : (printed line).Reports (.ok (some line)) where
  value text := by simp [printed]
  absence := by simp [printed]
  failure := by simp [printed]
  silence := by simp [printed]

theorem reports_absent (name identity : String) : (absent name identity).Reports (.ok none) where
  value text := by simp [absent]
  absence := by simp [absent]
  failure := by simp [absent]
  silence := by simp [absent]

theorem reports_failed (reason : String) (e : QueryError) :
    (failed reason).Reports (.error e) where
  value text := by simp [failed]
  absence := by simp [failed]
  failure := by simp [failed]
  silence := by simp [failed]

end Outcome

namespace Command

variable {e : Element} {source path qualifiedName : String}

theorem addFile_empty (es : List Element) (h : extract path source = .ok es) :
    Index.empty.addFile path (.ok source) = .ok ⟨Index.empty.byFile.insert path es⟩ := by
  rw [Index.addFile, Index.addSource, h]
  rfl

theorem find_of_element (h : Query.elementOf source path qualifiedName = .ok e) :
    ∃ x, Index.empty.addFile path (.ok source) = .ok x ∧ x.find path qualifiedName = .ok e := by
  unfold Query.elementOf at h
  cases hx : extract path source with
  | error err => simp [hx] at h
  | ok es =>
    refine ⟨_, addFile_empty es hx, ?_⟩
    cases hfind : es.find? (·.qualifiedName = qualifiedName) with
    | none => simp [hx, hfind] at h
    | some found =>
      simp only [hx, hfind, Except.ok.injEq] at h
      simp [Index.find, Index.elementsIn, hfind, h]

theorem find_of_missing (err : QueryError)
    (h : Query.elementOf source path qualifiedName = .error err) :
    (∃ error, Index.empty.addFile path (.ok source) = .error error) ∨
      ∃ x error, Index.empty.addFile path (.ok source) = .ok x ∧
        x.find path qualifiedName = .error error := by
  unfold Query.elementOf at h
  cases hx : extract path source with
  | error error => exact .inl ⟨error, by rw [Index.addFile, Index.addSource, hx]; rfl⟩
  | ok es =>
    refine .inr ⟨_, .notIndexed (Element.identityOf path qualifiedName), addFile_empty es hx, ?_⟩
    cases hfind : es.find? (·.qualifiedName = qualifiedName) with
    | none => simp [Index.find, Index.elementsIn, hfind]
    | some found => simp [hx, hfind] at h

variable {δ : Type} [DecidableEq δ]

theorem runGet_of_missing (fingerprint : String → δ) (err : QueryError) (name : String)
    (all : Bool) (h : Query.elementOf source path qualifiedName = .error err) :
    ∃ error, runGet fingerprint path qualifiedName name all (.ok source) = .error error := by
  obtain ⟨error, hput⟩ | ⟨x, error, hput, hfind⟩ := find_of_missing err h
  · exact ⟨error, by simp only [runGet, hput, bind, Except.bind]⟩
  · exact ⟨error, by simp only [runGet, hput, hfind, bind, Except.bind]⟩

theorem runGet_first (fingerprint : String → δ) (name : String)
    (h : Query.elementOf source path qualifiedName = .ok e) :
    runGet fingerprint path qualifiedName name false (.ok source) =
      .ok (match e.annotations.first? name with
        | some v => .printed (Json.write v)
        | none => .absent name e.identity) := by
  obtain ⟨x, hput, hfind⟩ := find_of_element h
  obtain ⟨c, hc⟩ := Cache.annotations_empty fingerprint e.documented _ rfl
  have hget := Cache.get_of_annotations e.documented name e.annotations c hc
  simp only [runGet, hput, hfind, hget, bind, Except.bind]
  cases e.annotations.first? name <;> rfl

theorem runGet_all (fingerprint : String → δ) (name : String)
    (h : Query.elementOf source path qualifiedName = .ok e) :
    runGet fingerprint path qualifiedName name true (.ok source) =
      .ok (.printed (Json.write (.list (e.annotations.all name)))) := by
  obtain ⟨x, hput, hfind⟩ := find_of_element h
  obtain ⟨c, hc⟩ := Cache.annotations_empty fingerprint e.documented _ rfl
  have hget := Cache.getAll_of_annotations e.documented name e.annotations c hc
  simp only [runGet, hput, hfind, hget, bind, Except.bind]
  rfl

/-! ## The whole program -/

/-- What comes of the program on a disk. -/
def outcome (fingerprint : String → δ) (disk : Disk Id) (input : ByteArray)
    (args : List String) : Outcome :=
  Id.run (runArguments fingerprint disk input args)

theorem outcome_get (fingerprint : String → δ) (disk : Disk Id) (input : ByteArray)
    (name : String) (all : Bool) (hfile : disk.read path = .ok source)
    (hpath : IsPlain path) (hqualified : IsPlain qualifiedName) (hname : IsPlain name) :
    outcome fingerprint disk input (getArguments path qualifiedName name all) =
      settle (runGet fingerprint path qualifiedName name all (.ok source)) := by
  rw [outcome, runArguments, ofArguments?_get all hpath hqualified hname]
  simp only [run, hfile]
  rfl

theorem outcome_scan (fingerprint : String → δ) (disk : Disk Id) (comment : String) :
    outcome fingerprint disk comment.toUTF8 ["scan"] =
      .printed (Query.annotationsOf comment) := by
  obtain ⟨c, hc⟩ := Cache.annotations_empty fingerprint (.block "<stdin>" comment) comment rfl
  have hargs : ofArguments? ["scan"] = some .scan := rfl
  have htext : String.fromUTF8? comment.toUTF8 = some comment :=
    (Text.fromUTF8?_eq_some_iff _ comment).mpr rfl
  have hscan : runScan fingerprint comment.toUTF8 = .printed (Query.annotationsOf comment) := by
    simp only [runScan, htext, hc, bind, Except.bind]
    rfl
  rw [outcome, runArguments, hargs]
  exact hscan

end Command

/-! ## Both -/

namespace Query

variable {δ : Type} [DecidableEq δ] {fingerprint : String → δ}
  {earlier others : List Call} {source path qualifiedName name : String}

theorem element?_of_ok {e : Element} (h : elementOf source path qualifiedName = .ok e) :
    (Call.first source path qualifiedName name).element? = some e ∧
      (Call.all source path qualifiedName name).element? = some e := by
  simp [Call.element?, h, Except.toOption]

theorem runGet_reports_first
    (hinj : Set.InjOn fingerprint (met (earlier ++ [.first source path qualifiedName name]))) :
    (Command.settle (Command.runGet fingerprint path qualifiedName name false (.ok source))).Reports
      (answer fingerprint earlier (.first source path qualifiedName name)) := by
  cases h : elementOf source path qualifiedName with
  | error err =>
    obtain ⟨error, hrun⟩ := Command.runGet_of_missing fingerprint err name false h
    rw [answer, first_of_missing err name h, hrun]
    exact Outcome.reports_failed _ err
  | ok e =>
    rw [answer_of_element earlier (element?_of_ok h).1 hinj, Call.reply,
      Command.runGet_first fingerprint name h]
    cases e.annotations.first? name with
    | none => exact Outcome.reports_absent name e.identity
    | some v => exact Outcome.reports_printed (Json.write v)

theorem runGet_reports_all
    (hinj : Set.InjOn fingerprint (met (earlier ++ [.all source path qualifiedName name]))) :
    let outcome :=
      Command.settle (Command.runGet fingerprint path qualifiedName name true (.ok source))
    outcome.Reports (answer fingerprint earlier (.all source path qualifiedName name)) ∧
      outcome.code ≠ 1 := by
  cases h : elementOf source path qualifiedName with
  | error err =>
    obtain ⟨error, hrun⟩ := Command.runGet_of_missing fingerprint err name true h
    rw [answer, all_of_missing err name h, hrun]
    exact ⟨Outcome.reports_failed _ err, by simp [Command.settle, Outcome.failed]⟩
  | ok e =>
    rw [answer_of_element earlier (element?_of_ok h).2 hinj, Call.reply,
      Command.runGet_all fingerprint name h]
    exact ⟨Outcome.reports_printed _, by simp [Command.settle, Outcome.printed]⟩

theorem first_of_all
    (hinj : Set.InjOn fingerprint (met (earlier ++ [.first source path qualifiedName name])))
    (hothers : Set.InjOn fingerprint (met (others ++ [.all source path qualifiedName name])))
    (text? : Option String) (text : String)
    (hone : answer fingerprint earlier (.first source path qualifiedName name) = .ok text?)
    (hevery : answer fingerprint others (.all source path qualifiedName name) = .ok (some text)) :
    ∃ items : List Value, text = Json.write (.list items) ∧
      text? = items.head?.map Json.write := by
  cases h : elementOf source path qualifiedName with
  | error err => simp [answer, first_of_missing err name h] at hone
  | ok e =>
    rw [answer_of_element earlier (element?_of_ok h).1 hinj, Except.ok.injEq] at hone
    rw [answer_of_element others (element?_of_ok h).2 hothers, Except.ok.injEq,
      Call.reply, Option.some.injEq] at hevery
    exact ⟨e.annotations.all name, hevery.symm, hone.symm⟩

/-- What calls answer after any others is what commands print, for a comment and for an element. -/
theorem commands_agree (fingerprint : String → δ) (disk : Disk Id)
    (input : ByteArray) (earlier others : List Call) (source path qualifiedName name : String)
    (hfile : disk.read path = .ok source)
    (hpath : Command.IsPlain path) (hqualified : Command.IsPlain qualifiedName)
    (hname : Command.IsPlain name)
    (hinj : Set.InjOn fingerprint (met (earlier ++ [.first source path qualifiedName name])))
    (hothers : Set.InjOn fingerprint (met (others ++ [.all source path qualifiedName name]))) :
    (Command.outcome fingerprint disk input
        ["get", path, "-e", qualifiedName, "-n", name]).Reports
      (answer fingerprint earlier (.first source path qualifiedName name)) ∧
    (Command.outcome fingerprint disk input
        ["get", path, "-e", qualifiedName, "-n", name, "--all"]).Reports
      (answer fingerprint others (.all source path qualifiedName name)) ∧
    (Command.outcome fingerprint disk input
        ["get", path, "-e", qualifiedName, "-n", name, "--all"]).code ≠ 1 ∧
    (∀ text? text, answer fingerprint earlier (.first source path qualifiedName name) = .ok text? →
      answer fingerprint others (.all source path qualifiedName name) = .ok (some text) →
      (text? = none ↔ text = "[]") ∧ ∃ items : List Value,
        text = Json.write (.list items) ∧ text? = items.head?.map Json.write) ∧
    ∀ comment, ∃ text, answer fingerprint earlier (.comment comment) = .ok (some text) ∧
      (Command.outcome fingerprint disk comment.toUTF8 ["scan"]).code = 0 ∧
      (Command.outcome fingerprint disk comment.toUTF8 ["scan"]).output = text ++ "\n" := by
  have hget := Command.outcome_get fingerprint disk input name false hfile hpath hqualified hname
  have hgetAll := Command.outcome_get fingerprint disk input name true hfile hpath hqualified hname
  simp only [Command.getArguments, Bool.false_eq_true, if_false, if_true, List.append_nil,
    List.cons_append, List.nil_append] at hget hgetAll
  rw [hget, hgetAll]
  obtain ⟨hreports, hcode⟩ := runGet_reports_all hothers
  refine ⟨runGet_reports_first hinj, hreports, hcode, ?_, ?_⟩
  · intro text? text hone hevery
    obtain ⟨items, rfl, rfl⟩ := first_of_all hinj hothers text? text hone hevery
    refine ⟨?_, items, rfl, rfl⟩
    rw [Json.write_list_eq_brackets_iff, Option.map_eq_none_iff, List.head?_eq_none_iff]
  · intro comment
    rw [Command.outcome_scan]
    exact ⟨annotationsOf comment, rfl, rfl, rfl⟩

def sample : String := "/** @n */ class A \x7b\x7d"

/-- A call about an older comment, and one about a text that does not follow the grammar. -/
def olderTexts (path : String) : List Call :=
  [.all "/** @o */ class A \x7b\x7d" path "A" "n", .first "class" path "A" "n"]

/-- The file in a folder below the root, which is not the working folder. -/
def sampleTree : FileTree where
  root := .folder [("home", .folder [("a", .file sample.toUTF8)]), ("work", .folder [])]
  working := ["work"]

theorem commands_agree_olderTexts :
    ["/home/a", "../home/a"].Forall fun path =>
      sampleTree.at? path = .ok (.file sample.toUTF8) ∧
      answer id (olderTexts path) (.first sample path "A" "n") = .ok (some "true") ∧
      (Command.outcome id sampleTree.disk .empty ["get", path, "-e", "A", "-n", "n"]).code = 0 ∧
      (Command.outcome id sampleTree.disk .empty ["get", path, "-e", "A", "-n", "n"]).output =
        "true\n" := by
  have hplain : ∀ path ∈ ["/home/a", "../home/a"], Command.IsPlain path := by decide
  have hanswer : ∀ path ∈ ["/home/a", "../home/a"],
      answer id (olderTexts path) (.first sample path "A" "n") = .ok (some "true") := by
    decide +kernel
  refine List.forall_iff_forall_mem.mpr fun path hpath => ?_
  have hat : sampleTree.at? path = .ok (.file sample.toUTF8) := by
    simp only [List.mem_cons, List.not_mem_nil, or_false] at hpath
    rcases hpath with rfl | rfl <;> rfl
  have hfile : sampleTree.disk.read path = .ok sample := (FileTree.read_eq_ok_iff sample).mpr hat
  obtain ⟨hget, -⟩ := commands_agree id sampleTree.disk .empty (olderTexts path) [] sample path
    "A" "n" hfile (hplain path hpath) (by decide) (by decide) (Set.injOn_id _) (Set.injOn_id _)
  exact ⟨hat, hanswer path hpath, (hget.value "true").mp (hanswer path hpath)⟩

end Query

end DocAnnotations
