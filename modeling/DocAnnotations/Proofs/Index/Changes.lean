import DocAnnotations.Project
import Mathlib.Data.List.Induction

/-!
# What an index holds

The elements of a file are those of its latest source that follows the grammar.
-/

namespace DocAnnotations

/-! ## Good sources -/

/-- The elements of a source, none if it does not follow the grammar. -/
def sourceElements (path source : String) : List Element := (extract path source).toOption.getD []

/-- What was read of a file, if it follows the grammar. -/
def goodText? (path : String) : Except ReadFault String → Option String
  | .ok source => if (extract path source).isOk then some source else none
  | .error _ => none

variable {path f source : String} {text : Except ReadFault String} {x : Index}

theorem isOk_extract_iff :
    (extract path source).isOk = true ↔
      extract path source = .ok (sourceElements path source) := by
  unfold sourceElements
  cases extract path source <;> simp [Except.isOk, Except.toBool, Except.toOption]

theorem goodText?_eq_some_iff :
    goodText? path text = some source ↔
      text = .ok source ∧ extract path source = .ok (sourceElements path source) := by
  cases text with
  | error fault => simp [goodText?]
  | ok read =>
    rw [goodText?, Option.ite_none_right_eq_some, isOk_extract_iff, Except.ok.injEq,
      Option.some.injEq]
    constructor
    · rintro ⟨h, rfl⟩
      exact ⟨rfl, h⟩
    · rintro ⟨rfl, h⟩
      exact ⟨h, rfl⟩

namespace Index

theorem addFile_of_good (h : goodText? path text = some source) :
    x.addFile path text = .ok ⟨x.byFile.insert path (sourceElements path source)⟩ := by
  obtain ⟨rfl, hes⟩ := goodText?_eq_some_iff.mp h
  rw [addFile, addSource, hes]
  rfl

theorem addFile_of_bad (h : goodText? path text = none) : ∃ e, x.addFile path text = .error e := by
  cases text with
  | error fault => exact ⟨_, rfl⟩
  | ok source =>
    cases hes : extract path source with
    | error e => exact ⟨e, by rw [addFile, addSource, hes]; rfl⟩
    | ok es => simp [goodText?, Except.isOk, Except.toBool, hes] at h

theorem tryFile_of_good (h : goodText? path text = some source) :
    x.tryFile path text = ⟨x.byFile.insert path (sourceElements path source)⟩ := by
  rw [tryFile, addFile_of_good h]

theorem tryFile_of_bad (h : goodText? path text = none) : x.tryFile path text = x := by
  obtain ⟨e, he⟩ := addFile_of_bad (x := x) h
  rw [tryFile, he]

theorem getElem?_tryFile (x : Index) (path f : String) (text : Except ReadFault String) :
    (x.tryFile path text).byFile[f]? =
      if path = f then ((goodText? f text).map (sourceElements f)).or x.byFile[f]?
      else x.byFile[f]? := by
  cases h : goodText? path text with
  | none =>
    rw [tryFile_of_bad h]
    split
    · next hf => subst hf; rw [h]; rfl
    · rfl
  | some source =>
    rw [tryFile_of_good h, Std.TreeMap.getElem?_insert]
    simp only [Std.compare_eq_iff_eq]
    split
    · next hf => subst hf; rw [h]; rfl
    · rfl

theorem getElem?_tryFiles (read : String → Except ReadFault String) (paths : List String)
    (x : Index) (f : String) :
    (paths.foldl (fun x path => x.tryFile path (read path)) x).byFile[f]? =
      if f ∈ paths then ((goodText? f (read f)).map (sourceElements f)).or x.byFile[f]?
      else x.byFile[f]? := by
  induction paths generalizing x with
  | nil => simp
  | cons path rest ih =>
    rw [List.foldl_cons, ih, getElem?_tryFile]
    by_cases hf : path = f
    · subst hf
      by_cases hrest : path ∈ rest
      · simp [hrest, ← Option.or_assoc]
      · simp [hrest]
    · have hne : f ≠ path := fun e => hf e.symm
      simp [hf, hne]

theorem ofProject_eq (disk : Disk Id) (s : Selection) (root : String) :
    (ofProject disk s root).run =
      (s.filesOf disk root).run.foldl (fun x path => x.tryFile path (disk.read path).run)
        empty := by
  rw [ofProject]
  simp only [Id.run_bind, List.idRun_foldlM, Id.run_pure]

end Index

/-! ## Changes -/

/-- A change of an index. What is read is part of the change: it can be different every time. -/
inductive Change where
  | source (path text : String)
  | file (path : String) (text : Except ReadFault String)
  | project (disk : Disk Id) (s : Selection) (root : String)

def Index.change (x : Index) : Change → Except Error Index
  | .source path text => x.addSource path text
  | .file path text => x.addFile path text
  | .project disk s root => .ok (ofProject disk s root).run

/-- A change that fails does nothing. -/
def Index.applied (x : Index) (ch : Change) : Index := (x.change ch).toOption.getD x

def Index.after (changes : List Change) : Index := changes.foldl applied empty

/-- The good source of a file after a change, given the one before. -/
def Change.latest (f : String) (before : Option String) : Change → Option String
  | .source path text => if path = f then (goodText? f (.ok text)).or before else before
  | .file path text => if path = f then (goodText? f text).or before else before
  | .project disk s root =>
    if f ∈ (s.filesOf disk root).run then goodText? f (disk.read f).run else none

/-- The latest good source of a file, if there is one. -/
def latestSource (f : String) (changes : List Change) : Option String :=
  changes.foldl (Change.latest f) none

theorem latestSource_snoc (f : String) (changes : List Change) (ch : Change) :
    latestSource f (changes ++ [ch]) = ch.latest f (latestSource f changes) := by
  simp [latestSource]

theorem Change.latest_cases (before : Option String) (ch : Change)
    (h : ch.latest f before = some source) :
    before = some source ∨ ∃ text, goodText? f text = some source := by
  have hadd (path : String) (text : Except ReadFault String)
      (hadd : (if path = f then (goodText? f text).or before else before) = some source) :
      before = some source ∨ ∃ text, goodText? f text = some source := by
    split at hadd
    · rcases Option.or_eq_some_iff.mp hadd with hnew | ⟨-, hold⟩
      · exact .inr ⟨text, hnew⟩
      · exact .inl hold
    · exact .inl hadd
  cases ch with
  | source path text => exact hadd path (.ok text) h
  | file path text => exact hadd path text h
  | project disk s root =>
    simp only [Change.latest, Option.ite_none_right_eq_some] at h
    exact .inr ⟨_, h.2⟩

theorem extract_latestSource (changes : List Change) (h : latestSource f changes = some source) :
    extract f source = .ok (sourceElements f source) := by
  induction changes using List.reverseRecOn with
  | nil => simp [latestSource] at h
  | append_singleton changes ch ih =>
    rw [latestSource_snoc] at h
    rcases ch.latest_cases _ h with hold | ⟨text, hnew⟩
    · exact ih hold
    · exact (goodText?_eq_some_iff.mp hnew).2

namespace Index

theorem applied_source (x : Index) (path text : String) :
    x.applied (.source path text) = x.tryFile path (.ok text) := by
  rw [applied, change, tryFile, addFile]
  cases x.addSource path text <;> rfl

theorem applied_file (x : Index) (path : String) (text : Except ReadFault String) :
    x.applied (.file path text) = x.tryFile path text := by
  rw [applied, change, tryFile]
  cases x.addFile path text <;> rfl

theorem getElem?_applied (x : Index) (ch : Change) (f : String) (before : Option String)
    (h : x.byFile[f]? = before.map (sourceElements f)) :
    (x.applied ch).byFile[f]? = (ch.latest f before).map (sourceElements f) := by
  cases ch with
  | source path text =>
    rw [applied_source, getElem?_tryFile, Change.latest, h]
    split <;> simp [Option.map_or]
  | file path text =>
    rw [applied_file, getElem?_tryFile, Change.latest, h]
    split <;> simp [Option.map_or]
  | project disk s root =>
    have hproject : x.applied (.project disk s root) = (ofProject disk s root).run := rfl
    rw [hproject, ofProject_eq, getElem?_tryFiles, Change.latest]
    split <;> simp [empty]

/-- An index holds the elements of the latest good source of each file, and nothing else. -/
theorem getElem?_after (changes : List Change) (f : String) :
    (after changes).byFile[f]? = (latestSource f changes).map (sourceElements f) := by
  induction changes using List.reverseRecOn with
  | nil => simp [after, empty, latestSource]
  | append_singleton changes ch ih =>
    rw [latestSource_snoc, after, List.foldl_append]
    exact getElem?_applied (after changes) ch f _ ih

theorem elementsIn_after (changes : List Change) (f : String) :
    (after changes).elementsIn f = ((latestSource f changes).map (sourceElements f)).getD [] := by
  rw [elementsIn, getElem?_after]

theorem mem_files_iff (x : Index) (path : String) :
    path ∈ x.files ↔ (x.byFile[path]?).isSome := by
  rw [files, Std.TreeMap.mem_keys, Std.TreeMap.mem_iff_isSome_getElem?]

theorem mem_files_after (changes : List Change) (f : String) :
    f ∈ (after changes).files ↔ (latestSource f changes).isSome := by
  rw [mem_files_iff, getElem?_after, Option.isSome_map]

end Index

end DocAnnotations
