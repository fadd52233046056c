import DocAnnotations.FileTree
import Mathlib.Data.List.Nodup

/-! # What a walk finds -/

namespace DocAnnotations

/-- A name that an entry of a folder can have. -/
structure Path.IsName (name : String) : Prop where
  noSlash : '/' ∉ name.toList
  noStay : isStay name.toList = false
  noUp : isUp name.toList = false

namespace Entry

/-- The entry has a file with this content, to which these names lead. -/
inductive Holds : Entry → List String → ByteArray → Prop
  | file {content : ByteArray} : Holds (.file content) [] content
  | folder {entries : List (String × Entry)} {name : String} {inner : Entry} {below : List String}
      {content : ByteArray} (hmem : (name, inner) ∈ entries) (h : Holds inner below content) :
      Holds (.folder entries) (name :: below) content

/-- Every name is one that a file can have, and no folder has two entries under one name. -/
inductive WellNamed : Entry → Prop
  | file {content : ByteArray} : WellNamed (.file content)
  | folder {entries : List (String × Entry)} (hnames : ∀ x ∈ entries, Path.IsName x.1)
      (hdistinct : (entries.map (·.1)).Nodup) (h : ∀ x ∈ entries, WellNamed x.2) :
      WellNamed (.folder entries)

mutual

theorem mem_filePaths_iff (path p : String) (e : Entry) :
    p ∈ filePaths path e ↔
      ∃ below content, e.Holds below content ∧ p = below.foldl Path.join path := by
  match e with
  | .file content =>
    rw [filePaths, List.mem_singleton]
    constructor
    · rintro rfl
      exact ⟨[], content, .file, rfl⟩
    · rintro ⟨_, _, ⟨⟩, rfl⟩
      rfl
  | .folder entries =>
    rw [filePaths, mem_entryPaths_iff]
    constructor
    · rintro ⟨name, inner, hmem, below, content, hholds, rfl⟩
      exact ⟨name :: below, content, .folder hmem hholds, rfl⟩
    · rintro ⟨below, content, hholds, rfl⟩
      cases hholds with
      | folder hmem hholds => exact ⟨_, _, hmem, _, content, hholds, rfl⟩

theorem mem_entryPaths_iff (path p : String) (entries : List (String × Entry)) :
    p ∈ entryPaths path entries ↔ ∃ name inner, (name, inner) ∈ entries ∧
      ∃ below content, inner.Holds below content ∧
        p = below.foldl Path.join (Path.join path name) := by
  match entries with
  | [] => simp [entryPaths]
  | (name, e) :: rest =>
    rw [entryPaths, List.mem_append, mem_filePaths_iff, mem_entryPaths_iff]
    constructor
    · rintro (hfirst | ⟨n, inner, hmem, hrest⟩)
      · exact ⟨name, e, List.mem_cons_self, hfirst⟩
      · exact ⟨n, inner, List.mem_cons_of_mem _ hmem, hrest⟩
    · rintro ⟨n, inner, hmem, hfound⟩
      rcases List.mem_cons.mp hmem with heq | hmem
      · obtain ⟨rfl, rfl⟩ := Prod.mk.inj heq
        exact .inl hfound
      · exact .inr ⟨n, inner, hmem, hfound⟩

end

theorem Holds.isName {e : Entry} {below : List String} {content : ByteArray}
    (h : e.Holds below content) (hnamed : e.WellNamed) : ∀ name ∈ below, Path.IsName name := by
  induction h with
  | file => simp
  | folder hmem _ ih =>
    cases hnamed with
    | folder hnames _ hinner =>
      exact List.forall_mem_cons.mpr ⟨hnames _ hmem, ih (hinner _ hmem)⟩

theorem mem_of_lookup {entries : List (String × Entry)} {name : String} {inner : Entry}
    (h : entries.lookup name = some inner) : (name, inner) ∈ entries := by
  obtain ⟨before, after, rfl, -⟩ := List.lookup_eq_some_iff.mp h
  simp

theorem lookup_of_mem {entries : List (String × Entry)} {name : String} {inner : Entry}
    (hdistinct : (entries.map (·.1)).Nodup) (h : (name, inner) ∈ entries) :
    entries.lookup name = some inner := by
  obtain ⟨before, after, rfl⟩ := List.append_of_mem h
  refine List.lookup_eq_some_iff.mpr ⟨before, after, rfl, ?_⟩
  intro x hx
  rw [List.map_append, List.map_cons, List.nodup_middle, List.nodup_cons] at hdistinct
  have hne : name ≠ x.1 := by
    rintro rfl
    exact hdistinct.1 (List.mem_append_left _ (List.mem_map.mpr ⟨x, hx, rfl⟩))
  simpa using hne

end Entry

end DocAnnotations
