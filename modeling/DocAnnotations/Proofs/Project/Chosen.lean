import DocAnnotations.Proofs.Index.Isolation

/-!
# The chosen files of a project

The whole path of a file is looked at: where the root has a component that is
skipped, nothing below it is chosen.
-/

namespace DocAnnotations

/-! ## No file twice -/

namespace Entry

theorem entryPaths_eq (path : String) (entries : List (String × Entry)) :
    entryPaths path entries = entries.flatMap fun x => filePaths (Path.join path x.1) x.2 := by
  induction entries with
  | nil => rfl
  | cons x entries ih => rw [entryPaths, ih, List.flatMap_cons]

theorem components_of_mem_filePaths {e : Entry} (he : e.WellNamed) {path p : String}
    (hpath : path ≠ "") (hp : p ∈ filePaths path e) :
    ∃ below, Path.components p = Path.components path ++ below := by
  obtain ⟨below, content, hholds, rfl⟩ := (mem_filePaths_iff path p e).mp hp
  exact ⟨below, Path.components_foldl_join hpath (hholds.isName he)⟩

theorem disjoint_filePaths {path name other : String} {e e' : Entry} (hpath : path ≠ "")
    (hname : Path.IsName name) (hother : Path.IsName other) (he : e.WellNamed)
    (he' : e'.WellNamed) (hne : name ≠ other) :
    List.Disjoint (filePaths (Path.join path name) e) (filePaths (Path.join path other) e') := by
  intro p hp hp'
  -- The component behind those of the path tells the entries apart.
  obtain ⟨below, hp⟩ := components_of_mem_filePaths he (Path.join_ne_empty path name) hp
  obtain ⟨below', hp'⟩ := components_of_mem_filePaths he' (Path.join_ne_empty path other) hp'
  rw [hp, Path.components_join hpath hname, Path.components_join hpath hother] at hp'
  simp only [List.append_assoc, List.append_cancel_left_eq, List.singleton_append,
    List.cons.injEq] at hp'
  exact hne hp'.1

theorem nodup_filePaths {e : Entry} (h : e.WellNamed) {path : String} (hpath : path ≠ "") :
    (filePaths path e).Nodup := by
  induction h generalizing path with
  | file => exact List.nodup_singleton path
  | @folder entries hnames hdistinct hwell ih =>
    rw [filePaths, entryPaths_eq, List.nodup_flatMap]
    refine ⟨fun x hx => ih x hx (Path.join_ne_empty path x.1), ?_⟩
    have hne : entries.Pairwise fun x y => x.1 ≠ y.1 := List.pairwise_map.mp hdistinct
    apply hne.imp_of_mem
    intro x y hx hy hxy
    exact disjoint_filePaths hpath (hnames x hx) (hnames y hy) (hwell x hx) (hwell y hy) hxy

end Entry

theorem FileTree.nodup_files {tree : FileTree} (h : tree.root.WellNamed) (root : String) :
    (tree.files root).Nodup := by
  unfold files
  cases hinner : tree.at? root with
  | error fault => exact List.nodup_nil
  | ok inner => exact Entry.nodup_filePaths (wellNamed_at? h hinner) (ne_empty_of_at? hinner)

/-! ## What is chosen -/

namespace Selection

variable {tree : FileTree} {s : Selection} {root : String}

theorem admits_iff (s : Selection) (path : String) :
    s.admits path = true ↔ (∀ name ∈ s.skipped, ¬ Path.IsComponent path name) ∧
      ∃ ext ∈ s.extensions, Path.HasExtension path ext := by
  simp only [← Path.mem_components_iff, ← Path.extension?_eq_some_iff]
  rw [admits, Bool.and_eq_true]
  apply and_congr
  · rw [Bool.not_eq_true', List.any_eq_false]
    simp only [List.contains_iff_mem]
    exact ⟨fun h name hname hpart => h name hpart hname,
      fun h name hpart hname => h name hname hpart⟩
  · cases Path.extension? path <;> simp

theorem mem_foundIn_iff (path : String) :
    path ∈ s.foundIn tree root ↔ path ∈ tree.files root ∧ s.admits path = true := by
  rw [(Index.foundIn_perm tree s root).mem_iff, List.mem_filter]

theorem foundIn_ascends (h : tree.root.WellNamed) (s : Selection) (root : String) :
    (s.foundIn tree root).Pairwise fun p q => Text.bytes p < Text.bytes q := by
  have hsorted : (s.foundIn tree root).Pairwise fun p q => decide (p ≤ q) = true := by
    apply List.pairwise_mergeSort
    · intro p q r hpq hqr
      rw [decide_eq_true_eq] at *
      exact String.le_trans hpq hqr
    · intro p q
      simpa using String.le_total p q
  have hnodup : (s.foundIn tree root).Nodup :=
    (Index.foundIn_perm tree s root).nodup_iff.mpr ((FileTree.nodup_files h root).filter _)
  apply (hsorted.and hnodup).imp
  rintro p q ⟨hle, hne⟩
  rw [Text.bytes_lt_iff]
  exact Std.lt_of_le_of_ne (of_decide_eq_true hle) hne

/-- The chosen files stand in the order of bytes, none of them twice. They are the files at or below
the root whose path has no skipped component and whose name has one of the extensions. -/
theorem foundIn_exact (tree : FileTree) (hnamed : tree.root.WellNamed) (s : Selection)
    (root : String) :
    ((s.foundIn tree root).Pairwise fun p q => Text.bytes p < Text.bytes q) ∧
    (∀ p, p ∈ s.foundIn tree root ↔
      (∃ inner names content, tree.at? root = .ok inner ∧ inner.Holds names content ∧
        p = Path.below root names) ∧
      (∀ name ∈ s.skipped, ¬ Path.IsComponent p name) ∧
      ∃ ext ∈ s.extensions, Path.HasExtension p ext) ∧
    ∀ other : Selection, s.extensions ⊆ other.extensions → other.skipped ⊆ s.skipped →
      s.foundIn tree root ⊆ other.foundIn tree root := by
  refine ⟨foundIn_ascends hnamed s root, ?_, ?_⟩
  · intro p
    rw [mem_foundIn_iff, FileTree.mem_files_iff hnamed, admits_iff]
  · intro other hextensions hskipped p hp
    rw [mem_foundIn_iff, admits_iff] at hp ⊢
    obtain ⟨hfile, hfree, ext, hext, hpath⟩ := hp
    exact ⟨hfile, fun name hname => hfree name (hskipped hname), ext, hextensions hext, hpath⟩

/-- A file in two folders of the working folder, one of which has a name that is skipped by default,
and two more. -/
def sameTwice : FileTree where
  root := .folder [("home", .folder [("build", .folder [("a.ts", .file .empty)]),
    ("lib", .folder [("a.ts", .file .empty)]), ("lib-a.ts", .file .empty), (".ts", .file .empty)])]
  working := ["home"]

theorem wellNamed_sameTwice : sameTwice.root.WellNamed := by
  have hinner : (Entry.folder [("a.ts", .file .empty)]).WellNamed :=
    .folder (by simpa using ⟨by decide, by decide, by decide⟩) (by simp) (by simpa using .file)
  have hhome : (Entry.folder [("build", .folder [("a.ts", .file .empty)]),
      ("lib", .folder [("a.ts", .file .empty)]), ("lib-a.ts", .file .empty),
      (".ts", .file .empty)]).WellNamed := by
    refine .folder ?_ (by simp) (by simpa using ⟨hinner, .file⟩)
    simp only [List.forall_mem_cons, List.not_mem_nil, false_imp_iff, implies_true, and_true]
    refine ⟨?_, ?_, ?_, ?_⟩ <;> exact ⟨by decide, by decide, by decide⟩
  exact .folder (by simpa using ⟨by decide, by decide, by decide⟩) (by simp) (by simpa using hhome)

theorem foundIn_exact_sameTwice :
    sameTwice.root.WellNamed ∧
    ((Selection.default.foundIn sameTwice "./").Pairwise fun p q => Text.bytes p < Text.bytes q) ∧
    "./lib/a.ts" ∈ Selection.default.foundIn sameTwice "./" ∧
    "./build/a.ts" ∉ Selection.default.foundIn sameTwice "./" ∧
    "./.ts" ∉ Selection.default.foundIn sameTwice "./" ∧
    "/home/lib/a.ts" ∈ Selection.default.foundIn sameTwice "/home" ∧
    "../../home/lib/a.ts" ∈ Selection.default.foundIn sameTwice "../.." := by
  have hlib : (Entry.folder [("a.ts", .file .empty)]).Holds ["a.ts"] .empty :=
    .folder List.mem_cons_self .file
  obtain ⟨hascends, hmem, -⟩ := foundIn_exact sameTwice wellNamed_sameTwice .default "./"
  obtain ⟨-, habsolute, -⟩ := foundIn_exact sameTwice wellNamed_sameTwice .default "/home"
  obtain ⟨-, habove, -⟩ := foundIn_exact sameTwice wellNamed_sameTwice .default "../.."
  simp only [← Path.mem_components_iff, ← Path.extension?_eq_some_iff] at hmem habsolute habove
  refine ⟨wellNamed_sameTwice, hascends, ?_, ?_, ?_, ?_, ?_⟩
  · refine (hmem _).mpr ⟨⟨_, _, _, rfl, .folder (List.mem_cons_of_mem _ List.mem_cons_self) hlib,
      rfl⟩, by decide +kernel, "ts", ?_⟩
    decide +kernel
  · rw [hmem]
    rintro ⟨-, hfree, -⟩
    exact hfree "build" (by decide) (by decide +kernel)
  · rw [hmem]
    rintro ⟨-, -, ext, -, hext⟩
    have hnone : Path.extension? "./.ts" = none := by decide +kernel
    simp [hnone] at hext
  · refine (habsolute _).mpr ⟨⟨_, _, _, rfl,
      .folder (List.mem_cons_of_mem _ List.mem_cons_self) hlib, rfl⟩, by decide +kernel, "ts", ?_⟩
    decide +kernel
  · refine (habove _).mpr ⟨⟨_, _, _, rfl, .folder List.mem_cons_self
      (.folder (List.mem_cons_of_mem _ List.mem_cons_self) hlib), rfl⟩, by decide +kernel, "ts", ?_⟩
    decide +kernel

/-! ## Below a root -/

/-- A file below a root is wanted for its extension, unless a folder on the way to it has a skipped
name. -/
def Wants (s : Selection) (names : List String) : Prop :=
  (∃ name ∈ names.getLast?, ∃ ext ∈ s.extensions, Path.HasExtension name ext) ∧
    ∀ name ∈ names.dropLast, name ∉ s.skipped

/-- No component of a root has a skipped name. -/
def Spares (s : Selection) (root : String) : Prop :=
  ∀ name ∈ s.skipped, ¬ Path.IsComponent root name

theorem isComponent_below_iff {names : List String} (hroot : root ≠ "")
    (hnames : ∀ name ∈ names, Path.IsName name) (name : String) :
    Path.IsComponent (Path.below root names) name ↔ Path.IsComponent root name ∨ name ∈ names := by
  rw [← Path.foldl_join hnames, ← Path.mem_components_iff, Path.components_foldl_join hroot hnames,
    List.mem_append, Path.mem_components_iff]

theorem hasExtension_below_iff {names : List String} {name : String}
    (hnames : ∀ n ∈ names ++ [name], Path.IsName n) (ext : String) :
    Path.HasExtension (Path.below root (names ++ [name])) ext ↔ Path.HasExtension name ext := by
  have hname : Path.IsName name := hnames name (by simp)
  rw [← Path.foldl_join hnames, List.foldl_append, List.foldl_cons, List.foldl_nil,
    Path.hasExtension_join hname]

theorem below_mem_foundIn_iff (hnamed : tree.root.WellNamed) {entries : List (String × Entry)}
    (hroot : tree.at? root = .ok (.folder entries)) {names : List String} {content : ByteArray}
    (hholds : (Entry.folder entries).Holds names content) :
    Path.below root names ∈ s.foundIn tree root ↔
      s.Wants names ∧ s.Spares root ∧ ∀ name ∈ names.getLast?, name ∉ s.skipped := by
  have hisName := hholds.isName (FileTree.wellNamed_at? hnamed hroot)
  have hfile : Path.below root names ∈ tree.files root :=
    (FileTree.mem_files_iff hnamed root _).mpr ⟨_, names, content, hroot, hholds, rfl⟩
  rw [mem_foundIn_iff, admits_iff]
  simp only [hfile, true_and, isComponent_below_iff (FileTree.ne_empty_of_at? hroot) hisName]
  obtain rfl | ⟨front, last, rfl⟩ := names.eq_nil_or_concat'
  · cases hholds
  · simp only [hasExtension_below_iff hisName, Wants, Spares, List.getLast?_concat,
      List.dropLast_concat, Option.mem_some_iff, forall_eq', exists_eq_left', List.mem_append,
      List.mem_singleton]
    constructor
    · rintro ⟨hfree, hext⟩
      refine ⟨⟨hext, ?_⟩, fun name hname hpart => hfree name hname (.inl hpart), ?_⟩
      · exact fun name hname hskipped => hfree name hskipped (.inr (.inl hname))
      · exact fun hskipped => hfree last hskipped (.inr (.inr rfl))
    · rintro ⟨⟨hext, hfolders⟩, hspares, hlast⟩
      refine ⟨?_, hext⟩
      rintro name hskipped (hpart | hname | rfl)
      · exact hspares name hskipped hpart
      · exact hfolders name hname hskipped
      · exact hlast hskipped

/-- What is chosen below a root does not hang on the folders below it alone: the names of the wanted
files and the components of the root must not be skipped either. Two roots of the same tree give the
same files exactly if neither or both have a skipped component, or no file is left anyway. -/
theorem wanted_iff_chosen (tree : FileTree) (hnamed : tree.root.WellNamed) (s : Selection)
    (root : String) (entries : List (String × Entry))
    (hroot : tree.at? root = .ok (.folder entries)) :
    ((∀ names content, (Entry.folder entries).Holds names content →
        (Path.below root names ∈ s.foundIn tree root ↔ s.Wants names)) ↔
      ∀ names content, (Entry.folder entries).Holds names content → s.Wants names →
        s.Spares root ∧ ∀ name ∈ names.getLast?, name ∉ s.skipped) ∧
    ∀ (other : FileTree) root', other.root.WellNamed → other.at? root' = .ok (.folder entries) →
      ((∀ names content, (Entry.folder entries).Holds names content →
          (Path.below root names ∈ s.foundIn tree root ↔
            Path.below root' names ∈ s.foundIn other root')) ↔
        ∀ names content, (Entry.folder entries).Holds names content → s.Wants names →
          (∀ name ∈ names.getLast?, name ∉ s.skipped) → (s.Spares root ↔ s.Spares root')) := by
  constructor
  · refine forall₃_congr fun names content hholds => ?_
    rw [below_mem_foundIn_iff hnamed hroot hholds]
    tauto
  · intro other root' hother hroot'
    refine forall₃_congr fun names content hholds => ?_
    rw [below_mem_foundIn_iff hnamed hroot hholds, below_mem_foundIn_iff hother hroot' hholds]
    tauto

theorem spares_iff (s : Selection) (root : String) :
    s.Spares root ↔ ∀ name ∈ s.skipped, name ∉ Path.components root := by
  simp only [Spares, Path.mem_components_iff]

theorem wanted_iff_chosen_sameTwice :
    sameTwice.root.WellNamed ∧ sameTwice.at? "lib" = .ok (.folder [("a.ts", .file .empty)]) ∧
    ∀ root ∈ ["/home/lib", "../../home/lib/"],
      sameTwice.at? root = .ok (.folder [("a.ts", .file .empty)]) ∧
      ∀ names content, (Entry.folder [("a.ts", .file .empty)]).Holds names content →
        (Path.below "lib" names ∈ Selection.default.foundIn sameTwice "lib" ↔
          Path.below root names ∈ Selection.default.foundIn sameTwice root) := by
  have hlib : sameTwice.at? "lib" = .ok (.folder [("a.ts", .file .empty)]) := rfl
  have hroots : ∀ root ∈ ["/home/lib", "../../home/lib/"],
      (Selection.default.Spares "lib" ↔ Selection.default.Spares root) := by
    simp only [spares_iff]
    decide +kernel
  have hsame := (wanted_iff_chosen sameTwice wellNamed_sameTwice .default "lib" _ hlib).2 sameTwice
  refine ⟨wellNamed_sameTwice, hlib, ?_⟩
  intro root hroot
  have hat : sameTwice.at? root = .ok (.folder [("a.ts", .file .empty)]) := by
    simp only [List.mem_cons, List.not_mem_nil, or_false] at hroot
    rcases hroot with rfl | rfl <;> rfl
  exact ⟨hat, (hsame root wellNamed_sameTwice hat).mpr fun _ _ _ _ _ => hroots root hroot⟩

theorem wants_sameTwice : Selection.default.Wants ["a.ts"] := by
  refine ⟨⟨"a.ts", rfl, "ts", by decide, ?_⟩, by simp⟩
  rw [← Path.extension?_eq_some_iff]
  decide +kernel

/-- A file that is wanted in both folders is found in one of them only, under each of its paths. -/
theorem wanted_not_chosen :
    sameTwice.at? "build" = sameTwice.at? "lib" ∧
    (∃ inner, sameTwice.at? "build" = .ok inner ∧ inner.Holds ["a.ts"] .empty) ∧
    Selection.default.Wants ["a.ts"] ∧
    Path.below "lib" ["a.ts"] ∈ Selection.default.foundIn sameTwice "lib" ∧
    Path.below "build" ["a.ts"] ∉ Selection.default.foundIn sameTwice "build" ∧
    sameTwice.at? "/home/build" = sameTwice.at? "build" ∧
    Path.below "/home/build" ["a.ts"] ∉ Selection.default.foundIn sameTwice "/home/build" := by
  have hholds : (Entry.folder [("a.ts", .file .empty)]).Holds ["a.ts"] .empty :=
    .folder List.mem_cons_self .file
  refine ⟨rfl, ⟨_, rfl, hholds⟩, wants_sameTwice, ?_, ?_, rfl, ?_⟩ <;>
  · rw [mem_foundIn_iff]
    decide +kernel

end Selection

end DocAnnotations
