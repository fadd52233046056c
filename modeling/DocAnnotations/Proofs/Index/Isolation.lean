import DocAnnotations.Proofs.FileTree.Difference
import DocAnnotations.Proofs.Index.Identity
import DocAnnotations.Proofs.Index.Snapshot

/-! # The files of a project apart from each other -/

namespace DocAnnotations

/-- The chosen files at or below a path of a tree. -/
def Selection.foundIn (s : Selection) (tree : FileTree) (root : String) : List String :=
  (s.filesOf tree.disk root).run

namespace Index

def tried (tree : FileTree) (paths : List String) : Index :=
  paths.foldl (fun x path => x.tryFile path (tree.read path)) empty

/-- The index of the chosen files of a tree. -/
def ofTree (tree : FileTree) (s : Selection) (root : String) : Index :=
  (ofProject tree.disk s root).run

/-- Two indexes answer every question in the same way. -/
structure Agree (x y : Index) : Prop where
  files : x.files = y.files
  elementsIn : ∀ path, x.elementsIn path = y.elementsIn path
  find : ∀ path qualifiedName, x.find path qualifiedName = y.find path qualifiedName
  count : x.count = y.count
  snapshot : ∀ {δ : Type} [DecidableEq δ] (fingerprint : String → δ) (c : Cache δ),
    x.snapshot fingerprint c = y.snapshot fingerprint c

variable {x y : Index}

/-! ## Indexes with the same files -/

theorem fileSnapshots_congr {δ : Type} [DecidableEq δ] (fingerprint : String → δ) (c : Cache δ)
    (paths : List String) (h : ∀ path, x.elementsIn path = y.elementsIn path) :
    x.fileSnapshots fingerprint c paths = y.fileSnapshots fingerprint c paths := by
  induction paths generalizing c with
  | nil => rfl
  | cons path paths ih => simp only [fileSnapshots, h path, ih]

theorem agree_of_getElem? (h : ∀ path : String, x.byFile[path]? = y.byFile[path]?) : Agree x y := by
  have hfiles : x.files = y.files := (Std.TreeMap.Equiv.of_forall_constGet?_eq h).keys_eq
  have helements : ∀ path, x.elementsIn path = y.elementsIn path := by
    intro path
    rw [elementsIn, h path, elementsIn]
  refine ⟨hfiles, helements, ?_, ?_, ?_⟩
  · intro path qualifiedName
    rw [find, helements path, find]
  · rw [count, elements_eq, hfiles, funext helements, count, elements_eq]
  · intro δ _ fingerprint c
    rw [snapshot, fileSnapshots_congr fingerprint c x.files helements, hfiles, snapshot]

/-! ## One file after another -/

theorem foundIn_perm (tree : FileTree) (s : Selection) (root : String) :
    (s.foundIn tree root).Perm ((tree.files root).filter s.admits) :=
  List.mergeSort_perm _ _

theorem mem_files_of_foundIn {tree : FileTree} {s : Selection} {root f : String}
    (h : f ∈ s.foundIn tree root) : f ∈ tree.files root :=
  List.mem_of_mem_filter ((foundIn_perm tree s root).mem_iff.mp h)

theorem ofTree_eq (tree : FileTree) (s : Selection) (root : String) :
    ofTree tree s root = tried tree (s.foundIn tree root) := ofProject_eq tree.disk s root

theorem getElem?_tried (tree : FileTree) (paths : List String) (f : String) :
    (tried tree paths).byFile[f]? =
      if f ∈ paths then (goodText? f (tree.read f)).map (sourceElements f) else none := by
  rw [tried, getElem?_tryFiles]
  simp [empty]

theorem agree_of_perm (tree : FileTree) {paths others : List String} (h : paths.Perm others) :
    Agree (tried tree paths) (tried tree others) := by
  apply agree_of_getElem?
  intro f
  simp only [getElem?_tried, h.mem_iff]

theorem mem_files_tried (tree : FileTree) (paths : List String) (f : String) :
    f ∈ (tried tree paths).files ↔
      f ∈ paths ∧ ∃ source, tree.read f = .ok source ∧ (extract f source).isOk = true := by
  rw [mem_files_iff, getElem?_tried]
  split
  · next hf =>
    simp only [Option.isSome_map, Option.isSome_iff_exists, goodText?_eq_some_iff, hf, true_and,
      isOk_extract_iff]
  · next hf => simp [hf]

/-! ## Two trees -/

variable {tree other : FileTree} {place : List String} {s : Selection} {root f : String}

theorem foundIn_eq (h : tree.DiffersAt place other) :
    s.foundIn other root = s.foundIn tree root := by
  have hfiles : other.disk.files root = tree.disk.files root := (h.files_eq root).symm
  rw [Selection.foundIn, Selection.foundIn, Selection.filesOf, Selection.filesOf, hfiles]

/-- The path leads to no found file at the place. -/
def Elsewhere (tree : FileTree) (found place : List String) (f : String) : Prop :=
  f ∈ found → tree.names f ≠ place

theorem getElem?_ofTree_eq (h : tree.DiffersAt place other)
    (hf : Elsewhere tree (s.foundIn tree root) place f) :
    (ofTree other s root).byFile[f]? = (ofTree tree s root).byFile[f]? := by
  rw [ofTree_eq, ofTree_eq, foundIn_eq h, getElem?_tried, getElem?_tried]
  split
  · next hfound => rw [h.read_eq (hf hfound)]
  · rfl

theorem elementsIn_ofTree_eq (h : tree.DiffersAt place other)
    (hf : Elsewhere tree (s.foundIn tree root) place f) :
    (ofTree other s root).elementsIn f = (ofTree tree s root).elementsIn f := by
  rw [elementsIn, getElem?_ofTree_eq h hf, elementsIn]

theorem mem_shown_iff (h : x.byFile[f]? = y.byFile[f]?) {files others : List (String × Value)}
    (hx : x.Shows files) (hy : y.Shows others) (v : Value) : (f, v) ∈ files ↔ (f, v) ∈ others := by
  have helements : x.elementsIn f = y.elementsIn f := by rw [elementsIn, h, elementsIn]
  rw [hx.mem_iff, hy.mem_iff, mem_files_iff, mem_files_iff, h, helements]

/-- What the indexes of two trees have in common that differ in one place: the files that are
found, and of all of them but one the elements and the entry in a snapshot, whatever has been looked
up before. -/
structure SameElsewhere {δ : Type} [DecidableEq δ] (fingerprint : String → δ) (s : Selection)
    (root : String) (place : List String) (tree other : FileTree) : Prop where
  foundIn : s.foundIn other root = s.foundIn tree root
  elementsIn : ∀ f, Elsewhere tree (s.foundIn tree root) place f →
    (ofTree other s root).elementsIn f = (ofTree tree s root).elementsIn f
  shown : ∀ steps others : List Cache.Step,
    Set.InjOn fingerprint (Cache.presented steps ∪ (ofTree tree s root).comments) →
    Set.InjOn fingerprint (Cache.presented others ∪ (ofTree other s root).comments) →
    ∃ files files', (∃ c, (ofTree tree s root).snapshot fingerprint
        (run (Cache.step fingerprint) Cache.empty steps).2 = .ok (Json.indent (.map files), c)) ∧
      (∃ c, (ofTree other s root).snapshot fingerprint
        (run (Cache.step fingerprint) Cache.empty others).2 = .ok (Json.indent (.map files'), c)) ∧
      ∀ f, Elsewhere tree (s.foundIn tree root) place f → ∀ v, (f, v) ∈ files ↔ (f, v) ∈ files'
  unique : tree.root.WellNamed → ∀ p ∈ s.foundIn tree root, ∀ q ∈ s.foundIn tree root,
    tree.names p = place → tree.names q = place → p = q

theorem sameElsewhere_of_differsAt {δ : Type} [DecidableEq δ] (fingerprint : String → δ)
    (s : Selection) (root : String) (h : tree.DiffersAt place other) :
    SameElsewhere fingerprint s root place tree other := by
  refine ⟨foundIn_eq h, fun f hf => elementsIn_ofTree_eq h hf, ?_, ?_⟩
  · intro steps others hinj hinj'
    obtain ⟨c, hsnapshot, -⟩ := (ofTree tree s root).snapshot_after steps hinj
    obtain ⟨c', hsnapshot', -⟩ := (ofTree other s root).snapshot_after others hinj'
    refine ⟨_, _, ⟨c, hsnapshot⟩, ⟨c', hsnapshot'⟩, ?_⟩
    intro f hf v
    exact mem_shown_iff (getElem?_ofTree_eq h hf).symm (shows_entriesOf _) (shows_entriesOf _) v
  · intro hnamed p hp q hq hpnames hqnames
    exact FileTree.eq_of_mem_files hnamed (mem_files_of_foundIn hp) (mem_files_of_foundIn hq)
      (hpnames.trans hqnames.symm)

/-- The index of a project is the same in whatever order the chosen files are added. Its files are
those of the chosen ones that can be read and follow the grammar, in order. If one file of the tree
had another content, nothing would change for the others. -/
theorem ofTree_independent {δ : Type} [DecidableEq δ] (fingerprint : String → δ) (tree : FileTree)
    (s : Selection) (root : String) :
    (∀ paths, paths.Perm (s.foundIn tree root) → Agree (tried tree paths) (ofTree tree s root)) ∧
    ((ofTree tree s root).files.Pairwise fun p q => Text.bytes p < Text.bytes q) ∧
    (∀ f, f ∈ (ofTree tree s root).files ↔ f ∈ s.foundIn tree root ∧
      ∃ source, tree.at? f = .ok (.file source.toUTF8) ∧ (extract f source).isOk = true) ∧
    (tree.root.WellNamed → ∀ f ∈ s.foundIn tree root, ∃ content, tree.at? f = .ok (.file content)) ∧
    ∀ other place, tree.DiffersAt place other →
      SameElsewhere fingerprint s root place tree other := by
  refine ⟨?_, files_ascend _, ?_, ?_, ?_⟩
  · intro paths hperm
    rw [ofTree_eq]
    exact agree_of_perm tree hperm
  · intro f
    simp only [← FileTree.read_eq_ok_iff]
    rw [ofTree_eq]
    exact mem_files_tried tree _ f
  · intro hnamed f hf
    exact FileTree.at?_of_mem_files hnamed (mem_files_of_foundIn hf)
  · intro other place hdiffers
    exact sameElsewhere_of_differsAt fingerprint s root hdiffers

/-- Two files in the working folder, the first of them with these bytes. -/
def twoFiles (content : ByteArray) : FileTree where
  root := .folder [("work", .folder [("b.ts", .file content),
    ("a.ts", .file "/** @n */ class A \x7b\x7d".toUTF8)])]
  working := ["work"]

theorem wellNamed_twoFiles (content : ByteArray) : (twoFiles content).root.WellNamed := by
  have hwork : Path.IsName "work" := ⟨by decide, by decide, by decide⟩
  have hb : Path.IsName "b.ts" := ⟨by decide, by decide, by decide⟩
  have ha : Path.IsName "a.ts" := ⟨by decide, by decide, by decide⟩
  have hinner : (Entry.folder [("b.ts", .file content),
      ("a.ts", .file "/** @n */ class A \x7b\x7d".toUTF8)]).WellNamed :=
    .folder (by simpa using ⟨hb, ha⟩) (by simp) (by simpa using ⟨.file, .file⟩)
  exact .folder (by simpa using hwork) (by simp) (by simpa using hinner)

theorem ofTree_independent_twoFiles :
    let tree := twoFiles "class B \x7b\x7d".toUTF8
    Agree (tried tree ["/work/b.ts", "/work/a.ts"]) (ofTree tree .default "/work") ∧
    (ofTree (twoFiles ⟨#[0xFF]⟩) .default "../work").elementsIn "../work/a.ts" =
      (ofTree tree .default "../work").elementsIn "../work/a.ts" ∧
    ∀ p ∈ Selection.default.foundIn tree "/work", tree.names p = ["work", "b.ts"] →
      p = "/work/b.ts" := by
  intro tree
  have hwalk : (tree.files "/work").filter Selection.default.admits =
      ["/work/b.ts", "/work/a.ts"] := by decide +kernel
  have hperm : ["/work/b.ts", "/work/a.ts"].Perm (Selection.default.foundIn tree "/work") := by
    rw [← hwalk]
    exact (foundIn_perm _ _ _).symm
  have hdiffers : tree.DiffersAt ["work", "b.ts"] (twoFiles ⟨#[0xFF]⟩) :=
    ⟨rfl, @Entry.DiffersAt.folder [] [] "work" _ _ _
      (@Entry.DiffersAt.folder [] _ "b.ts" [] _ _ .file)⟩
  obtain ⟨horder, -, -, -, hother⟩ := ofTree_independent id tree .default "/work"
  obtain ⟨-, -, -, -, hother'⟩ := ofTree_independent id tree .default "../work"
  refine ⟨horder _ hperm, ?_, ?_⟩
  · exact (hother' _ _ hdiffers).elementsIn "../work/a.ts" fun _ => by decide +kernel
  · intro p hp hnames
    have hb := hperm.mem_iff.mp (List.mem_cons_self (a := "/work/b.ts"))
    exact (hother _ _ hdiffers).unique (wellNamed_twoFiles _) p hp "/work/b.ts" hb hnames
      (by decide +kernel)

end Index

end DocAnnotations
