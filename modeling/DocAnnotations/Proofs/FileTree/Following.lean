import DocAnnotations.Proofs.FileTree.Components
import DocAnnotations.Proofs.Text.Bytes

/-!
# Following a path

A path leads from the root to one place, and what a walk finds there is read where
the walk found it.
-/

namespace DocAnnotations

/-! ## One part after another -/

namespace Spot

/-- Everything that has been come to is well named. -/
structure WellNamed (s : Spot) : Prop where
  here : s.here.WellNamed
  around : ∀ e ∈ s.around, e.WellNamed

variable {s t : Spot} {part : List Char}

theorem WellNamed.up (h : s.WellNamed) : s.up.WellNamed := by
  obtain ⟨here, around⟩ := s
  cases around with
  | nil => exact h
  | cons parent above =>
    obtain ⟨hparent, habove⟩ := List.forall_mem_cons.mp h.around
    exact ⟨hparent, habove⟩

theorem WellNamed.enter (h : s.WellNamed) (heq : s.enter part = .ok t) : t.WellNamed := by
  unfold Spot.enter at heq
  split at heq
  · simp at heq
  next entries hfolder =>
  split at heq
  · exact Except.ok.inj heq ▸ h
  split at heq
  · exact Except.ok.inj heq ▸ h.up
  split at heq
  · next inner hlookup =>
    obtain rfl := Except.ok.inj heq
    have hhere := h.here
    rw [hfolder] at hhere
    cases hhere with
    | folder _ _ hinner =>
      exact ⟨hinner _ (Entry.mem_of_lookup hlookup), List.forall_mem_cons.mpr ⟨h.here, h.around⟩⟩
  · simp at heq

theorem bind_eq_ok {x : Except ReadFault Spot} {f : Spot → Except ReadFault Spot}
    (h : x >>= f = .ok t) : ∃ s, x = .ok s ∧ f s = .ok t := by
  cases x with
  | error fault => cases h
  | ok s => exact ⟨s, rfl, h⟩

theorem WellNamed.enterAll {parts : List (List Char)} (h : s.WellNamed)
    (heq : parts.foldlM Spot.enter s = .ok t) : t.WellNamed := by
  induction parts generalizing s with
  | nil => exact Except.ok.inj heq ▸ h
  | cons part rest ih =>
    rw [List.foldlM_cons] at heq
    obtain ⟨next, hnext, hrest⟩ := bind_eq_ok heq
    exact ih (h.enter hnext) hrest

theorem foldlM_concat (s : Spot) (parts : List (List Char)) (part : List Char) :
    (parts ++ [part]).foldlM enter s = parts.foldlM enter s >>= fun t => t.enter part := by
  simp [List.foldlM_append]

theorem enter_nil_eq_ok (h : s.enter [] = .ok t) : t = s := by
  unfold enter at h
  split at h
  · simp at h
  · exact (Except.ok.inj h).symm

variable {entries : List (String × Entry)} {name : String} {inner : Entry}

theorem enter_name (hwell : s.WellNamed) (hfolder : s.here = .folder entries)
    (hmem : (name, inner) ∈ entries) :
    Path.IsName name ∧ s.enter name.toList = .ok ⟨inner, s.here :: s.around⟩ := by
  have hhere := hwell.here
  rw [hfolder] at hhere
  cases hhere with
  | folder hnames hdistinct _ =>
    have hname : Path.IsName name := hnames _ hmem
    refine ⟨hname, ?_⟩
    rw [enter, hfolder]
    simp only [hname.noStay, hname.noUp, Bool.false_eq_true, if_false, String.ofList_toList,
      Entry.lookup_of_mem hdistinct hmem]

end Spot

/-! ## A path and the names below it -/

namespace FileTree

variable {tree : FileTree} {path p root : String} {e : Entry} {s : Spot}

theorem ne_empty_of_spot? (h : tree.spot? path = .ok s) : path ≠ "" := by
  rintro rfl
  simp [spot?] at h

theorem at?_eq_ok_iff : tree.at? path = .ok e ↔ ∃ s, tree.spot? path = .ok s ∧ s.here = e := by
  unfold at?
  cases tree.spot? path <;> simp [Except.map]

theorem ne_empty_of_at? (h : tree.at? path = .ok e) : path ≠ "" := by
  obtain ⟨s, hs, -⟩ := at?_eq_ok_iff.mp h
  exact ne_empty_of_spot? hs

theorem wellNamed_spot? (h : tree.root.WellNamed) (hs : tree.spot? path = .ok s) :
    s.WellNamed := by
  rw [spot?, if_neg (ne_empty_of_spot? hs)] at hs
  exact Spot.WellNamed.enterAll ⟨h, by simp⟩ hs

theorem wellNamed_at? (h : tree.root.WellNamed) (he : tree.at? path = .ok e) : e.WellNamed := by
  obtain ⟨s, hs, rfl⟩ := at?_eq_ok_iff.mp he
  exact (wellNamed_spot? h hs).here

theorem parts_join (tree : FileTree) (hpath : path ≠ "") {name : String}
    (hname : Path.IsName name) :
    ∃ front, (tree.parts path = front ∨ tree.parts path = front ++ [[]]) ∧
      tree.parts (Path.join path name) = front ++ [name.toList] := by
  obtain ⟨cs, hcs, hjoin⟩ := Path.exists_join path
  have hne : path.toList ≠ [] := fun h => hpath (String.toList_eq_nil_iff.mp h)
  -- Both paths start at the root, or both in the working folder.
  have hhead : (Path.join path name).toList.head? = path.toList.head? := by
    rw [hjoin]
    rcases hcs with hcs | ⟨hcs, -⟩
    · cases cs <;> simp [hcs]
    · obtain ⟨c, rest, hc⟩ := List.exists_cons_of_ne_nil (hcs ▸ hne)
      simp [hcs, hc]
  unfold parts
  rw [hhead, hjoin, Path.split_slash, Path.split_of_not_mem hname.noSlash]
  generalize (if path.toList.head? = some '/' then [] else tree.working.map String.toList) = start
  refine ⟨start ++ Path.split cs, ?_, (List.append_assoc _ _ _).symm⟩
  rcases hcs with hcs | ⟨hcs, -⟩
  · right
    rw [hcs, Path.split_slash, List.append_assoc]
    rfl
  · left
    rw [hcs]

theorem names_join (tree : FileTree) (hpath : path ≠ "") {name : String}
    (hname : Path.IsName name) : tree.names (Path.join path name) = tree.names path ++ [name] := by
  obtain ⟨front, hfront, hjoin⟩ := tree.parts_join hpath hname
  have hsame : tree.names path = Path.names front := by
    unfold names
    rcases hfront with hfront | hfront
    · rw [hfront]
    · rw [hfront, Path.names, List.foldl_append]
      rfl
  rw [hsame, names, hjoin, Path.names, List.foldl_append, List.foldl_cons, List.foldl_nil,
    Path.pass, hname.noStay, hname.noUp]
  simp [Path.names]

theorem names_foldl_join (tree : FileTree) (hpath : path ≠ "") {below : List String}
    (hbelow : ∀ name ∈ below, Path.IsName name) :
    tree.names (below.foldl Path.join path) = tree.names path ++ below := by
  induction below generalizing path with
  | nil => simp
  | cons name below ih =>
    rw [List.forall_mem_cons] at hbelow
    rw [List.foldl_cons, ih (Path.join_ne_empty path name) hbelow.2, tree.names_join hpath hbelow.1,
      List.append_assoc, List.singleton_append]

theorem spot?_join (hs : tree.spot? path = .ok s) {name : String} (hname : Path.IsName name) :
    tree.spot? (Path.join path name) = s.enter name.toList := by
  have hpath := ne_empty_of_spot? hs
  obtain ⟨front, hfront, hjoin⟩ := tree.parts_join hpath hname
  rw [spot?, if_neg hpath] at hs
  rw [spot?, if_neg (Path.join_ne_empty path name), hjoin, Spot.foldlM_concat]
  rcases hfront with hfront | hfront
  · rw [← hfront, hs]
    rfl
  · rw [hfront, Spot.foldlM_concat] at hs
    obtain ⟨inner, hinner, hend⟩ := Spot.bind_eq_ok hs
    rw [hinner, Spot.enter_nil_eq_ok hend]
    rfl

/-- The names on the way to a file lead to it from wherever the walk began. -/
theorem at?_foldl_join {names : List String} {content : ByteArray} (hs : tree.spot? path = .ok s)
    (hwell : s.WellNamed) (hholds : s.here.Holds names content) :
    tree.at? (names.foldl Path.join path) = .ok (.file content) := by
  generalize he : s.here = e at hholds
  induction hholds generalizing path s with
  | file => exact at?_eq_ok_iff.mpr ⟨s, hs, he⟩
  | @folder entries name inner below content hmem hbelow ih =>
    obtain ⟨hname, henter⟩ := Spot.enter_name hwell he hmem
    rw [List.foldl_cons]
    exact ih (by rw [spot?_join hs hname, henter]) (hwell.enter henter) rfl

/-! ## The files at or below a path -/

theorem mem_files_iff (h : tree.root.WellNamed) (root p : String) :
    p ∈ tree.files root ↔ ∃ inner names content, tree.at? root = .ok inner ∧
      inner.Holds names content ∧ p = Path.below root names := by
  unfold files
  cases hinner : tree.at? root with
  | error fault => simp
  | ok inner =>
    have hjoin : ∀ names content, inner.Holds names content →
        names.foldl Path.join root = Path.below root names := by
      intro names content hholds
      exact Path.foldl_join (hholds.isName (wellNamed_at? h hinner))
    rw [Entry.mem_filePaths_iff]
    constructor
    · rintro ⟨names, content, hholds, rfl⟩
      exact ⟨inner, names, content, rfl, hholds, hjoin names content hholds⟩
    · rintro ⟨inner', names, content, heq, hholds, rfl⟩
      obtain rfl := Except.ok.inj heq
      exact ⟨names, content, hholds, (hjoin names content hholds).symm⟩

theorem at?_of_mem_files (h : tree.root.WellNamed) (hp : p ∈ tree.files root) :
    ∃ content, tree.at? p = .ok (.file content) := by
  obtain ⟨inner, names, content, hroot, hholds, rfl⟩ := (mem_files_iff h root p).mp hp
  obtain ⟨s, hs, rfl⟩ := at?_eq_ok_iff.mp hroot
  have hwell := wellNamed_spot? h hs
  rw [← Path.foldl_join (hholds.isName hwell.here)]
  exact ⟨content, at?_foldl_join hs hwell hholds⟩

theorem eq_of_mem_files (h : tree.root.WellNamed) {q : String} (hp : p ∈ tree.files root)
    (hq : q ∈ tree.files root) (heq : tree.names p = tree.names q) : p = q := by
  obtain ⟨inner, below, content, hroot, hholds, rfl⟩ := (mem_files_iff h root p).mp hp
  obtain ⟨inner', below', content', hroot', hholds', rfl⟩ := (mem_files_iff h root q).mp hq
  obtain rfl := Except.ok.inj (hroot.symm.trans hroot')
  have hbelow := hholds.isName (wellNamed_at? h hroot)
  have hbelow' := hholds'.isName (wellNamed_at? h hroot)
  -- Both are named by the root of the walk, so the names on the way from there are the same.
  rw [← Path.foldl_join hbelow, ← Path.foldl_join hbelow',
    tree.names_foldl_join (ne_empty_of_at? hroot) hbelow,
    tree.names_foldl_join (ne_empty_of_at? hroot) hbelow', List.append_cancel_left_eq] at heq
  rw [heq]

/-! ## Reading -/

theorem read_eq_ok_iff (source : String) :
    tree.read path = .ok source ↔ tree.at? path = .ok (.file source.toUTF8) := by
  unfold read
  cases tree.at? path with
  | error fault => simp
  | ok e =>
    cases e with
    | folder entries => simp
    | file content =>
      simp only [Except.ok.injEq, Entry.file.injEq, ← Text.fromUTF8?_eq_some_iff]
      cases String.fromUTF8? content <;> simp

end FileTree

end DocAnnotations
