import DocAnnotations.Proofs.FileTree.Following

/-!
# Trees that differ in one file

The same is read of all paths but those that lead to the file.
-/

namespace DocAnnotations

/-- The entries have the same files, and only the one to which the names lead may contain something
else. -/
inductive Entry.DiffersAt : List String → Entry → Entry → Prop
  | file {old new : ByteArray} : DiffersAt [] (.file old) (.file new)
  | folder {before after : List (String × Entry)} {name : String} {below : List String}
      {e other : Entry} (h : DiffersAt below e other) :
      DiffersAt (name :: below) (.folder (before ++ (name, e) :: after))
        (.folder (before ++ (name, other) :: after))

/-- The trees have the same working folder, and only one file may contain something else. -/
structure FileTree.DiffersAt (place : List String) (tree other : FileTree) : Prop where
  working : other.working = tree.working
  root : tree.root.DiffersAt place other.root

variable {place : List String}

/-! ## The walk -/

namespace Entry

theorem entryPaths_append (path : String) (before after : List (String × Entry)) :
    entryPaths path (before ++ after) = entryPaths path before ++ entryPaths path after := by
  induction before with
  | nil => rfl
  | cons x before ih => simp [entryPaths, ih]

theorem DiffersAt.filePaths_eq {e other : Entry} (h : e.DiffersAt place other) (path : String) :
    filePaths path e = filePaths path other := by
  induction h generalizing path with
  | file => rfl
  | folder _ ih => simp only [filePaths, entryPaths_append, entryPaths, ih]

/-! ## Following a path in both trees -/

/-- Two entries at which the trees have been entered through the same parts: they are the same, or
the file that differs is at or below them. -/
def Near (place : List String) (inner : List (List Char)) (e other : Entry) : Prop :=
  e = other ∨ ∃ below, e.DiffersAt below other ∧ place = inner.reverse.map String.ofList ++ below

variable {inner : List (List Char)} {e other : Entry}

theorem Near.cases (h : Near place inner e other) :
    (∃ old new, e = .file old ∧ other = .file new) ∨
      ∃ entries others, e = .folder entries ∧ other = .folder others := by
  rcases h with rfl | ⟨below, hdiffers, -⟩
  · cases e with
    | file content => exact .inl ⟨content, content, rfl, rfl⟩
    | folder entries => exact .inr ⟨entries, entries, rfl, rfl⟩
  · cases hdiffers with
    | file => exact .inl ⟨_, _, rfl, rfl⟩
    | folder => exact .inr ⟨_, _, rfl, rfl⟩

theorem Near.lookup {entries others : List (String × Entry)}
    (h : Near place inner (.folder entries) (.folder others)) (part : List Char) :
    (entries.lookup (String.ofList part) = none ∧ others.lookup (String.ofList part) = none) ∨
      ∃ e other, entries.lookup (String.ofList part) = some e ∧
        others.lookup (String.ofList part) = some other ∧ Near place (part :: inner) e other := by
  have hsame : ∀ found : Option Entry, (found = none ∧ found = none) ∨
      ∃ e other, found = some e ∧ found = some other ∧ Near place (part :: inner) e other := by
    intro found
    cases found with
    | none => exact .inl ⟨rfl, rfl⟩
    | some e => exact .inr ⟨e, e, rfl, rfl, .inl rfl⟩
  rcases h with heq | ⟨below, hdiffers, rfl⟩
  · obtain rfl := Entry.folder.inj heq
    exact hsame _
  · cases hdiffers with
    | @folder before after name below e other h =>
      simp only [List.lookup_append, List.lookup_cons]
      by_cases hname : String.ofList part = name
      · subst hname
        cases before.lookup (String.ofList part) with
        | some x => exact hsame (some x)
        | none => exact .inr ⟨e, other, by simp, by simp, .inr ⟨below, h, by simp⟩⟩
      · rw [beq_false_of_ne hname]
        exact hsame _

end Entry

namespace Spot

open Entry (Near)

/-- Two places that the same parts have led to in both trees. -/
inductive Alike (place : List String) : List (List Char) → Spot → Spot → Prop
  | root {e other : Entry} (h : Near place [] e other) : Alike place [] ⟨e, []⟩ ⟨other, []⟩
  | inner {part : List Char} {inner : List (List Char)} {e other : Entry} {s t : Spot}
      (h : Near place (part :: inner) e other) (haround : Alike place inner s t) :
      Alike place (part :: inner) ⟨e, s.here :: s.around⟩ ⟨other, t.here :: t.around⟩

variable {inner : List (List Char)} {s t : Spot}

theorem Alike.near (h : Alike place inner s t) : Near place inner s.here t.here := by
  cases h with
  | root h => exact h
  | inner h _ => exact h

theorem Alike.up (h : Alike place inner s t) : Alike place (inner.drop 1) s.up t.up := by
  cases h with
  | root h => exact .root h
  | inner _ haround => exact haround

theorem Alike.enter (h : Alike place inner s t) (part : List Char) :
    (∃ fault, s.enter part = .error fault ∧ t.enter part = .error fault) ∨
      ∃ s' t', s.enter part = .ok s' ∧ t.enter part = .ok t' ∧
        Alike place (Path.pass inner part) s' t' := by
  unfold Spot.enter Path.pass
  -- A path goes no further from a file, and from folders that differ below it finds the same names.
  obtain ⟨old, new, hs, ht⟩ | ⟨entries, others, hs, ht⟩ := h.near.cases
  · rw [hs, ht]
    exact .inl ⟨_, rfl, rfl⟩
  · have hnear := h.near
    rw [hs, ht] at hnear ⊢
    simp only
    split
    · exact .inr ⟨_, _, rfl, rfl, h⟩
    split
    · exact .inr ⟨_, _, rfl, rfl, h.up⟩
    · obtain ⟨he, hother⟩ | ⟨e, other, he, hother, hinner⟩ := hnear.lookup part
      · rw [he, hother]
        exact .inl ⟨_, rfl, rfl⟩
      · rw [he, hother]
        refine .inr ⟨_, _, rfl, rfl, ?_⟩
        rw [← hs, ← ht]
        exact .inner hinner h

theorem Alike.enterAll (h : Alike place inner s t) (parts : List (List Char)) :
    (∃ fault, parts.foldlM Spot.enter s = .error fault ∧
        parts.foldlM Spot.enter t = .error fault) ∨
      ∃ s' t', parts.foldlM Spot.enter s = .ok s' ∧ parts.foldlM Spot.enter t = .ok t' ∧
        Alike place (parts.foldl Path.pass inner) s' t' := by
  induction parts generalizing inner s t with
  | nil => exact .inr ⟨s, t, rfl, rfl, h⟩
  | cons part rest ih =>
    simp only [List.foldlM_cons, List.foldl_cons]
    obtain ⟨fault, hs, ht⟩ | ⟨s', t', hs, ht, hnext⟩ := h.enter part
    · rw [hs, ht]
      exact .inl ⟨fault, rfl, rfl⟩
    · rw [hs, ht]
      exact ih hnext

end Spot

namespace FileTree

variable {tree other : FileTree}

theorem DiffersAt.parts_eq (h : tree.DiffersAt place other) (path : String) :
    other.parts path = tree.parts path := by
  rw [parts, parts, h.working]

/-- A path leads to the same in both trees, or to where the file that differs is at or below. -/
theorem DiffersAt.at? (h : tree.DiffersAt place other) (path : String) :
    tree.at? path = other.at? path ∨
      ∃ r r' below, tree.at? path = .ok r ∧ other.at? path = .ok r' ∧ r.DiffersAt below r' ∧
        place = tree.names path ++ below := by
  unfold FileTree.at? spot?
  rw [h.parts_eq]
  split
  · exact .inl rfl
  have hroot : Spot.Alike place [] ⟨tree.root, []⟩ ⟨other.root, []⟩ := .root (.inr ⟨_, h.root, rfl⟩)
  obtain ⟨fault, hs, ht⟩ | ⟨s, t, hs, ht, hend⟩ := hroot.enterAll (tree.parts path)
  · exact .inl (by rw [hs, ht])
  · rw [hs, ht]
    obtain heq | ⟨below, hbelow, hplace⟩ := hend.near
    · exact .inl (congrArg Except.ok heq)
    · exact .inr ⟨s.here, t.here, below, rfl, rfl, hbelow, hplace⟩

theorem DiffersAt.files_eq (h : tree.DiffersAt place other) (path : String) :
    tree.files path = other.files path := by
  obtain heq | ⟨r, r', below, hr, hr', hbelow, -⟩ := h.at? path
  · rw [files, files, heq]
  · simp only [files, hr, hr', hbelow.filePaths_eq]

theorem DiffersAt.read_eq (h : tree.DiffersAt place other) {path : String}
    (hpath : tree.names path ≠ place) : tree.read path = other.read path := by
  obtain heq | ⟨r, r', below, hr, hr', hbelow, rfl⟩ := h.at? path
  · rw [read, read, heq]
  · cases hbelow with
    | file => simp at hpath
    | folder => simp only [read, hr, hr']

end FileTree

end DocAnnotations
