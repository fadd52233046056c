import DocAnnotations.Proofs.Extraction.Numbering
import DocAnnotations.Proofs.Index.Changes
import Mathlib.Data.List.Nodup
import Mathlib.Data.List.Pairwise

/-!
# Where identities are unique

An identity is put together without escapes. Elements share one where a member is
named like a numbered form, or where a path goes on like a qualified name.
-/

namespace DocAnnotations

/-- The names of the classes and members of a source, before they are numbered. -/
def bareNames (path source : String) : List String :=
  ((Script.Module.ofSource? (.ofFile path) source).map (·.findings.map (·.name))).getD []

namespace Index

variable {x : Index}

/-! ## The elements of an index, file by file -/

open Std.DTreeMap.Internal in
theorem values_eq (t : Std.TreeMap String (List Element)) : t.values = t.toList.map (·.2) := by
  rw [Std.TreeMap.values, Std.DTreeMap.values, Impl.values_eq_map_snd, Std.TreeMap.toList,
    Std.DTreeMap.Const.toList, Impl.Const.toList_eq_toListModel_map]
  simp

theorem elements_eq (x : Index) : x.elements = x.files.flatMap x.elementsIn := by
  have hheld : ∀ p ∈ x.byFile.toList, p.2 = x.elementsIn p.1 := by
    rintro ⟨path, es⟩ h
    rw [Std.TreeMap.mem_toList_iff_getElem?_eq_some] at h
    rw [elementsIn, h]
    rfl
  rw [elements, values_eq, files, ← Std.TreeMap.map_fst_toList_eq_keys, List.flatMap_def,
    List.map_map]
  exact congrArg List.flatten (List.map_congr_left hheld)

theorem nodup_files (x : Index) : x.files.Nodup := Std.TreeMap.nodup_keys

theorem mem_files_of_mem_elementsIn (path : String) (e : Element) (h : e ∈ x.elementsIn path) :
    path ∈ x.files := by
  rw [mem_files_iff]
  unfold elementsIn at h
  cases hes : x.byFile[path]? with
  | none => simp [hes] at h
  | some es => rfl

theorem mem_elements_iff (e : Element) : e ∈ x.elements ↔ ∃ path, e ∈ x.elementsIn path := by
  rw [elements_eq, List.mem_flatMap]
  constructor
  · rintro ⟨path, -, h⟩
    exact ⟨path, h⟩
  · rintro ⟨path, h⟩
    exact ⟨path, mem_files_of_mem_elementsIn path e h, h⟩

/-- Every element says in which file it is, and has its identity from there. -/
def Labelled (x : Index) : Prop :=
  ∀ path, ∀ e ∈ x.elementsIn path,
    e.filePath = path ∧ e.identity = Element.identityOf path e.qualifiedName

theorem labelled_after (changes : List Change) : (after changes).Labelled := by
  intro path e he
  rw [elementsIn_after] at he
  cases hsource : latestSource path changes with
  | none => simp [hsource] at he
  | some source =>
    obtain ⟨m, -, hes⟩ := extract_eq_ok_iff.mp (extract_latestSource changes hsource)
    rw [hsource, Option.map_some, Option.getD_some, hes] at he
    exact Element.mem_ofFindings path m.findings e he

/-! ## Two files -/

/-- No path leads on from another in the way in which the other's qualified names do. -/
def PathsApart (x : Index) : Prop :=
  ∀ path more, more ≠ "" → ∀ e ∈ x.elementsIn path, ∀ e' ∈ x.elementsIn (path ++ more),
    Element.separator ++ e.qualifiedName ≠ more ++ Element.separator ++ e'.qualifiedName

theorem identityOf_append (path more qualifiedName : String) :
    Element.identityOf (path ++ more) qualifiedName =
      path ++ (more ++ Element.separator ++ qualifiedName) := by
  simp only [Element.identityOf, String.append_assoc]

theorem identityOf_eq_cases {p q u v : String}
    (h : Element.identityOf p u = Element.identityOf q v) :
    (∃ more, q = p ++ more ∧ Element.separator ++ u = more ++ Element.separator ++ v) ∨
      ∃ more, p = q ++ more ∧ Element.separator ++ v = more ++ Element.separator ++ u := by
  have hlist := congrArg String.toList h
  simp only [Element.identityOf, String.toList_append, List.append_assoc] at hlist
  -- One of the paths begins with the other.
  rcases List.append_eq_append_iff.mp hlist with ⟨more, hpath, hrest⟩ | ⟨more, hpath, hrest⟩
  · left
    refine ⟨String.ofList more, String.toList_inj.mp ?_, String.toList_inj.mp ?_⟩
    · simpa using hpath
    · simpa using hrest
  · right
    refine ⟨String.ofList more, String.toList_inj.mp ?_, String.toList_inj.mp ?_⟩
    · simpa using hpath
    · simpa using hrest

theorem ne_append_of_ne_empty (p more : String) (h : more ≠ "") : p ≠ p ++ more := by
  intro heq
  apply h
  have hlist := congrArg String.toList heq
  simpa using hlist

theorem pathsApart_iff (h : x.Labelled) :
    x.PathsApart ↔ ∀ p q, p ≠ q → ∀ e ∈ x.elementsIn p, ∀ e' ∈ x.elementsIn q,
      e.identity ≠ e'.identity := by
  constructor
  · intro hapart p q hpq e he e' he' hsame
    rw [(h p e he).2, (h q e' he').2] at hsame
    rcases identityOf_eq_cases hsame with ⟨more, rfl, heq⟩ | ⟨more, rfl, heq⟩
    · exact hapart p more (by rintro rfl; simp at hpq) e he e' he' heq
    · exact hapart q more (by rintro rfl; simp at hpq) e' he' e he heq
  · intro hdiff path more hmore e he e' he' heq
    apply hdiff path (path ++ more) (ne_append_of_ne_empty path more hmore) e he e' he'
    rw [(h path e he).2, (h _ e' he').2, identityOf_append, ← heq]
    exact String.append_assoc

/-! ## One file -/

theorem nodup_identities_elementsIn_iff (h : x.Labelled) (path : String) :
    ((x.elementsIn path).map (·.identity)).Nodup ↔
      ((x.elementsIn path).map (·.qualifiedName)).Nodup :=
  Element.nodup_identities_iff fun e he => (h path e he).2

theorem nodup_identities_iff (h : x.Labelled) :
    (x.elements.map (·.identity)).Nodup ↔
      (∀ path ∈ x.files, ((x.elementsIn path).map (·.qualifiedName)).Nodup) ∧ x.PathsApart := by
  rw [elements_eq, List.map_flatMap, List.nodup_flatMap, pathsApart_iff h]
  simp only [nodup_identities_elementsIn_iff h]
  apply and_congr_right'
  constructor
  · intro hpair p q hpq e he e' he' hsame
    have hp := mem_files_of_mem_elementsIn p e he
    have hq := mem_files_of_mem_elementsIn q e' he'
    have : Std.Symm (Function.onFun List.Disjoint fun p => (x.elementsIn p).map (·.identity)) :=
      ⟨fun _ _ hd _ hp hq => hd hq hp⟩
    apply hpair.forall hp hq hpq (List.mem_map_of_mem he)
    exact List.mem_map.mpr ⟨e', he', hsame.symm⟩
  · intro hdiff
    apply x.nodup_files.pairwise_of_forall_ne
    intro p _ q _ hpq identity hp hq
    obtain ⟨e, he, rfl⟩ := List.mem_map.mp hp
    obtain ⟨e', he', hsame⟩ := List.mem_map.mp hq
    exact hdiff p q hpq e he e' he' hsame.symm

/-! ## Looking up -/

theorem find?_of_unique {α β : Type} [DecidableEq β] (f : α → β) (l : List α) (a : α) (ha : a ∈ l)
    (hf : ∀ b ∈ l, f b = f a → b = a) : l.find? (f · = f a) = some a := by
  cases h : l.find? (f · = f a) with
  | none =>
    have hne := List.find?_eq_none.mp h a ha
    simp at hne
  | some b =>
    have hb := List.find?_some h
    rw [hf b (List.mem_of_find?_eq_some h) (by simpa using hb)]

theorem element_of_unique (e : Element) (he : e ∈ x.elements)
    (hunique : ∀ e' ∈ x.elements, e'.identity = e.identity → e' = e) :
    x.element e.identity = .ok e := by
  rw [element, find?_of_unique (·.identity) x.elements e he hunique]

theorem find_of_unique (h : x.Labelled) (e : Element) (he : e ∈ x.elements)
    (hunique : ∀ e' ∈ x.elements, e'.identity = e.identity → e' = e) :
    x.find e.filePath e.qualifiedName = .ok e := by
  obtain ⟨path, hpath⟩ := (mem_elements_iff e).mp he
  have hfile : e.filePath = path := (h path e hpath).1
  have hname : ∀ e' ∈ x.elementsIn e.filePath, e'.qualifiedName = e.qualifiedName → e' = e := by
    rw [hfile]
    intro e' he' hsame
    apply hunique e' ((mem_elements_iff e').mpr ⟨path, he'⟩)
    rw [(h path e' he').2, (h path e hpath).2, hsame]
  rw [find, find?_of_unique (·.qualifiedName) _ e (hfile ▸ hpath) hname]

/-! ## Reached indexes -/

theorem qualifiedNames_after (changes : List Change) (path source : String)
    (h : latestSource path changes = some source) :
    ((after changes).elementsIn path).map (·.qualifiedName) =
      numberNames [] (bareNames path source) := by
  obtain ⟨m, hm, hes⟩ := extract_eq_ok_iff.mp (extract_latestSource changes h)
  rw [elementsIn_after, h, Option.map_some, Option.getD_some, hes]
  simp only [bareNames, hm, Option.map_some, Option.getD_some]
  exact Element.qualifiedNames_ofFindings path m.findings

theorem lookups_of_nodup (h : x.Labelled) (hnodup : (x.elements.map (·.identity)).Nodup)
    (e : Element) (he : e ∈ x.elements) :
    x.find e.filePath e.qualifiedName = .ok e ∧ x.element e.identity = .ok e := by
  have hunique : ∀ e' ∈ x.elements, e'.identity = e.identity → e' = e :=
    fun e' he' => List.inj_on_of_nodup_map hnodup he' he
  exact ⟨find_of_unique h e he hunique, element_of_unique e he hunique⟩

/-- Identities are unique exactly if in no file a numbered name is also the name of something else
and no path leads on from another. Then both lookups give every element back. -/
theorem identities_unique_iff (changes : List Change) :
    (((after changes).elements.map (·.identity)).Nodup ↔
      (∀ path source, latestSource path changes = some source →
        NumbersApart (bareNames path source)) ∧ (after changes).PathsApart) ∧
    (((after changes).elements.map (·.identity)).Nodup → ∀ e ∈ (after changes).elements,
      (after changes).find e.filePath e.qualifiedName = .ok e ∧
        (after changes).element e.identity = .ok e) := by
  have hlabelled := labelled_after changes
  refine ⟨?_, fun hnodup e he => lookups_of_nodup hlabelled hnodup e he⟩
  rw [nodup_identities_iff hlabelled]
  apply and_congr_left'
  constructor
  · intro h path source hsource
    have hpath : path ∈ (after changes).files := by simp [mem_files_after, hsource]
    rw [← nodup_numberNames_iff, ← qualifiedNames_after changes path source hsource]
    exact h path hpath
  · intro h path hpath
    obtain ⟨source, hsource⟩ := Option.isSome_iff_exists.mp ((mem_files_after _ _).mp hpath)
    rw [qualifiedNames_after changes path source hsource, nodup_numberNames_iff]
    exact h path source hsource

/-- Members whose written name looks like a numbered one, and files whose path goes on like a
qualified name. -/
theorem identities_shared :
    let one := after [.source "a.js" "class A \x7b\n  m;\n  m;\n  'm#2';\n\x7d"]
    let two := after [.source "a" "class A \x7b B; \x7d", .source "a::A" "class B \x7b\x7d"]
    (∃ e ∈ one.elements, ∃ e' ∈ one.elements, e ≠ e' ∧ e.identity = e'.identity ∧
      one.find e'.filePath e'.qualifiedName = .ok e ∧ one.element e'.identity = .ok e) ∧
    ∃ e ∈ two.elements, ∃ e' ∈ two.elements, e.filePath ≠ e'.filePath ∧
      e.identity = e'.identity ∧ two.element e'.identity = .ok e := by
  decide +kernel

end Index

end DocAnnotations
