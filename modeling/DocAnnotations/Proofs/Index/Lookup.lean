import DocAnnotations.Proofs.Extraction.Names
import DocAnnotations.Proofs.Index.Identity
import Mathlib.Data.List.Find
import Mathlib.Data.List.Infix

/-!
# Both ways of looking up an element

Where no path has a separator in it, looking up by identity and by file and name
agree but for one case: a name that starts with a colon.
-/

namespace DocAnnotations

/-! ## Searching in any order -/

theorem findSome?_of_unique {α β : Type} {f : α → Option β} {l : List α} {a : α} (ha : a ∈ l)
    (hf : ∀ b ∈ l, b ≠ a → f b = none) : l.findSome? f = f a := by
  cases h : l.findSome? f with
  | none => exact (List.findSome?_eq_none_iff.mp h a ha).symm
  | some c =>
    obtain ⟨b, hb, hbc⟩ := List.exists_of_findSome?_eq_some h
    have hba : b = a := by
      by_contra hne
      rw [hf b hb hne] at hbc
      cases hbc
    rw [← hba, hbc]

namespace Index

variable {x : Index}

/-- The first element with an identity, the files being searched in a given order. -/
def elementAmong (x : Index) (paths : List String) (identity : String) : Except Error Element :=
  match (paths.flatMap x.elementsIn).find? (·.identity = identity) with
  | some e => .ok e
  | none => .error (.notIndexed identity)

theorem elementAmong_files (x : Index) (identity : String) :
    x.elementAmong x.files identity = x.element identity := by
  rw [element, elements_eq]
  rfl

theorem count_eq (x : Index) : x.count = (x.files.map fun f => (x.elementsIn f).length).sum := by
  rw [count, elements_eq, List.length_flatMap]

theorem exists_elementAmong_iff {paths : List String} (hpaths : paths.Perm x.files)
    (identity : String) : (∃ e, x.elementAmong paths identity = .ok e) ↔
      ∃ f ∈ x.files, ∃ e ∈ x.elementsIn f, e.identity = identity := by
  have hfound : (∃ e, x.elementAmong paths identity = .ok e) ↔
      ((paths.flatMap x.elementsIn).find? (·.identity = identity)).isSome := by
    rw [elementAmong]
    cases (paths.flatMap x.elementsIn).find? (·.identity = identity) <;> simp
  simp only [hfound, List.find?_isSome, List.mem_flatMap, hpaths.mem_iff, decide_eq_true_eq]
  constructor
  · rintro ⟨e, ⟨f, hf, he⟩, hid⟩
    exact ⟨f, hf, e, he, hid⟩
  · rintro ⟨f, hf, e, he, hid⟩
    exact ⟨e, ⟨f, hf, he⟩, hid⟩

/-! ## Cutting an identity -/

/-- That a path has no separator in it. -/
def Unseparated (path : String) : Prop := ∀ before behind, path ≠ before ++ "::" ++ behind

theorem unseparated_iff (path : String) :
    Unseparated path ↔ ¬ "::".toList <:+: path.toList := by
  constructor
  · rintro h ⟨before, behind, hcut⟩
    refine h (String.ofList before) (String.ofList behind) (String.toList_inj.mp ?_)
    simpa using hcut.symm
  · rintro h before behind rfl
    exact h ⟨before.toList, behind.toList, by simp⟩

instance (path : String) : Decidable (Unseparated path) :=
  decidable_of_iff _ (unseparated_iff path).symm

theorem eq_colon_of_append {path more u v : String} (hpath : Unseparated (path ++ more))
    (h : Element.separator ++ u = more ++ Element.separator ++ v) :
    (more = "" ∧ u = v) ∨ (more = ":" ∧ u = ":" ++ v) := by
  have hlist : ':' :: ':' :: u.toList = more.toList ++ ':' :: ':' :: v.toList := by
    have hchars := congrArg String.toList h
    simpa [Element.separator] using hchars
  -- Two separators overlap in one colon, in two, or not at all.
  match hmore : more.toList with
  | [] =>
    rw [hmore] at hlist
    refine .inl ⟨String.toList_inj.mp hmore, String.toList_inj.mp ?_⟩
    simpa using hlist
  | [c] =>
    rw [hmore] at hlist
    obtain ⟨rfl, hu⟩ : c = ':' ∧ u.toList = ':' :: v.toList := by
      simpa [eq_comm] using hlist
    refine .inr ⟨String.toList_inj.mp hmore, String.toList_inj.mp ?_⟩
    simpa using hu
  | c :: d :: rest =>
    rw [hmore] at hlist
    obtain ⟨rfl, rfl, -⟩ : c = ':' ∧ d = ':' ∧ u.toList = rest ++ ':' :: ':' :: v.toList := by
      simpa [eq_comm] using hlist
    refine absurd (String.toList_inj.mp ?_) (hpath path (String.ofList rest))
    simp [hmore]

/-- Two identities in files without a separator in their paths are the same only if file and name
are, but for a colon that may belong to the one or to the other. -/
theorem identityOf_eq_iff {f g q v : String} (hf : Unseparated f) (hg : Unseparated g)
    (hv : v.toList.head? ≠ some ':') :
    Element.identityOf g v = Element.identityOf f q ↔
      (g = f ∧ v = q) ∨ (g = f ++ ":" ∧ q = ":" ++ v) := by
  constructor
  · intro h
    rcases identityOf_eq_cases h with ⟨more, rfl, heq⟩ | ⟨more, rfl, heq⟩
    · rcases eq_colon_of_append hf heq with ⟨rfl, rfl⟩ | ⟨rfl, rfl⟩
      · exact .inl ⟨String.append_empty.symm, rfl⟩
      · simp at hv
    · rcases eq_colon_of_append hg heq with ⟨rfl, rfl⟩ | ⟨rfl, rfl⟩
      · exact .inl ⟨String.append_empty, rfl⟩
      · exact .inr ⟨rfl, rfl⟩
  · rintro (⟨rfl, rfl⟩ | ⟨rfl, rfl⟩)
    · rfl
    · rw [identityOf_append, Element.identityOf, Element.separator]
      simp only [String.append_assoc]
      rfl

/-! ## Finding by name -/

/-- What a search for a name among elements has to give: the first that is called so, or that
the text is not indexed. -/
def FirstNamed (es : List Element) (name text : String) : Except Error Element → Prop
  | .ok e => ∃ before behind, es = before ++ e :: behind ∧ e.qualifiedName = name ∧
      ∀ e' ∈ before, e'.qualifiedName ≠ name
  | .error err => err = .notIndexed text ∧ ∀ e ∈ es, e.qualifiedName ≠ name

theorem firstNamed_find (x : Index) (f q : String) :
    FirstNamed (x.elementsIn f) q (f ++ "::" ++ q) (x.find f q) := by
  rw [find]
  cases h : (x.elementsIn f).find? (·.qualifiedName = q) with
  | none => exact ⟨rfl, by simpa using h⟩
  | some e =>
    obtain ⟨hname, before, behind, hcut, hbefore⟩ := List.find?_eq_some_iff_append.mp h
    exact ⟨before, behind, hcut, by simpa using hname, by simpa using hbefore⟩

theorem find_of_missing {f q : String} (h : ∀ e ∈ x.elementsIn f, e.qualifiedName ≠ q) :
    x.find f q = .error (.notIndexed (f ++ "::" ++ q)) := by
  have hnone : (x.elementsIn f).find? (·.qualifiedName = q) = none := by simpa using h
  rw [find, hnone]
  rfl

theorem exists_find {f : String} {e : Element} (he : e ∈ x.elementsIn f) :
    ∃ e', x.find f e.qualifiedName = .ok e' := by
  have hfirst := firstNamed_find x f e.qualifiedName
  cases h : x.find f e.qualifiedName with
  | ok e' => exact ⟨e', rfl⟩
  | error err =>
    rw [h] at hfirst
    exact absurd rfl (hfirst.2 e he)

theorem elementAmong_eq_find (h : x.Labelled) {paths : List String} {f q : String}
    (hf : f ∈ paths)
    (hother : ∀ g ∈ paths, g ≠ f → ∀ e ∈ x.elementsIn g, e.identity ≠ Element.identityOf f q) :
    x.elementAmong paths (Element.identityOf f q) = x.find f q := by
  have hnone : ∀ g ∈ paths, g ≠ f →
      (x.elementsIn g).find? (·.identity = Element.identityOf f q) = none := by
    intro g hg hne
    rw [List.find?_eq_none]
    intro e he
    simpa using hother g hg hne e he
  have hname : (x.elementsIn f).find? (·.identity = Element.identityOf f q) =
      (x.elementsIn f).find? (·.qualifiedName = q) := by
    apply List.find?_congr
    intro e he
    rw [(h f e he).2]
    exact decide_eq_decide.mpr (Element.identityOf_injective f).eq_iff
  rw [elementAmong, List.find?_flatMap, findSome?_of_unique hf hnone, hname]
  rfl

/-! ## Paths without a separator -/

/-- That no path has a separator in it, and no name starts with a colon. -/
structure Clear (x : Index) : Prop where
  labelled : x.Labelled
  unseparated : ∀ f ∈ x.files, Unseparated f
  head_ne : ∀ f, ∀ e ∈ x.elementsIn f, e.qualifiedName.toList.head? ≠ some ':'

theorem Clear.cases_of_identity (h : x.Clear) {f g q : String} (hf : f ∈ x.files) {e : Element}
    (he : e ∈ x.elementsIn g) (hid : e.identity = Element.identityOf f q) :
    (g = f ∧ e.qualifiedName = q) ∨ (g = f ++ ":" ∧ q = ":" ++ e.qualifiedName) := by
  rw [(h.labelled g e he).2] at hid
  have hg := h.unseparated g (mem_files_of_mem_elementsIn g e he)
  exact (identityOf_eq_iff (h.unseparated f hf) hg (h.head_ne g e he)).mp hid

variable {paths : List String} {f : String}

theorem Clear.elementAmong_eq_find (h : x.Clear) (hpaths : paths.Perm x.files) (hf : f ∈ x.files)
    {q : String} (hq : ∀ e ∈ x.elementsIn (f ++ ":"), q ≠ ":" ++ e.qualifiedName) :
    x.elementAmong paths (f ++ "::" ++ q) = x.find f q := by
  apply Index.elementAmong_eq_find h.labelled (hpaths.mem_iff.mpr hf)
  intro g _ hne e he hid
  rcases h.cases_of_identity hf he hid with ⟨rfl, -⟩ | ⟨rfl, hcolon⟩
  · exact hne rfl
  · exact hq e he hcolon

theorem Clear.elementAmong_colon (h : x.Clear) (hpaths : paths.Perm x.files) (hf : f ∈ x.files)
    {e : Element} (he : e ∈ x.elementsIn (f ++ ":")) :
    x.elementAmong paths (f ++ "::" ++ (":" ++ e.qualifiedName)) =
      x.find (f ++ ":") e.qualifiedName := by
  have hfile : f ++ ":" ∈ x.files := mem_files_of_mem_elementsIn _ e he
  have htext : Element.identityOf (f ++ ":") e.qualifiedName =
      Element.identityOf f (":" ++ e.qualifiedName) :=
    (identityOf_eq_iff (h.unseparated f hf) (h.unseparated _ hfile) (h.head_ne _ e he)).mpr
      (.inr ⟨rfl, rfl⟩)
  refine Eq.trans (congrArg _ htext.symm) ?_
  -- No other file has the identity: its element would have a name that starts with a colon.
  apply Index.elementAmong_eq_find h.labelled (hpaths.mem_iff.mpr hfile)
  intro g _ hne e' he' hid
  rcases h.cases_of_identity hf he' (hid.trans htext) with ⟨rfl, hname⟩ | ⟨rfl, -⟩
  · apply h.head_ne g e' he'
    simp [hname]
  · exact hne rfl

/-! ## Reached indexes -/

theorem head?_ne_colon_after (changes : List Change) {e : Element}
    (he : e ∈ (after changes).elementsIn f) : e.qualifiedName.toList.head? ≠ some ':' := by
  rw [elementsIn_after] at he
  cases hsource : latestSource f changes with
  | none => simp [hsource] at he
  | some source =>
    rw [hsource, Option.map_some, Option.getD_some] at he
    have hextract := extract_latestSource changes hsource
    exact (Element.startsNamed_of_mem_extract hextract he).head?_ne_colon

/-- An element knows its file and its name, and is found by its identity exactly if it is there.
Where no path has a separator in it, a file and a name find what the identity made of them finds,
and fail alike; only a colon in front of a name may belong to the path of another file, and then
the identity alone finds the element there. -/
theorem lookups_agree (changes : List Change) :
    let x := after changes
    (∀ f, ∀ e ∈ x.elementsIn f,
      e.filePath = f ∧ e.identity = f ++ "::" ++ e.qualifiedName) ∧
    x.count = (x.files.map fun f => (x.elementsIn f).length).sum ∧
    (∀ id, x.elementAmong x.files id = x.element id) ∧
    (∀ paths, paths.Perm x.files → ∀ id, (∃ e, x.elementAmong paths id = .ok e) ↔
      ∃ f ∈ x.files, ∃ e ∈ x.elementsIn f, e.identity = id) ∧
    ((∀ f ∈ x.files, Unseparated f) → ∀ paths, paths.Perm x.files → ∀ f ∈ x.files,
      (∀ q, (∀ e ∈ x.elementsIn (f ++ ":"), q ≠ ":" ++ e.qualifiedName) →
        x.elementAmong paths (f ++ "::" ++ q) = x.find f q ∧
        FirstNamed (x.elementsIn f) q (f ++ "::" ++ q) (x.find f q)) ∧
      ∀ e ∈ x.elementsIn (f ++ ":"), ∀ q, q = ":" ++ e.qualifiedName →
        (∃ e', x.elementAmong paths (f ++ "::" ++ q) = .ok e') ∧
        x.elementAmong paths (f ++ "::" ++ q) = x.find (f ++ ":") e.qualifiedName ∧
        x.find f q = .error (.notIndexed (f ++ "::" ++ q))) := by
  intro x
  have hlabelled : x.Labelled := labelled_after changes
  refine ⟨hlabelled, count_eq x, elementAmong_files x,
    fun paths hpaths => exists_elementAmong_iff hpaths, ?_⟩
  intro hsep paths hpaths f hf
  have hclear : x.Clear := ⟨hlabelled, hsep, fun g e he => head?_ne_colon_after changes he⟩
  constructor
  · intro q hq
    exact ⟨hclear.elementAmong_eq_find hpaths hf hq, firstNamed_find x f q⟩
  · rintro e he q rfl
    have hcolon := hclear.elementAmong_colon hpaths hf he
    refine ⟨?_, hcolon, find_of_missing fun e' he' hname => ?_⟩
    · rw [hcolon]
      exact exists_find he
    · apply hclear.head_ne f e' he'
      simp [hname]

theorem lookups_agree_colon :
    let x := after [.source "a" "class A \x7b m; \x7d", .source "a:" "class X \x7b\x7d"]
    let paths := ["a:", "a"]
    ((∀ f ∈ x.files, Unseparated f) ∧ paths.Perm x.files ∧ "a" ∈ x.files) ∧
    (x.elementAmong paths ("a" ++ "::" ++ "A::m") = x.find "a" "A::m" ∧
      FirstNamed (x.elementsIn "a") "A::m" ("a" ++ "::" ++ "A::m") (x.find "a" "A::m")) ∧
    ∃ e, x.elementAmong paths ("a" ++ "::" ++ ":X") = .ok e := by
  intro x paths
  have hsep : ∀ f ∈ x.files, Unseparated f := by decide +kernel
  have hpaths : paths.Perm x.files := by decide +kernel
  have hf : "a" ∈ x.files := by decide +kernel
  have hagree := (lookups_agree [.source "a" "class A \x7b m; \x7d",
    .source "a:" "class X \x7b\x7d"]).2.2.2.2 hsep paths hpaths "a" hf
  refine ⟨⟨hsep, hpaths, hf⟩, hagree.1 "A::m" (by decide +kernel), ?_⟩
  obtain ⟨e, he, hq⟩ : ∃ e ∈ x.elementsIn ("a" ++ ":"), ":X" = ":" ++ e.qualifiedName := by
    decide +kernel
  exact (hagree.2 e he ":X" hq).1

/-- An element whose identity can also be read as another file and a name with a colon in front
of it, which that file does not have. -/
theorem colon_found_by_identity :
    let x := after [.source "a" "", .source "a:" "class X \x7b\x7d"]
    (∀ f ∈ x.files, Unseparated f) ∧ "a" ∈ x.files ∧
    x.find "a" ":X" = .error (.notIndexed ("a" ++ "::" ++ ":X")) ∧
    ∃ e ∈ x.elementsIn "a:", x.element ("a" ++ "::" ++ ":X") = .ok e := by
  decide +kernel

end Index

end DocAnnotations
