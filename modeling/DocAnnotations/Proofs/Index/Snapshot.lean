import DocAnnotations.Proofs.Cache.Transparent
import DocAnnotations.Proofs.Index.Changes
import DocAnnotations.Proofs.Text.Bytes
import DocAnnotations.Snapshot

/-!
# What a snapshot says

A snapshot shows the comments as they are, whatever earlier lookups have left in
the cache.
-/

namespace DocAnnotations

namespace Element

def annotations (e : Element) : Annotations := Annotations.parse (e.docComment.getD "")

def isAnnotated (e : Element) : Bool := !e.annotations.isEmpty

def summary (e : Element) : Value :=
  .map [("kind", .text e.kind.name), ("line", .int (Int64.ofNat e.line)),
    ("annotations", e.annotations.toValue)]

/-- The last annotated element with an identity. -/
def lastAnnotated? (es : List Element) (identity : String) : Option Element :=
  (es.filter fun e => e.isAnnotated && e.identity = identity).getLast?

end Element

namespace Index

/-! ## What has to come out -/

/-- The keys stand in the order of their bytes, none of them twice. -/
def KeysAscend (entries : List (String × Value)) : Prop :=
  entries.Pairwise fun a b => Text.bytes a.1 < Text.bytes b.1

/-- The entries of one file. -/
structure Describes (es : List Element) (entries : List (String × Value)) : Prop where
  ascend : KeysAscend entries
  mem_iff : ∀ identity v, (identity, v) ∈ entries ↔
    ∃ e, Element.lastAnnotated? es identity = some e ∧ v = e.summary

/-- The entries of an index. -/
structure Shows (x : Index) (files : List (String × Value)) : Prop where
  ascend : KeysAscend files
  mem_iff : ∀ path v, (path, v) ∈ files ↔
    path ∈ x.files ∧ (∃ e ∈ x.elementsIn path, e.isAnnotated) ∧
      ∃ entries, v = .map entries ∧ Describes (x.elementsIn path) entries

def comments (x : Index) : Set String :=
  {comment | ∃ path, ∃ e ∈ x.elementsIn path, comment = e.docComment.getD ""}

/-! ## Nothing else can come out -/

theorem KeysAscend.eq_of_mem_iff {entries others : List (String × Value)} (h : KeysAscend entries)
    (h' : KeysAscend others) (hmem : ∀ e, e ∈ entries ↔ e ∈ others) : entries = others := by
  have hnodup : ∀ l : List (String × Value), KeysAscend l → l.Nodup := by
    intro l hl
    apply hl.imp
    rintro a b hlt rfl
    exact List.lt_irrefl _ hlt
  have hperm : entries.Perm others :=
    (List.perm_ext_iff_of_nodup (hnodup _ h) (hnodup _ h')).mpr hmem
  apply List.Perm.eq_of_pairwise _ h h' hperm
  intro a b _ _ hab hba
  exact absurd hba (List.lt_asymm hab)

theorem Describes.unique {es : List Element} {entries others : List (String × Value)}
    (h : Describes es entries) (h' : Describes es others) : entries = others := by
  apply h.ascend.eq_of_mem_iff h'.ascend
  rintro ⟨identity, v⟩
  rw [h.mem_iff, h'.mem_iff]

theorem Shows.unique {x : Index} {files others : List (String × Value)} (h : x.Shows files)
    (h' : x.Shows others) : files = others := by
  apply h.ascend.eq_of_mem_iff h'.ascend
  rintro ⟨path, v⟩
  rw [h.mem_iff, h'.mem_iff]

/-! ## One file -/

theorem getElem?_foldl_insert {α β : Type} (key : α → String) (val : α → β) (l : List α)
    (k : String) :
    (l.foldl (fun t a => t.insert (key a) (val a)) (∅ : Std.TreeMap String β))[k]? =
      ((l.filter (key · = k)).getLast?).map val := by
  induction l using List.reverseRecOn with
  | nil => simp
  | append_singleton l a ih =>
    simp only [List.foldl_append, List.foldl_cons, List.foldl_nil, Std.TreeMap.getElem?_insert,
      Std.compare_eq_iff_eq, List.filter_append, ih]
    by_cases ha : key a = k <;> simp [ha]

def annotatedOf (es : List Element) : List (Element × Annotations) :=
  (es.filter Element.isAnnotated).map fun e => (e, e.annotations)

theorem isEmpty_annotatedOf (es : List Element) :
    (annotatedOf es).isEmpty = true ↔ ¬ ∃ e ∈ es, e.isAnnotated := by
  simp [annotatedOf, List.isEmpty_iff]

theorem keysAscend_toList (t : Std.TreeMap String Value) : KeysAscend t.toList := by
  apply t.ordered_keys_toList.imp
  intro a b h
  exact (Text.compare_eq_lt_iff a.1 b.1).mp h

theorem describes_descriptions (es : List Element) :
    Describes es (descriptions (annotatedOf es)) := by
  refine ⟨keysAscend_toList _, ?_⟩
  intro identity v
  have hfold : (annotatedOf es).foldl
      (fun found p => found.insert p.1.identity (description p.1 p.2))
        (∅ : Std.TreeMap String Value) =
      (es.filter Element.isAnnotated).foldl
        (fun found e => found.insert e.identity e.summary) ∅ := by
    rw [annotatedOf, List.foldl_map]
    rfl
  rw [descriptions, hfold, Std.TreeMap.mem_toList_iff_getElem?_eq_some, getElem?_foldl_insert,
    List.filter_filter, Option.map_eq_some_iff, Element.lastAnnotated?]
  simp [Bool.and_comm, eq_comm]

/-! ## One lookup after another -/

variable {δ : Type} [DecidableEq δ] {fingerprint : String → δ} {met : Set String} {c : Cache δ}

theorem annotated_eq (hinj : Set.InjOn fingerprint met) (es : List Element)
    (hes : ∀ e ∈ es, e.docComment.getD "" ∈ met) (hc : Cache.Faithful fingerprint met c) :
    ∃ c', annotated fingerprint c es = .ok (annotatedOf es, c') ∧
      Cache.Faithful fingerprint met c' := by
  induction es generalizing c with
  | nil => exact ⟨c, rfl, hc⟩
  | cons e es ih =>
    obtain ⟨a, c₁, hfirst, hc₁, ha⟩ := hc.annotations e.documented _ rfl (hes e List.mem_cons_self)
    have ha : a = e.annotations := ha hinj
    subst ha
    obtain ⟨c₂, hrest, hc₂⟩ := ih (fun e' he' => hes e' (List.mem_cons_of_mem e he')) hc₁
    refine ⟨c₂, ?_, hc₂⟩
    have hstep : annotated fingerprint c (e :: es) =
        .ok (if e.annotations.isEmpty then annotatedOf es else (e, e.annotations) :: annotatedOf es,
          c₂) := by
      rw [annotated, hfirst]
      simp only [bind, Except.bind, hrest]
      rfl
    rw [hstep]
    cases h : e.annotations.isEmpty <;> simp [annotatedOf, Element.isAnnotated, h]

/-- The entries of some files, without the files that have none. -/
def entriesOf (x : Index) (paths : List String) : List (String × Value) :=
  (paths.filter fun path => (x.elementsIn path).any Element.isAnnotated).map fun path =>
    (path, .map (descriptions (annotatedOf (x.elementsIn path))))

theorem fileSnapshots_eq (x : Index) (hinj : Set.InjOn fingerprint met) (hx : x.comments ⊆ met)
    (paths : List String) (hc : Cache.Faithful fingerprint met c) :
    ∃ c', x.fileSnapshots fingerprint c paths = .ok (x.entriesOf paths, c') ∧
      Cache.Faithful fingerprint met c' := by
  induction paths generalizing c with
  | nil => exact ⟨c, rfl, hc⟩
  | cons path paths ih =>
    obtain ⟨c₁, hfirst, hc₁⟩ :=
      annotated_eq hinj (x.elementsIn path) (fun e he => hx ⟨path, e, he, rfl⟩) hc
    obtain ⟨c₂, hrest, hc₂⟩ := ih hc₁
    refine ⟨c₂, ?_, hc₂⟩
    have hstep : x.fileSnapshots fingerprint c (path :: paths) =
        .ok (if (annotatedOf (x.elementsIn path)).isEmpty then x.entriesOf paths
          else (path, .map (descriptions (annotatedOf (x.elementsIn path)))) :: x.entriesOf paths,
          c₂) := by
      rw [fileSnapshots, hfirst]
      simp only [bind, Except.bind, hrest]
      rfl
    rw [hstep]
    have hempty := isEmpty_annotatedOf (x.elementsIn path)
    cases h : (x.elementsIn path).any Element.isAnnotated with
    | false =>
      rw [if_pos (hempty.mpr (by simpa using h))]
      simp [entriesOf, h]
    | true =>
      rw [if_neg (by rw [hempty]; simpa using h)]
      simp [entriesOf, h]

theorem files_ascend (x : Index) : x.files.Pairwise fun p q => Text.bytes p < Text.bytes q := by
  apply x.byFile.ordered_keys.imp
  intro p q h
  exact (Text.compare_eq_lt_iff p q).mp h

theorem shows_entriesOf (x : Index) : x.Shows (x.entriesOf x.files) := by
  constructor
  · rw [KeysAscend, entriesOf, List.pairwise_map]
    exact x.files_ascend.filter _
  · intro path v
    simp only [entriesOf, List.mem_map, List.mem_filter, List.any_eq_true, Prod.mk.injEq]
    constructor
    · rintro ⟨path, ⟨hpath, hany⟩, rfl, rfl⟩
      exact ⟨hpath, hany, _, rfl, describes_descriptions _⟩
    · rintro ⟨hpath, hany, entries, rfl, hentries⟩
      refine ⟨path, ⟨hpath, hany⟩, rfl, ?_⟩
      rw [(describes_descriptions _).unique hentries]

theorem snapshot_eq (x : Index) (hinj : Set.InjOn fingerprint met) (hx : x.comments ⊆ met)
    (hc : Cache.Faithful fingerprint met c) :
    ∃ c', x.snapshot fingerprint c = .ok (Json.indent (.map (x.entriesOf x.files)), c') ∧
      Cache.Faithful fingerprint met c' := by
  obtain ⟨c', heq, hc'⟩ := x.fileSnapshots_eq hinj hx x.files hc
  exact ⟨c', by rw [snapshot, heq]; rfl, hc'⟩

/-! ## After any lookups -/

theorem snapshot_after (x : Index) (steps : List Cache.Step)
    (hinj : Set.InjOn fingerprint (Cache.presented steps ∪ x.comments)) :
    ∃ c', x.snapshot fingerprint (run (Cache.step fingerprint) Cache.empty steps).2 =
        .ok (Json.indent (.map (x.entriesOf x.files)), c') ∧
      Cache.Faithful fingerprint (Cache.presented steps ∪ x.comments) c' :=
  x.snapshot_eq hinj Set.subset_union_right
    ((Cache.faithful_run steps).mono Set.subset_union_left)

/-- A snapshot is the text of the one map that shows the index, after any lookups, a second time,
and after any other lookups. -/
theorem snapshot_exact (fingerprint : String → δ) (changes : List Change)
    (steps others : List Cache.Step)
    (hinj : Set.InjOn fingerprint (Cache.presented steps ∪ (after changes).comments))
    (hothers : Set.InjOn fingerprint (Cache.presented others ∪ (after changes).comments)) :
    ∃ files, (after changes).Shows files ∧
      (∀ files', (after changes).Shows files' → files' = files) ∧
      (∃ c, (after changes).snapshot fingerprint
          (run (Cache.step fingerprint) Cache.empty steps).2 =
            .ok (Json.indent (.map files), c) ∧
        ∃ c', (after changes).snapshot fingerprint c = .ok (Json.indent (.map files), c')) ∧
      ∃ d, (after changes).snapshot fingerprint
          (run (Cache.step fingerprint) Cache.empty others).2 =
            .ok (Json.indent (.map files), d) := by
  obtain ⟨c, hfirst, hc⟩ := (after changes).snapshot_after steps hinj
  obtain ⟨c', hagain, -⟩ := (after changes).snapshot_eq hinj Set.subset_union_right hc
  obtain ⟨d, hother, -⟩ := (after changes).snapshot_after others hothers
  have hshows := (after changes).shows_entriesOf
  exact ⟨_, hshows, fun files' h => h.unique hshows, ⟨c, hfirst, c', hagain⟩, d, hother⟩

/-- Two members with one identity, the last of them without a comment. -/
def repeated : List Change := [.source "a" "class A \x7b m;\n/** @n */ m; 'm#2' \x7d"]

def repeatedText : String :=
  "\x7b\n  \"a\": \x7b\n    \"a::A::m#2\": \x7b\n      \"kind\": \"property\",\n" ++
  "      \"line\": 2,\n      \"annotations\": \x7b\n        \"@n\": [\n          true\n" ++
  "        ]\n      \x7d\n    \x7d\n  \x7d\n\x7d"

/-- Lookups that leave other annotations in the cache. -/
def outdated : List Cache.Step :=
  [.lookup (.block "a::A" "@e") .everything, .lookup (.block "a::A::m#2" "@o 1") (.all "o")]

theorem snapshot_exact_outdated :
    Set.InjOn id (Cache.presented outdated ∪ (after repeated).comments) ∧
    Set.InjOn id (Cache.presented [] ∪ (after repeated).comments) ∧
    ∃ c', (after repeated).snapshot id (run (Cache.step id) Cache.empty outdated).2 =
      .ok (repeatedText, c') := by
  have hinj : Set.InjOn id (Cache.presented outdated ∪ (after repeated).comments) := Set.injOn_id _
  have hnone : Set.InjOn id (Cache.presented [] ∪ (after repeated).comments) := Set.injOn_id _
  obtain ⟨files, -, -, ⟨c', hfirst, -⟩, d', hother⟩ :=
    snapshot_exact id repeated outdated [] hinj hnone
  have hempty : ((after repeated).snapshot id (run (Cache.step id) Cache.empty []).2).toOption.map
      Prod.fst = some repeatedText := by decide +kernel
  rw [hother] at hempty
  have htext : Json.indent (.map files) = repeatedText := Option.some.inj hempty
  exact ⟨hinj, hnone, c', by rw [hfirst, htext]⟩

end Index

end DocAnnotations
