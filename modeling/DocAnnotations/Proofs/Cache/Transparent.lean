import DocAnnotations.Cache
import DocAnnotations.Proofs.Run
import Mathlib.Data.Set.Function

/-!
# The cache cannot be seen

Every entry holds the annotations of a comment that has the entry's fingerprint.
-/

namespace DocAnnotations

/-! ## Questions and answers -/

inductive Request where
  | first (name : String)
  | all (name : String)
  | everything
deriving DecidableEq

inductive Reply where
  | first (value : Option Value)
  | all (values : List Value)
  | everything (a : Annotations)

/-- What annotations have to say to a request. -/
def Annotations.reply (a : Annotations) : Request → Reply
  | .first name => .first (a.first? name)
  | .all name => .all (a.all name)
  | .everything => .everything a

/-- The answer without a cache. -/
def Documented.answer (e : Documented) (q : Request) : Except Error Reply :=
  match e.comment with
  | some comment => .ok ((Annotations.parse comment).reply q)
  | none => .error (.unsupported e.kind e.identity)

namespace Cache

variable {δ : Type} {fingerprint : String → δ} {met : Set String} {c : Cache δ}

/-! ## The invariant -/

/-- Every entry was made for one of the given comments. -/
def Faithful (fingerprint : String → δ) (met : Set String) (c : Cache δ) : Prop :=
  ∀ (identity : String) (entry : CacheEntry δ), c.entries[identity]? = some entry →
    ∃ comment ∈ met, entry = ⟨fingerprint comment, Annotations.parse comment⟩

theorem faithful_empty : Faithful fingerprint met (empty : Cache δ) := by
  intro identity entry h
  simp [empty] at h

theorem Faithful.mono {met' : Set String} (h : Faithful fingerprint met c) (hsub : met ⊆ met') :
    Faithful fingerprint met' c := by
  intro identity entry hentry
  obtain ⟨comment, hmet, heq⟩ := h identity entry hentry
  exact ⟨comment, hsub hmet, heq⟩

theorem Faithful.insert (h : Faithful fingerprint met c) (identity comment : String)
    (hmet : comment ∈ met) (hits misses : Nat) :
    Faithful fingerprint met ⟨c.entries.insert identity ⟨fingerprint comment,
      Annotations.parse comment⟩, hits, misses⟩ := by
  intro id entry hentry
  simp only [Std.TreeMap.getElem?_insert] at hentry
  split at hentry
  · exact ⟨comment, hmet, (Option.some.inj hentry).symm⟩
  · exact h id entry hentry

variable [DecidableEq δ]

theorem fresh?_eq_some (identity comment : String) (entry : CacheEntry δ)
    (h : c.fresh? fingerprint identity comment = some entry) :
    c.entries[identity]? = some entry ∧ entry.fingerprint = fingerprint comment := by
  unfold fresh? at h
  split at h
  · rename_i found hfound
    split at h
    · rename_i hprint
      rw [Option.some.injEq] at h
      subst h
      exact ⟨hfound, hprint⟩
    · simp at h
  · simp at h

theorem Faithful.annotations_of_fresh (h : Faithful fingerprint met c)
    (hinj : Set.InjOn fingerprint met) (identity comment : String) (hmet : comment ∈ met)
    (entry : CacheEntry δ) (hfresh : c.fresh? fingerprint identity comment = some entry) :
    entry.annotations = Annotations.parse comment := by
  obtain ⟨hentry, hprint⟩ := fresh?_eq_some identity comment entry hfresh
  obtain ⟨other, hother, rfl⟩ := h identity entry hentry
  have hsame : other = comment := hinj hother hmet hprint
  rw [hsame]

/-! ## One lookup -/

/-- The answer with a cache, and the cache from then on. -/
def lookup (fingerprint : String → δ) (c : Cache δ) (e : Documented) :
    Request → Except Error (Reply × Cache δ)
  | .first name => (c.get fingerprint e name).map fun (v, c) => (.first v, c)
  | .all name => (c.getAll fingerprint e name).map fun (vs, c) => (.all vs, c)
  | .everything => (c.annotations fingerprint e).map fun (a, c) => (.everything a, c)

theorem lookup_eq (e : Documented) (q : Request) :
    c.lookup fingerprint e q = (c.annotations fingerprint e).map fun p => (p.1.reply q, p.2) := by
  cases q with
  | first name | all name =>
    cases h : c.annotations fingerprint e <;>
      simp [lookup, get, getAll, h, Except.map, Annotations.reply]
  | everything => rfl

theorem lookup_of_opaque (e : Documented) (q : Request) (he : e.comment = none) :
    c.lookup fingerprint e q = .error (.unsupported e.kind e.identity) := by
  rw [lookup_eq, annotations, he]
  rfl

theorem annotations_of_hit (e : Documented) (comment : String) (entry : CacheEntry δ)
    (he : e.comment = some comment)
    (hfresh : c.fresh? fingerprint e.identity comment = some entry) :
    c.annotations fingerprint e = .ok (entry.annotations, { c with hits := c.hits + 1 }) := by
  simp [annotations, he, hfresh]

theorem annotations_of_miss (e : Documented) (comment : String) (he : e.comment = some comment)
    (hfresh : c.fresh? fingerprint e.identity comment = none) :
    c.annotations fingerprint e = .ok (Annotations.parse comment, ⟨c.entries.insert e.identity
      ⟨fingerprint comment, Annotations.parse comment⟩, c.hits, c.misses + 1⟩) := by
  simp [annotations, he, hfresh]

/-- Asking for annotations keeps the invariant, and gives those of the comment if no other comment
that was met has its fingerprint. -/
theorem Faithful.annotations (h : Faithful fingerprint met c) (e : Documented) (comment : String)
    (he : e.comment = some comment) (hmet : comment ∈ met) :
    ∃ a c', c.annotations fingerprint e = .ok (a, c') ∧ Faithful fingerprint met c' ∧
      (Set.InjOn fingerprint met → a = Annotations.parse comment) := by
  cases hfresh : c.fresh? fingerprint e.identity comment with
  | some entry =>
    rw [annotations_of_hit e comment entry he hfresh]
    exact ⟨_, _, rfl, h, fun hinj =>
      h.annotations_of_fresh hinj e.identity comment hmet entry hfresh⟩
  | none =>
    rw [annotations_of_miss e comment he hfresh]
    exact ⟨_, _, rfl, h.insert e.identity comment hmet c.hits (c.misses + 1), fun _ => rfl⟩

theorem annotations_empty (fingerprint : String → δ) (e : Documented) (comment : String)
    (he : e.comment = some comment) :
    ∃ c, empty.annotations fingerprint e = .ok (Annotations.parse comment, c) := by
  have hempty : Faithful fingerprint {comment} empty := faithful_empty
  obtain ⟨a, c, heq, -, ha⟩ := hempty.annotations e comment he (Set.mem_singleton comment)
  exact ⟨c, by rw [heq, ha (Set.injOn_singleton fingerprint comment)]⟩

theorem get_of_annotations (e : Documented) (name : String) (a : Annotations) (c' : Cache δ)
    (h : c.annotations fingerprint e = .ok (a, c')) :
    c.get fingerprint e name = .ok (a.first? name, c') := by
  rw [get, h]
  rfl

theorem getAll_of_annotations (e : Documented) (name : String) (a : Annotations) (c' : Cache δ)
    (h : c.annotations fingerprint e = .ok (a, c')) :
    c.getAll fingerprint e name = .ok (a.all name, c') := by
  rw [getAll, h]
  rfl

theorem Faithful.lookup (h : Faithful fingerprint met c) (e : Documented) (q : Request)
    (comment : String) (he : e.comment = some comment) (hmet : comment ∈ met) :
    ∃ a c', c.lookup fingerprint e q = .ok (a, c') ∧ Faithful fingerprint met c' ∧
      (Set.InjOn fingerprint met → a = (Annotations.parse comment).reply q) := by
  obtain ⟨a, c', heq, hc', ha⟩ := h.annotations e comment he hmet
  refine ⟨a.reply q, c', ?_, hc', fun hinj => by rw [ha hinj]⟩
  rw [lookup_eq, heq]
  rfl

/-! ## Whole runs -/

inductive Step where
  | lookup (e : Documented) (q : Request)
  | clear
  | stats

inductive Output where
  | answer (r : Except Error Reply)
  | cleared
  | stats (s : CacheStats)

def step (fingerprint : String → δ) (c : Cache δ) : Step → Output × Cache δ
  | .lookup e q =>
    match c.lookup fingerprint e q with
    | .ok (r, c') => (.answer (.ok r), c')
    | .error err => (.answer (.error err), c)
  | .clear => (.cleared, c.clear)
  | .stats => (.stats c.stats, c)

/-- The comments that the elements looked up have. -/
def presented (steps : List Step) : Set String :=
  {comment | ∃ e q, Step.lookup e q ∈ steps ∧ e.comment = some comment}

theorem Faithful.step (h : Faithful fingerprint met c) (s : Step)
    (hmet : ∀ e q comment, s = .lookup e q → e.comment = some comment → comment ∈ met) :
    Faithful fingerprint met (c.step fingerprint s).2 := by
  cases s with
  | lookup e q =>
    cases he : e.comment with
    | none => simpa [Cache.step, lookup_of_opaque e q he] using h
    | some comment =>
      obtain ⟨r, c', heq, hc', -⟩ := h.lookup e q comment he (hmet e q comment rfl he)
      simpa [Cache.step, heq] using hc'
  | clear => exact faithful_empty
  | stats => exact h

theorem faithful_run (steps : List Step) :
    Faithful fingerprint (presented steps) (run (step fingerprint) empty steps).2 := by
  apply run_invariant _ (Faithful fingerprint (presented steps)) _ _ faithful_empty
  intro c s hs hc
  apply hc.step
  rintro e q comment rfl he
  exact ⟨e, q, hs, he⟩

/-- Every lookup in a run gives the answer that there is without a cache. -/
theorem lookup_transparent (fingerprint : String → δ) (steps : List Step)
    (hinj : Set.InjOn fingerprint (presented steps)) (i : Nat) (e : Documented) (q : Request)
    (hi : steps[i]? = some (.lookup e q)) :
    (run (step fingerprint) empty steps).1[i]? = some (.answer (e.answer q)) := by
  have hsub : presented (steps.take i) ⊆ presented steps := by
    rintro comment ⟨e, q, hmem, he⟩
    exact ⟨e, q, List.mem_of_mem_take hmem, he⟩
  have hc : Faithful fingerprint (presented steps)
      (run (step fingerprint) empty (steps.take i)).2 :=
    (faithful_run (steps.take i)).mono hsub
  rw [run_output, hi, Option.map_some, Documented.answer]
  cases he : e.comment with
  | none => simp [step, lookup_of_opaque e q he]
  | some comment =>
    have hmet : comment ∈ presented steps := ⟨e, q, List.mem_of_getElem? hi, he⟩
    obtain ⟨r, c', heq, -, hr⟩ := hc.lookup e q comment he hmet
    simp [step, heq, hr hinj]

/-- A comment changes and comes back, and is seen on a second element. -/
def changedAndBack : List Step :=
  [.lookup (.block "a" "@n 1") (.first "n"),
   .lookup (.block "a" "@n 22") (.all "n"),
   .stats,
   .lookup ⟨"p", "property", none⟩ .everything,
   .lookup (.block "b" "@n 1") .everything,
   .lookup (.block "a" "@n 1") (.first "n"),
   .clear]

theorem lookup_transparent_changedAndBack :
    Set.InjOn String.length (presented changedAndBack) ∧
    changedAndBack[5]? = some (.lookup (.block "a" "@n 1") (.first "n")) ∧
    (run (step String.length) empty changedAndBack).1[5]? =
      some (.answer (.ok (.first (some (.int 1))))) := by
  have hinj : Set.InjOn String.length (presented changedAndBack) := by
    have hall : ∀ comment ∈ presented changedAndBack, comment = "@n 1" ∨ comment = "@n 22" := by
      rintro comment ⟨e, q, hmem, he⟩
      simp only [changedAndBack, List.mem_cons, Step.lookup.injEq, List.not_mem_nil, reduceCtorEq,
        false_or, or_false] at hmem
      rcases hmem with ⟨rfl, -⟩ | ⟨rfl, -⟩ | ⟨rfl, -⟩ | ⟨rfl, -⟩ | ⟨rfl, -⟩ <;>
        simp [Documented.block] at he <;> simp [he]
    intro a ha b hb hab
    rcases hall a ha with rfl | rfl <;> rcases hall b hb with rfl | rfl <;> revert hab <;> decide
  have hanswer : (Documented.block "a" "@n 1").answer (.first "n") = .ok (.first (some (.int 1))) :=
    rfl
  refine ⟨hinj, rfl, ?_⟩
  rw [← hanswer]
  exact lookup_transparent String.length changedAndBack hinj 5 _ _ rfl

end Cache

end DocAnnotations
