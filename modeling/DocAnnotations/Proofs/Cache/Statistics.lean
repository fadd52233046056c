import DocAnnotations.Proofs.Cache.Transparent
import Mathlib.Data.List.Dedup

/-!
# What the statistics count

Of each identity only the latest lookup counts for whether the next one is a hit.
-/

namespace DocAnnotations.Cache

variable {δ : Type}

/-! ## Lookups that have been served -/

/-- The identities and comments of the lookups that count, the latest first, after one more step. -/
def serve (seen : List (String × String)) : Step → List (String × String)
  | .lookup e _ =>
    match e.comment with
    | some comment => (e.identity, comment) :: seen
    | none => seen
  | .clear => []
  | .stats => seen

def served (steps : List Step) : List (String × String) := steps.foldl serve []

/-- The latest lookup with the identity presented a comment with the same fingerprint. -/
def Repeats (fingerprint : String → δ) (seen : List (String × String)) (identity comment : String) :
    Prop :=
  ∃ latest, seen.lookup identity = some latest ∧ fingerprint latest = fingerprint comment

/-- What the cache is like when these lookups have been served since it was empty. -/
structure Counts (fingerprint : String → δ) (seen : List (String × String)) (c : Cache δ) :
    Prop where
  latest : ∀ identity : String,
    c.entries[identity]?.map (·.fingerprint) = (seen.lookup identity).map fingerprint
  total : c.hits + c.misses = seen.length
  size_le : c.entries.size ≤ c.misses

variable {fingerprint : String → δ} {seen : List (String × String)} {c : Cache δ}

theorem counts_empty : Counts fingerprint [] (empty : Cache δ) :=
  ⟨fun identity => by simp [empty], rfl, Nat.le_refl _⟩

theorem Counts.size_eq (h : Counts fingerprint seen c) :
    c.entries.size = (seen.map (·.1)).dedup.length := by
  have hmem : ∀ identity, identity ∈ c.entries.keys ↔ identity ∈ (seen.map (·.1)).dedup := by
    intro identity
    have hsome := congrArg Option.isSome (h.latest identity)
    rw [Option.isSome_map, Option.isSome_map] at hsome
    rw [Std.TreeMap.mem_keys, Std.TreeMap.mem_iff_isSome_getElem?, hsome, List.lookup_isSome_iff,
      List.mem_dedup, List.mem_map]
    simp only [beq_iff_eq, eq_comm (a := identity)]
  rw [← Std.TreeMap.length_keys]
  have hperm :=
    (List.perm_ext_iff_of_nodup Std.TreeMap.nodup_keys (List.nodup_dedup _)).mpr hmem
  exact hperm.length_eq

theorem Counts.insert (h : Counts fingerprint seen c) (identity comment : String)
    (a : Annotations) : Counts fingerprint ((identity, comment) :: seen)
      ⟨c.entries.insert identity ⟨fingerprint comment, a⟩, c.hits, c.misses + 1⟩ := by
  refine ⟨?_, ?_, ?_⟩
  · intro other
    rw [Std.TreeMap.getElem?_insert, List.lookup_cons]
    by_cases hother : other = identity
    · simp [hother]
    · rw [beq_false_of_ne hother]
      simpa [Ne.symm hother] using h.latest other
  · have htotal := h.total
    simp only [List.length_cons]
    omega
  · exact Nat.le_trans Std.TreeMap.size_insert_le (Nat.succ_le_succ h.size_le)

theorem Counts.hit (h : Counts fingerprint seen c) {identity comment : String}
    (hrepeats : Repeats fingerprint seen identity comment) :
    Counts fingerprint ((identity, comment) :: seen) { c with hits := c.hits + 1 } := by
  obtain ⟨latest, hseen, hprint⟩ := hrepeats
  refine ⟨?_, ?_, h.size_le⟩
  · intro other
    rw [h.latest other, List.lookup_cons]
    by_cases hother : other = identity
    · simp [hother, hseen, hprint]
    · rw [beq_false_of_ne hother]
  · have htotal := h.total
    simp only [List.length_cons]
    omega

variable [DecidableEq δ]

/-! ## One lookup -/

theorem Counts.isSome_fresh?_iff (h : Counts fingerprint seen c) (identity comment : String) :
    (c.fresh? fingerprint identity comment).isSome = true ↔
      Repeats fingerprint seen identity comment := by
  have hlatest := h.latest identity
  unfold fresh? Repeats
  cases hentry : c.entries[identity]? with
  | none =>
    rw [hentry, Option.map_none, eq_comm, Option.map_eq_none_iff] at hlatest
    simp [hlatest]
  | some entry =>
    rw [hentry, Option.map_some, eq_comm, Option.map_eq_some_iff] at hlatest
    obtain ⟨latest, hseen, hprint⟩ := hlatest
    simp [hseen, hprint]

theorem step_of_hit {e : Documented} {comment : String} (q : Request)
    (he : e.comment = some comment)
    (hhit : (c.fresh? fingerprint e.identity comment).isSome = true) :
    ∃ r, c.step fingerprint (.lookup e q) = (.answer (.ok r), { c with hits := c.hits + 1 }) := by
  obtain ⟨entry, hentry⟩ := Option.isSome_iff_exists.mp hhit
  refine ⟨entry.annotations.reply q, ?_⟩
  rw [step, lookup_eq, annotations_of_hit e comment entry he hentry]
  rfl

theorem step_of_miss {e : Documented} {comment : String} (q : Request)
    (he : e.comment = some comment)
    (hmiss : (c.fresh? fingerprint e.identity comment).isSome = false) :
    ∃ r a, c.step fingerprint (.lookup e q) = (.answer (.ok r),
      ⟨c.entries.insert e.identity ⟨fingerprint comment, a⟩, c.hits, c.misses + 1⟩) := by
  refine ⟨(Annotations.parse comment).reply q, Annotations.parse comment, ?_⟩
  rw [step, lookup_eq, annotations_of_miss e comment he (by simpa using hmiss)]
  rfl

theorem step_of_opaque {e : Documented} (q : Request) (he : e.comment = none) :
    c.step fingerprint (.lookup e q) = (.answer (.error (.unsupported e.kind e.identity)), c) := by
  rw [step, lookup_of_opaque e q he]

/-! ## Whole runs -/

theorem Counts.step (h : Counts fingerprint seen c) (s : Step) :
    Counts fingerprint (serve seen s) (c.step fingerprint s).2 := by
  cases s with
  | lookup e q =>
    cases he : e.comment with
    | none => simpa [serve, he, step_of_opaque q he] using h
    | some comment =>
      have hfresh := h.isSome_fresh?_iff e.identity comment
      cases hhit : (c.fresh? fingerprint e.identity comment).isSome with
      | true =>
        obtain ⟨r, hstep⟩ := step_of_hit q he hhit
        simpa [serve, he, hstep] using h.hit (hfresh.mp hhit)
      | false =>
        obtain ⟨r, a, hstep⟩ := step_of_miss q he hhit
        simpa [serve, he, hstep] using h.insert e.identity comment a
  | clear => exact counts_empty
  | stats => exact h

/-- What the statistics say of a cache after these lookups, and what they will say after one more
step. -/
structure Counted (fingerprint : String → δ) (seen : List (String × String)) (c : Cache δ) :
    Prop where
  entries : c.stats.memoryEntries = (seen.map (·.1)).dedup.length
  total : c.stats.hits + c.stats.misses = seen.length
  entries_le : c.stats.memoryEntries ≤ c.stats.misses
  hit : ∀ e q comment, e.comment = some comment → Repeats fingerprint seen e.identity comment →
    ∃ r c', c.step fingerprint (.lookup e q) = (.answer (.ok r), c') ∧
      c'.stats.hits = c.stats.hits + 1 ∧ c'.stats.misses = c.stats.misses
  miss : ∀ e q comment, e.comment = some comment → ¬ Repeats fingerprint seen e.identity comment →
    ∃ r c', c.step fingerprint (.lookup e q) = (.answer (.ok r), c') ∧
      c'.stats.hits = c.stats.hits ∧ c'.stats.misses = c.stats.misses + 1
  failed : ∀ e q, e.comment = none →
    c.step fingerprint (.lookup e q) = (.answer (.error (.unsupported e.kind e.identity)), c)
  stats : c.step fingerprint .stats = (.stats c.stats, c)

theorem Counts.counted (h : Counts fingerprint seen c) : Counted fingerprint seen c where
  entries := h.size_eq
  total := h.total
  entries_le := h.size_le
  hit := by
    intro e q comment he hrepeats
    obtain ⟨r, hstep⟩ := step_of_hit q he ((h.isSome_fresh?_iff e.identity comment).mpr hrepeats)
    exact ⟨r, _, hstep, rfl, rfl⟩
  miss := by
    intro e q comment he hnot
    rw [← h.isSome_fresh?_iff, Bool.not_eq_true] at hnot
    obtain ⟨r, a, hstep⟩ := step_of_miss q he hnot
    exact ⟨r, _, hstep, rfl, rfl⟩
  failed := fun _ q he => step_of_opaque q he
  stats := rfl

/-- After any steps the statistics count the lookups since the cache was last cleared that had a
comment to look at. A lookup is a hit exactly if it repeats the latest one of its identity. -/
theorem stats_exact (fingerprint : String → δ) (steps : List Step) :
    Counted fingerprint (served steps) (run (step fingerprint) empty steps).2 := by
  have hcounts : Counts fingerprint (served steps) (run (step fingerprint) empty steps).2 := by
    induction steps using List.reverseRecOn with
    | nil => exact counts_empty
    | append_singleton steps s ih =>
      rw [run_snoc_state, served, List.foldl_append]
      exact ih.step s
  exact hcounts.counted

end DocAnnotations.Cache
