import DocAnnotations.Equality
import DocAnnotations.Proofs.Annotations.Groups
import DocAnnotations.Proofs.Cache.Transparent

/-!
# Groups and index

However annotations were built, the index leads to every group and nowhere else.
-/

namespace DocAnnotations

namespace Annotations

/-- What pushing can build. -/
inductive Built : Annotations → Prop
  | empty : Built empty
  | push {a : Annotations} (h : Built a) (name : String) (v : Value) : Built (a.push name v)

theorem built_ofList (named : List (String × Value)) : Built (ofList named) := by
  induction named using List.reverseRecOn with
  | nil => exact .empty
  | append_singleton named e ih =>
    rw [ofList_snoc]
    exact ih.push e.1 e.2

theorem built_parse (comment : String) : Built (parse comment) := by
  rw [parse_eq_ofList]
  exact built_ofList _

theorem Built.consistent {a : Annotations} (h : Built a) : Consistent a := by
  induction h with
  | empty => exact consistent_empty
  | push _ name v ih => exact consistent_push _ name v ih

/-! ## The index -/

theorem getElem?_names_iff (a : Annotations) (name : String) (i : Nat) :
    a.names[i]? = some name ↔ ∃ h : i < a.entries.size, a.entries[i].1 = name := by
  simp [names, Array.getElem?_eq_some_iff]

theorem Consistent.index_iff {a : Annotations} (h : Consistent a) (name : String) (i : Nat) :
    a.index[name]? = some i ↔ ∃ hi : i < a.entries.size, a.entries[i].1 = name := by
  rw [h name i, getElem?_names_iff]

theorem Consistent.nodup_names {a : Annotations} (h : Consistent a) : a.names.Nodup := by
  rw [List.nodup_iff_getElem?_ne_getElem?]
  intro i j hij hj heq
  have hi : a.names[i]? = some a.names[j] := by rw [heq, List.getElem?_eq_getElem hj]
  exact h.getElem?_ne a _ i j hi (Nat.ne_of_lt hij) (List.getElem?_eq_getElem hj)

theorem entries_push_of_some {a : Annotations} {name : String} {i : Nat} (v : Value)
    (h : a.index[name]? = some i) (hi : i < a.entries.size) :
    (a.push name v).entries = a.entries.set i (a.entries[i].1, a.entries[i].2.push v) := by
  apply Array.ext
  · simp [push, h]
  · intro j hj hj'
    simp [push, h, Array.getElem_modify, Array.getElem_set]
    split <;> simp_all

theorem Consistent.entries_push {a : Annotations} (h : Consistent a) (name : String) (v : Value)
    (i : Nat) (hi : a.index[name]? = some i) : ∃ hsize : i < a.entries.size,
      (a.push name v).entries = a.entries.set i (a.entries[i].1, a.entries[i].2.push v) := by
  obtain ⟨hsize, -⟩ := (h.index_iff name i).mp hi
  exact ⟨hsize, entries_push_of_some v hi hsize⟩

theorem Consistent.all_eq {a : Annotations} (h : Consistent a) (q : String) (i : Nat)
    (hi : a.index[normalizeName q]? = some i) :
    ∃ hsize : i < a.entries.size, a.all q = a.entries[i].2.toList := by
  obtain ⟨hsize, -⟩ := (h.index_iff _ i).mp hi
  exact ⟨hsize, by simp [all, hi, hsize]⟩

/-! ## The values -/

theorem Built.values_ne_empty {a : Annotations} (h : Built a) : ∀ e ∈ a.entries, e.2 ≠ #[] := by
  induction h with
  | empty => simp [Annotations.empty]
  | @push a h name v ih =>
    intro e he
    cases hi : a.index[name]? with
    | none =>
      simp only [Annotations.push, hi, Array.mem_push] at he
      rcases he with he | rfl
      · exact ih e he
      · simp
    | some i =>
      obtain ⟨hsize, hentries⟩ := h.consistent.entries_push name v i hi
      rw [hentries] at he
      rcases Array.mem_or_eq_of_mem_set he with he | rfl
      · exact ih e he
      · simp

/-! ## Equality -/

theorem names_eq_of_beq {a b : Annotations} (h : (a.entries == b.entries) = true) :
    a.names = b.names := by
  have hkeys : ∀ es fs : List (String × Array Value), (es == fs) = true →
      es.map (·.1) = fs.map (·.1) := by
    intro es fs
    induction es generalizing fs with
    | nil => cases fs <;> simp
    | cons e es ih =>
      cases fs with
      | nil => simp
      | cons f fs =>
        intro h
        have hhead : (e == f) = (e.1 == f.1 && e.2 == f.2) := rfl
        simp only [List.cons_beq_cons, hhead, Bool.and_eq_true, beq_iff_eq] at h
        simp [h.1.1, ih fs h.2]
  exact hkeys _ _ (by rwa [Array.beq_toList])

theorem Consistent.index_beq {a b : Annotations} (ha : Consistent a) (hb : Consistent b)
    (h : a.names = b.names) : (a.index == b.index) = true := by
  apply Std.TreeMap.Equiv.beq
  apply Std.TreeMap.Equiv.of_forall_constGet?_eq
  intro name
  apply Option.ext
  intro i
  rw [ha name i, hb name i, h]

theorem Consistent.beq_iff {a b : Annotations} (ha : Consistent a) (hb : Consistent b) :
    (a == b) = true ↔ (a.entries == b.entries) = true := by
  have hboth : (a == b) = (a.entries == b.entries && a.index == b.index) := rfl
  rw [hboth, Bool.and_eq_true]
  exact ⟨fun h => h.1, fun h => ⟨h, ha.index_beq hb (names_eq_of_beq h)⟩⟩

/-! ## Copies from the cache -/

variable {δ : Type} [DecidableEq δ] {fingerprint : String → δ} {met : Set String} {c : Cache δ}

theorem built_of_cached (h : c.Faithful fingerprint met) {e : Documented} {a : Annotations}
    {c' : Cache δ} (heq : c.annotations fingerprint e = .ok (a, c')) : Built a := by
  cases he : e.comment with
  | none => simp [Cache.annotations, he] at heq
  | some comment =>
    cases hfresh : c.fresh? fingerprint e.identity comment with
    | none =>
      rw [Cache.annotations_of_miss e comment he hfresh] at heq
      obtain ⟨rfl, -⟩ := Prod.mk.inj (Except.ok.inj heq)
      exact built_parse comment
    | some entry =>
      rw [Cache.annotations_of_hit e comment entry he hfresh] at heq
      obtain ⟨rfl, -⟩ := Prod.mk.inj (Except.ok.inj heq)
      obtain ⟨hentry, -⟩ := Cache.fresh?_eq_some e.identity comment entry hfresh
      -- The comment it was parsed from may be another one with the same fingerprint.
      obtain ⟨other, -, rfl⟩ := h e.identity entry hentry
      exact built_parse other

theorem built_of_step (h : c.Faithful fingerprint met) {s : Cache.Step} {a : Annotations}
    (hs : (c.step fingerprint s).1 = .answer (.ok (.everything a))) : Built a := by
  cases s with
  | lookup e q =>
    cases heq : c.annotations fingerprint e with
    | error err => simp [Cache.step, Cache.lookup_eq, heq, Except.map] at hs
    | ok p =>
      cases q with
      | first name | all name =>
        simp [Cache.step, Cache.lookup_eq, heq, Except.map, reply] at hs
      | everything =>
        obtain rfl : p.1 = a := by
          simpa [Cache.step, Cache.lookup_eq, heq, Except.map, reply] using hs
        exact built_of_cached h heq
  | clear | stats => simp [Cache.step] at hs

theorem built_of_run (steps : List Cache.Step) (i : Nat) (a : Annotations)
    (h : (run (Cache.step fingerprint) .empty steps).1[i]? = some (.answer (.ok (.everything a)))) :
    Built a := by
  rw [run_output, Option.map_eq_some_iff] at h
  obtain ⟨s, -, hs⟩ := h
  exact built_of_step (Cache.faithful_run (steps.take i)) hs

/-! ## Both halves -/

/-- The groups and the index of the same annotations. -/
structure HalvesAgree (a : Annotations) : Prop where
  index : ∀ name i, a.index[name]? = some i ↔ ∃ h : i < a.entries.size, a.entries[i].1 = name
  names : a.names.Nodup
  values : ∀ e ∈ a.entries, e.2 ≠ #[]
  /-- A push finds the group that the index names, and adds to it. -/
  push : ∀ name v i, a.index[name]? = some i → ∃ h : i < a.entries.size,
    (a.push name v).entries = a.entries.set i (a.entries[i].1, a.entries[i].2.push v)
  /-- A lookup finds the group that the index names, and gives its values. -/
  all : ∀ q i, a.index[normalizeName q]? = some i →
    ∃ h : i < a.entries.size, a.all q = a.entries[i].2.toList

/-- The halves of whatever was built agree, and it is equal to something else that was built if the
groups are. What is parsed was built so, and so was every copy that a cache hands out. -/
theorem halves_agree {a b : Annotations} (ha : Built a) (hb : Built b) :
    HalvesAgree a ∧ ((a == b) = true ↔ (a.entries == b.entries) = true) ∧
    (∀ comment, Built (parse comment)) ∧
    ∀ {δ : Type} [DecidableEq δ] (fingerprint : String → δ) (steps : List Cache.Step) (i : Nat)
      (copy : Annotations), (run (Cache.step fingerprint) .empty steps).1[i]? =
        some (.answer (.ok (.everything copy))) → Built copy := by
  refine ⟨⟨ha.consistent.index_iff, ha.consistent.nodup_names, ha.values_ne_empty,
    ha.consistent.entries_push, ha.consistent.all_eq⟩, ha.consistent.beq_iff hb.consistent,
    built_parse, ?_⟩
  intro δ _ fingerprint steps i copy h
  exact built_of_run steps i copy h

theorem halves_agree_reordered :
    let a := ofList [("@A", .int 1), ("@B", .null), ("@A", .int 2)]
    let b := ofList [("@A", .int 1), ("@A", .int 2), ("@B", .null)]
    Built a ∧ Built b ∧ HalvesAgree a ∧ (a == b) = true ∧ ∃ h : 1 < a.entries.size,
      (a.push "@B" (.bool true)).entries = a.entries.set 1 ("@B", #[.null, .bool true]) := by
  intro a b
  have ha : Built a := built_ofList _
  have hb : Built b := built_ofList _
  obtain ⟨hagree, hequal, -⟩ := halves_agree ha hb
  exact ⟨ha, hb, hagree, hequal.mpr (by decide), hagree.push "@B" (.bool true) 1 (by decide)⟩

end Annotations

end DocAnnotations
