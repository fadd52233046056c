import DocAnnotations.Proofs.Cache.Transparent
import DocAnnotations.Proofs.Extraction.Numbering
import DocAnnotations.Proofs.Index.Changes

/-!
# An index and a cache in use

A file that is indexed anew leaves its old elements in the cache. Still every
lookup answers from the latest source.
-/

namespace DocAnnotations

structure Session (δ : Type) where
  index : Index
  cache : Cache δ

namespace Session

/-! ## Steps -/

inductive Step where
  | source (path text : String)
  /-- Indexes what is read of a file at that moment. -/
  | file (path : String) (text : Except ReadFault String)
  /-- Looks up an element and asks the cache about it. -/
  | lookup (path qualifiedName : String) (q : Request)
  | clear

inductive Output where
  | done
  | reply (r : Reply)
  | failed (e : Error)

/-- The file that a step indexes, and what was read of it. -/
def Step.indexes? : Step → Option (String × Except ReadFault String)
  | .source path text => some (path, .ok text)
  | .file path text => some (path, text)
  | _ => none

variable {δ : Type}

def empty : Session δ := ⟨.empty, .empty⟩

def indexed (s : Session δ) : Except Error Index → Output × Session δ
  | .ok x => (.done, { s with index := x })
  | .error e => (.failed e, s)

def replied (s : Session δ) : Except Error (Reply × Cache δ) → Output × Session δ
  | .ok (r, c) => (.reply r, { s with cache := c })
  | .error e => (.failed e, s)

variable [DecidableEq δ]

/-- What a step gives, and the session from then on. -/
def step (fingerprint : String → δ) (s : Session δ) : Step → Output × Session δ
  | .source path text => s.indexed (s.index.addSource path text)
  | .file path text => s.indexed (s.index.addFile path text)
  | .lookup path qualifiedName q => s.replied do
      s.cache.lookup fingerprint (← s.index.find path qualifiedName).documented q
  | .clear => (.done, { s with cache := s.cache.clear })

def outputs (fingerprint : String → δ) (steps : List Step) : List Output :=
  (run (step fingerprint) empty steps).1

def after (fingerprint : String → δ) (steps : List Step) : Session δ :=
  (run (step fingerprint) empty steps).2

/-! ## What has to come out -/

def outcome (path : String) : Except ReadFault String → Output
  | .error fault => .failed (.unreadable path fault)
  | .ok source => if (extract path source).isOk then .done else .failed (.unparsable path)

/-- The source of a file that a step has put into the index, given its output. -/
def putSource? (f : String) (s : Step) : Output → Option String
  | .done =>
    match s.indexes? with
    | some (path, .ok source) => if path = f then some source else none
    | _ => none
  | _ => none

/-- The latest source of a file that was indexed with success. -/
def latest (fingerprint : String → δ) (f : String) (steps : List Step) : Option String :=
  ((steps.zip (outputs fingerprint steps)).filterMap fun p => putSource? f p.1 p.2).getLast?

def answer (path qualifiedName : String) (q : Request) (es : List Element) : Output :=
  match es.find? (·.qualifiedName = qualifiedName) with
  | some e => .reply ((Annotations.parse (e.docComment.getD "")).reply q)
  | none => .failed (.notIndexed (Element.identityOf path qualifiedName))

/-- The comments of the elements that are looked up. -/
def met (fingerprint : String → δ) (steps : List Step) : Set String :=
  {comment | ∃ i path qualifiedName q e, steps[i]? = some (.lookup path qualifiedName q) ∧
    (after fingerprint (steps.take i)).index.find path qualifiedName = .ok e ∧
    comment = e.docComment.getD ""}

/-! ## One step -/

variable {fingerprint : String → δ} {s : Session δ} {st : Step} {f source : String}
  {text : Except ReadFault String}

omit [DecidableEq δ] in
theorem indexed_failed (r : Except Error Index) (e : Error) (h : (s.indexed r).1 = .failed e) :
    (s.indexed r).2 = s := by
  cases r with
  | ok x => simp [indexed] at h
  | error err => rfl

omit [DecidableEq δ] in
theorem replied_failed (r : Except Error (Reply × Cache δ)) (e : Error)
    (h : (s.replied r).1 = .failed e) : (s.replied r).2 = s := by
  cases r with
  | ok p => simp [replied] at h
  | error err => rfl

omit [DecidableEq δ] in
theorem index_replied (r : Except Error (Reply × Cache δ)) : (s.replied r).2.index = s.index := by
  cases r <;> rfl

theorem step_failed (e : Error) (h : (step fingerprint s st).1 = .failed e) :
    (step fingerprint s st).2 = s := by
  cases st with
  | source path text => exact indexed_failed _ e h
  | file path text => exact indexed_failed _ e h
  | lookup path qualifiedName q => exact replied_failed _ e h
  | clear => simp [step] at h

theorem step_of_indexes (h : st.indexes? = some (f, text)) :
    step fingerprint s st = s.indexed (s.index.addFile f text) := by
  cases st with
  | source path read | file path read =>
    simp only [Step.indexes?, Option.some.injEq, Prod.mk.injEq] at h
    obtain ⟨rfl, rfl⟩ := h
    rfl
  | lookup | clear => simp [Step.indexes?] at h

theorem index_step (h : st.indexes? = none) : (step fingerprint s st).2.index = s.index := by
  cases st with
  | source | file => simp [Step.indexes?] at h
  | lookup => exact index_replied _
  | clear => rfl

theorem output_of_indexes (h : st.indexes? = some (f, text)) :
    (step fingerprint s st).1 = outcome f text := by
  rw [step_of_indexes h]
  cases text with
  | error fault => rfl
  | ok source =>
    rw [Index.addFile, Index.addSource, outcome]
    cases hes : extract f source with
    | ok es => rfl
    | error e => rw [eq_unparsable hes]; rfl

theorem putSource?_of_not_indexes (o : Output) (h : st.indexes? = none) :
    putSource? f st o = none := by
  cases o <;> simp [putSource?, h]

theorem putSource?_done (path : String) (h : st.indexes? = some (path, .ok source)) :
    putSource? f st .done = if path = f then some source else none := by
  simp only [putSource?, h]

/-- A step that indexes a file puts the elements of its source into the index, or it fails. -/
theorem step_cases (fingerprint : String → δ) (s : Session δ) (path : String)
    (h : st.indexes? = some (path, text)) :
    (∃ source, text = .ok source ∧ extract path source = .ok (sourceElements path source) ∧
      step fingerprint s st =
        (.done, ⟨⟨s.index.byFile.insert path (sourceElements path source)⟩, s.cache⟩)) ∨
    ∃ e, step fingerprint s st = (.failed e, s) := by
  rw [step_of_indexes h]
  cases hgood : goodText? path text with
  | none =>
    obtain ⟨e, he⟩ := Index.addFile_of_bad (x := s.index) hgood
    exact .inr ⟨e, by rw [he]; rfl⟩
  | some source =>
    obtain ⟨htext, hes⟩ := goodText?_eq_some_iff.mp hgood
    exact .inl ⟨source, htext, hes, by rw [Index.addFile_of_good hgood]; rfl⟩

theorem getElem?_step (s : Session δ) (st : Step) (f : String) :
    (step fingerprint s st).2.index.byFile[f]? =
      ((putSource? f st (step fingerprint s st).1).map (sourceElements f)).or
        s.index.byFile[f]? := by
  cases h : st.indexes? with
  | none => rw [index_step h, putSource?_of_not_indexes _ h]; rfl
  | some p =>
    obtain ⟨path, text⟩ := p
    rcases step_cases fingerprint s path h with
      ⟨source, rfl, -, heq⟩ | ⟨e, heq⟩
    · rw [heq, putSource?_done path h, Std.TreeMap.getElem?_insert]
      simp only [Std.compare_eq_iff_eq]
      split
      · next hf => subst hf; rfl
      · rfl
    · rw [heq]
      rfl

theorem extract_of_putSource (h : putSource? f st (step fingerprint s st).1 = some source) :
    extract f source = .ok (sourceElements f source) := by
  cases hst : st.indexes? with
  | none => simp [putSource?_of_not_indexes _ hst] at h
  | some p =>
    obtain ⟨path, text⟩ := p
    rcases step_cases fingerprint s path hst with
      ⟨read, rfl, hread, heq⟩ | ⟨e, heq⟩
    · rw [heq, putSource?_done path hst, Option.ite_none_right_eq_some, Option.some.injEq] at h
      obtain ⟨rfl, rfl⟩ := h
      exact hread
    · simp [heq, putSource?] at h

theorem getElem?_step_of_ne (fingerprint : String → δ) (s : Session δ)
    (h : st.indexes? = some (f, text)) (g : String) (hg : g ≠ f) :
    (step fingerprint s st).2.index.byFile[g]? = s.index.byFile[g]? := by
  rcases step_cases fingerprint s f h with ⟨source, -, -, heq⟩ | ⟨e, heq⟩
  · have hne : f ≠ g := fun hfg => hg hfg.symm
    simp [heq, Std.TreeMap.getElem?_insert, hne]
  · rw [heq]

/-! ## Lookups -/

variable {seen : Set String} {qualifiedName : String} {q : Request}

theorem step_lookup_of_error (e : Error) (h : s.index.find f qualifiedName = .error e) :
    step fingerprint s (.lookup f qualifiedName q) = (.failed e, s) := by
  rw [step, h]
  rfl

theorem step_lookup_of_ok (e : Element) (hcache : Cache.Faithful fingerprint seen s.cache)
    (h : s.index.find f qualifiedName = .ok e) (he : e.docComment.getD "" ∈ seen) :
    ∃ r c, step fingerprint s (.lookup f qualifiedName q) = (.reply r, { s with cache := c }) ∧
      Cache.Faithful fingerprint seen c ∧
      (Set.InjOn fingerprint seen → r = (Annotations.parse (e.docComment.getD "")).reply q) := by
  -- The index is asked first, so the cache only sees the current comment.
  obtain ⟨r, c, heq, hc, hr⟩ := hcache.lookup e.documented q _ rfl he
  refine ⟨r, c, ?_, hc, hr⟩
  rw [step, h]
  exact congrArg s.replied heq

theorem answer_eq (x : Index) (f qualifiedName : String) (q : Request) :
    answer f qualifiedName q (x.elementsIn f) =
      match x.find f qualifiedName with
      | .ok e => .reply ((Annotations.parse (e.docComment.getD "")).reply q)
      | .error err => .failed err := by
  rw [answer, Index.find]
  cases (x.elementsIn f).find? (·.qualifiedName = qualifiedName) <;> rfl

theorem output_lookup (hcache : Cache.Faithful fingerprint seen s.cache)
    (hinj : Set.InjOn fingerprint seen)
    (hseen : ∀ e, s.index.find f qualifiedName = .ok e → e.docComment.getD "" ∈ seen) :
    (step fingerprint s (.lookup f qualifiedName q)).1 =
      answer f qualifiedName q (s.index.elementsIn f) := by
  rw [answer_eq]
  cases h : s.index.find f qualifiedName with
  | error err => rw [step_lookup_of_error err h]
  | ok e =>
    obtain ⟨r, c, heq, -, hr⟩ := step_lookup_of_ok (q := q) e hcache h (hseen e h)
    rw [heq, hr hinj]

theorem faithful_step (hcache : Cache.Faithful fingerprint seen s.cache)
    (hseen : ∀ path qualifiedName q e, st = .lookup path qualifiedName q →
      s.index.find path qualifiedName = .ok e → e.docComment.getD "" ∈ seen) :
    Cache.Faithful fingerprint seen (step fingerprint s st).2.cache := by
  cases st with
  | source path text =>
    rw [step]
    cases s.index.addSource path text <;> exact hcache
  | file path text =>
    rw [step]
    cases s.index.addFile path text <;> exact hcache
  | lookup path qualifiedName q =>
    cases h : s.index.find path qualifiedName with
    | error err => rw [step_lookup_of_error err h]; exact hcache
    | ok e =>
      obtain ⟨r, c, heq, hc, -⟩ :=
        step_lookup_of_ok (q := q) e hcache h (hseen path qualifiedName q e rfl h)
      rw [heq]
      exact hc
  | clear => exact Cache.faithful_empty

/-! ## Whole runs -/

theorem after_snoc (steps : List Step) (st : Step) :
    after fingerprint (steps ++ [st]) = (step fingerprint (after fingerprint steps) st).2 :=
  run_snoc_state _ _ _ _

theorem outputs_snoc (steps : List Step) (st : Step) :
    outputs fingerprint (steps ++ [st]) =
      outputs fingerprint steps ++ [(step fingerprint (after fingerprint steps) st).1] :=
  run_snoc_outputs _ _ _ _

theorem getElem?_outputs (steps : List Step) (i : Nat) :
    (outputs fingerprint steps)[i]? =
      steps[i]?.map fun st => (step fingerprint (after fingerprint (steps.take i)) st).1 :=
  run_output _ _ _ _

theorem latest_snoc (steps : List Step) (st : Step) (f : String) :
    latest fingerprint f (steps ++ [st]) =
      (putSource? f st (step fingerprint (after fingerprint steps) st).1).or
        (latest fingerprint f steps) := by
  have hlen : steps.length = (outputs fingerprint steps).length := (length_run_outputs _ _ _).symm
  rw [latest, outputs_snoc, List.zip_append hlen, List.filterMap_append, List.getLast?_append]
  congr 1
  cases h : putSource? f st (step fingerprint (after fingerprint steps) st).1 <;> simp [h]

theorem getElem?_after (steps : List Step) (f : String) :
    (after fingerprint steps).index.byFile[f]? =
      (latest fingerprint f steps).map (sourceElements f) := by
  induction steps using List.reverseRecOn with
  | nil => simp [after, run, empty, Index.empty, latest]
  | append_singleton steps st ih =>
    rw [after_snoc, getElem?_step, ih, latest_snoc, Option.map_or]

theorem extract_latest (steps : List Step) (h : latest fingerprint f steps = some source) :
    extract f source = .ok (sourceElements f source) := by
  induction steps using List.reverseRecOn with
  | nil => simp [latest] at h
  | append_singleton steps st ih =>
    rw [latest_snoc] at h
    rcases Option.or_eq_some_iff.mp h with hnew | ⟨-, hold⟩
    · exact extract_of_putSource hnew
    · exact ih hold

theorem faithful_after (steps : List Step) (i : Nat) :
    Cache.Faithful fingerprint (met fingerprint steps)
      (after fingerprint (steps.take i)).cache := by
  induction i with
  | zero => exact Cache.faithful_empty
  | succ i ih =>
    rw [List.take_add_one]
    cases hi : steps[i]? with
    | none => simpa using ih
    | some st =>
      rw [Option.toList_some, after_snoc]
      apply faithful_step ih
      rintro path qualifiedName q e rfl hfind
      exact ⟨i, path, qualifiedName, q, e, hi, hfind, rfl⟩

/-- After every step the index holds the elements of the latest sources, a failed step has changed
nothing, an indexed file has changed no other file, and a lookup answers from the elements that its
file has at that moment. -/
theorem never_stale (fingerprint : String → δ) (steps : List Step)
    (hinj : Set.InjOn fingerprint (met fingerprint steps)) (i : Nat) (st : Step)
    (hi : steps[i]? = some st) :
    let before := after fingerprint (steps.take i)
    let now := after fingerprint (steps.take (i + 1))
    (∀ f, match latest fingerprint f (steps.take (i + 1)) with
      | some source => extract f source = .ok (now.index.elementsIn f)
      | none => now.index.elementsIn f = []) ∧
    (∀ e, (outputs fingerprint steps)[i]? = some (.failed e) → now = before) ∧
    (∀ f text, st.indexes? = some (f, text) →
      (outputs fingerprint steps)[i]? = some (outcome f text) ∧
      ∀ g ≠ f, now.index.elementsIn g = before.index.elementsIn g ∧
        (g ∈ now.index.files ↔ g ∈ before.index.files)) ∧
    ∀ f qualifiedName q, st = .lookup f qualifiedName q →
      (outputs fingerprint steps)[i]? =
        some (answer f qualifiedName q (before.index.elementsIn f)) := by
  intro before now
  have hnow : now = (step fingerprint before st).2 := by
    rw [← after_snoc]
    simp only [now, List.take_add_one, hi, Option.toList_some]
  have hout : (outputs fingerprint steps)[i]? = some (step fingerprint before st).1 := by
    rw [getElem?_outputs, hi]
    rfl
  refine ⟨?_, ?_, ?_, ?_⟩
  · intro f
    have hfile : now.index.elementsIn f =
        ((latest fingerprint f (steps.take (i + 1))).map (sourceElements f)).getD [] := by
      rw [Index.elementsIn, getElem?_after]
    cases h : latest fingerprint f (steps.take (i + 1)) with
    | none => rw [hfile, h]; rfl
    | some source => rw [hfile, h]; exact extract_latest _ h
  · intro e he
    rw [hout, Option.some.injEq] at he
    rw [hnow, step_failed e he]
  · intro f text hst
    refine ⟨by rw [hout, output_of_indexes hst], ?_⟩
    intro g hg
    have hfile := getElem?_step_of_ne fingerprint before hst g hg
    rw [Index.mem_files_iff, Index.mem_files_iff, Index.elementsIn, Index.elementsIn, hnow, hfile]
    exact ⟨rfl, Iff.rfl⟩
  · rintro f qualifiedName q rfl
    rw [hout, output_lookup (faithful_after steps i) hinj]
    intro e hfind
    exact ⟨i, f, qualifiedName, q, e, hi, hfind, rfl⟩

/-- A class whose comment changes between two lookups, with a broken source in between. -/
def reindexed : List Step :=
  [.source "a.js" "/** @m */ class A \x7b\x7d",
   .lookup "a.js" "A" (.first "n"),
   .file "a.js" (.ok "/** @n */ class A \x7b\x7d"),
   .source "a.js" "class",
   .lookup "a.js" "A" (.first "n")]

theorem never_stale_reindexed :
    Set.InjOn id (met id reindexed) ∧
    reindexed[4]? = some (.lookup "a.js" "A" (.first "n")) ∧
    (outputs id reindexed)[4]? = some (.reply (.first (some (.bool true)))) := by
  have hinj : Set.InjOn id (met id reindexed) := Set.injOn_id _
  obtain ⟨-, -, -, hlookup⟩ := never_stale id reindexed hinj 4 _ rfl
  have hes : (after id (reindexed.take 4)).index.elementsIn "a.js" =
      [⟨"a.js::A", "A", .classKind, "a.js", 1, some "/** @n */"⟩] := by
    decide +kernel
  have hvalue : (Annotations.parse "/** @n */").first? "n" = some (.bool true) := rfl
  refine ⟨hinj, rfl, ?_⟩
  rw [hlookup "a.js" "A" (.first "n") rfl, hes]
  simp [answer, Annotations.reply, hvalue]

end Session

end DocAnnotations
