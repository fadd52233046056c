import DocAnnotations.Proofs.Index.Snapshot
import DocAnnotations.Query

/-! # Calls one after another -/

namespace DocAnnotations.Query

/-! ## Calls and answers -/

inductive Call where
  | comment (text : String)
  | first (source path qualifiedName name : String)
  | all (source path qualifiedName name : String)

/-- JSON, or nothing where an annotation is not there. -/
abbrev Answer := Except QueryError (Option String)

def Call.element? : Call → Option Element
  | .comment _ => none
  | .first source path qualifiedName _ | .all source path qualifiedName _ =>
    (elementOf source path qualifiedName).toOption

/-- The comments of the elements that calls are about. -/
def met (calls : List Call) : Set String :=
  {comment | ∃ call ∈ calls, ∃ e, call.element? = some e ∧ comment = e.docComment.getD ""}

variable {δ : Type}

/-- What a call came to. A failure leaves the cache as it was. -/
def settled (c : Cache δ) : Except QueryError (Option String × Cache δ) → Answer × Cache δ
  | .ok (text?, c') => (.ok text?, c')
  | .error e => (.error e, c)

variable [DecidableEq δ]

def step (fingerprint : String → δ) (c : Cache δ) : Call → Answer × Cache δ
  | .comment text => (.ok (some (annotationsOf text)), c)
  | .first source path qualifiedName name =>
    settled c (first fingerprint c source path qualifiedName name)
  | .all source path qualifiedName name =>
    settled c <| (all fingerprint c source path qualifiedName name).map fun (text, c') =>
      (some text, c')

/-- The answer to a call after others. -/
def answer (fingerprint : String → δ) (earlier : List Call) (call : Call) : Answer :=
  (step fingerprint (run (step fingerprint) Cache.empty earlier).2 call).1

/-! ## One call -/

variable {fingerprint : String → δ} {seen : Set String} {c : Cache δ} {call : Call}
  {e : Element} {source path qualifiedName : String}

theorem met_mono {calls others : List Call} (h : calls ⊆ others) : met calls ⊆ met others := by
  rintro comment ⟨call, hmem, hrest⟩
  exact ⟨call, h hmem, hrest⟩

theorem mem_met {calls : List Call} (hmem : call ∈ calls) (he : call.element? = some e) :
    e.docComment.getD "" ∈ met calls :=
  ⟨call, hmem, e, he, rfl⟩

theorem toOption_eq_some_iff {ε α : Type} (r : Except ε α) (a : α) :
    r.toOption = some a ↔ r = .ok a := by
  cases r <;> simp [Except.toOption]

/-- What annotations have to say to a call. -/
def Call.reply (a : Annotations) : Call → Option String
  | .comment text => some (annotationsOf text)
  | .first _ _ _ name => (a.first? name).map Json.write
  | .all _ _ _ name => some (Json.write (.list (a.all name)))

theorem step_of_element (a : Annotations) (c' : Cache δ) (he : call.element? = some e)
    (ha : c.annotations fingerprint e.documented = .ok (a, c')) :
    step fingerprint c call = (.ok (call.reply a), c') := by
  cases call with
  | comment text => simp [Call.element?] at he
  | first source path qualifiedName name =>
    have hfound : elementOf source path qualifiedName = .ok e := (toOption_eq_some_iff _ e).mp he
    have hget := Cache.get_of_annotations e.documented name a c' ha
    simp only [step, first, hfound, bind, Except.bind, hget]
    rfl
  | all source path qualifiedName name =>
    have hfound : elementOf source path qualifiedName = .ok e := (toOption_eq_some_iff _ e).mp he
    have hget := Cache.getAll_of_annotations e.documented name a c' ha
    simp only [step, all, hfound, bind, Except.bind, hget]
    rfl

theorem first_of_missing (err : QueryError) (name : String)
    (h : elementOf source path qualifiedName = .error err) :
    step fingerprint c (.first source path qualifiedName name) = (.error err, c) := by
  rw [step, first, h]
  rfl

theorem all_of_missing (err : QueryError) (name : String)
    (h : elementOf source path qualifiedName = .error err) :
    step fingerprint c (.all source path qualifiedName name) = (.error err, c) := by
  rw [step, all, h]
  rfl

theorem step_of_missing (he : call.element? = none) : (step fingerprint c call).2 = c := by
  cases call with
  | comment text => rfl
  | first source path qualifiedName name | all source path qualifiedName name =>
    cases h : elementOf source path qualifiedName with
    | error err => simp [first_of_missing err name h, all_of_missing err name h]
    | ok e => simp [Call.element?, h, Except.toOption] at he

theorem faithful_step (h : Cache.Faithful fingerprint seen c)
    (hmet : ∀ e, call.element? = some e → e.docComment.getD "" ∈ seen) :
    Cache.Faithful fingerprint seen (step fingerprint c call).2 := by
  cases he : call.element? with
  | none => rwa [step_of_missing he]
  | some e =>
    obtain ⟨a, c', ha, hc', -⟩ := h.annotations e.documented _ rfl (hmet e he)
    rwa [step_of_element a c' he ha]

/-! ## A call after others -/

theorem faithful_run (calls : List Call) :
    Cache.Faithful fingerprint (met calls) (run (step fingerprint) Cache.empty calls).2 := by
  apply run_invariant _ (Cache.Faithful fingerprint (met calls)) _ _ Cache.faithful_empty
  intro c call hcall hc
  exact faithful_step hc fun e he => mem_met hcall he

theorem answer_of_element (earlier : List Call) (he : call.element? = some e)
    (hinj : Set.InjOn fingerprint (met (earlier ++ [call]))) :
    answer fingerprint earlier call = .ok (call.reply e.annotations) := by
  -- The comment of this call counts as met, too.
  have hc : Cache.Faithful fingerprint (met (earlier ++ [call]))
      (run (step fingerprint) Cache.empty earlier).2 :=
    (faithful_run earlier).mono (met_mono (List.subset_append_left earlier [call]))
  obtain ⟨a, c', ha, -, heq⟩ := hc.annotations e.documented _ rfl (mem_met (by simp) he)
  rw [answer, step_of_element a c' he ha, heq hinj]
  rfl

end DocAnnotations.Query
