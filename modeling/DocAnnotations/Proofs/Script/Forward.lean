import DocAnnotations.Proofs.Script.Lines
import DocAnnotations.Proofs.Script.Window

/-!
# Parsers that go forward

A parser goes forward if it never ends on an earlier line than it starts, even
where it fails, and if what it gives is in order. Going back keeps that: it leads
to a state that the parser around has been in.
-/

namespace DocAnnotations.Script

variable {α β σ : Type} [Traced α] [Traced β] [Traced σ] {w : Window}

/-- How a parser may end that goes forward from a window. -/
def Window.Allows (w : Window) : EStateM.Result Unit State α → Prop
  | .ok a s => ∃ n, s.Reaches (w.reached + n) ∧ InOrder a ∧ Within (w.on n) a
  | .error _ s => s.Reaches w.reached

/-- That a parser goes forward from a window. -/
class Forward (w : Window) (p : Parser α) : Prop where
  allows : ∀ c s, s.Reaches w.reached → w.Allows (p c s)

theorem Window.allows_ok (w : Window) (a : α) {s : State} (hs : s.Reaches w.reached)
    [ha : InOrder a] [hw : Within w a] : w.Allows (.ok a s : EStateM.Result Unit State α) :=
  ⟨0, hs, ha, hw⟩

theorem Window.Allows.mono {w' : Window} {result : EStateM.Result Unit State α}
    (h : w'.Allows result) (hfirst : w.first ≤ w'.first) (hreached : w.reached ≤ w'.reached) :
    w.Allows result := by
  cases result with
  | ok a s =>
    obtain ⟨n, hs, ha, hw⟩ := h
    refine ⟨w'.reached - w.reached + n, hs.of_le ?_, ha, hw.mono hfirst ?_⟩
    · omega
    · simp only [Window.on]
      omega
  | error e s => exact h.of_le hreached

/-! ## Running a parser -/

section

open Script.Parser

variable {γ δ : Type} (p : Parser γ) (c : Context) (s : State)

theorem run_bind (f : γ → Parser δ) :
    (p >>= f) c s =
      match p c s with
      | .ok a s' => f a c s'
      | .error e s' => .error e s' := by
  show EStateM.bind (p c) (fun a => f a c) s = _
  unfold EStateM.bind
  cases p c s <;> rfl

theorem run_tryCatch (q : Parser γ) :
    (tryCatch p fun _ => q) c s =
      match p c s with
      | .ok a s' => .ok a s'
      | .error _ s' => q c s' := by
  show EStateM.tryCatch (p c) (fun _ => q c) s = _
  unfold EStateM.tryCatch
  cases p c s <;> rfl

theorem run_get : (get : Parser State) c s = .ok s s := rfl

theorem run_attempt (p : Parser (Option γ)) :
    attempt p c s =
      match p c s with
      | .ok (some a) s' => .ok (some a) s'
      | .ok none _ => .ok none s
      | .error _ _ => .ok none s := by
  simp only [attempt, run_bind, run_get, run_tryCatch]
  rcases p c s with ⟨_ | a, s'⟩ | ⟨e, s'⟩ <;> rfl

theorem run_tolerate :
    tolerate p c s =
      match p c s with
      | .ok a s' => .ok (some a) s'
      | .error _ s' => .ok none s' := by
  simp only [tolerate, run_bind, run_tryCatch]
  cases p c s <;> rfl

theorem run_lookAhead (p : Parser Bool) : ∃ b, lookAhead p c s = .ok b s := by
  simp only [lookAhead, run_bind, run_get, run_tryCatch]
  cases p c s <;> exact ⟨_, rfl⟩

end

/-! ## One after the other -/

namespace Forward

/-- The first parser may be looked at in another window that has reached the same line. -/
theorem bind_from {v : Window} {p : Parser α} {f : α → Parser β} (hreached : v.reached = w.reached)
    (hp : Forward v p)
    (hf : ∀ n a, InOrder a → Within (v.on n) a → Forward (w.on n) (f a)) : Forward w (p >>= f) := by
  refine ⟨fun c s hs => ?_⟩
  have hallows := hp.allows c s (hreached ▸ hs)
  rw [run_bind]
  cases hresult : p c s with
  | ok a s' =>
    rw [hresult] at hallows
    obtain ⟨n, hs', ha, hw⟩ := hallows
    rw [hreached] at hs'
    exact ((hf n a ha hw).allows c s' hs').mono (Nat.le_refl _) (Nat.le_add_right _ _)
  | error e s' =>
    rw [hresult] at hallows
    rwa [Window.Allows, hreached] at hallows

theorem bind {p : Parser α} {f : α → Parser β} (hp : Forward w p)
    (hf : ∀ n a, InOrder a → Within (w.on n) a → Forward (w.on n) (f a)) : Forward w (p >>= f) :=
  bind_from rfl hp hf

theorem since {p : Parser α} (start : Mark) [hstart : Within w start]
    (hp : Forward (w.since start (hstart.all start List.mem_cons_self).2) p) : Forward w p :=
  ⟨fun c s hs => (hp.allows c s hs).mono (hstart.all start List.mem_cons_self).1 (Nat.le_refl _)⟩

end Forward

open Script.Parser

instance forward_bind (p : Parser α) (f : α → Parser β) [hp : Forward w p]
    [hf : ∀ n, ∀ a : Found (w.on n) α, Forward (w.on n) (f a.val)] : Forward w (p >>= f) :=
  hp.bind fun n a ha hw => hf n ⟨a, ha, hw⟩

-- The results that do not matter, or are looked at at once, are told apart at once.

instance (priority := high) forward_bind_unit (p : Parser Unit) (f : Unit → Parser β)
    [hp : Forward w p] [hf : ∀ n, Forward (w.on n) (f ())] : Forward w (p >>= f) :=
  hp.bind fun n _ _ _ => hf n

instance (priority := high) forward_bind_option (p : Parser (Option α)) (f : Option α → Parser β)
    [hp : Forward w p] [hnone : ∀ n, Forward (w.on n) (f none)]
    [hsome : ∀ n, ∀ a : Found (w.on n) α, Forward (w.on n) (f (some a.val))] :
    Forward w (p >>= f) := by
  refine hp.bind fun n o ho hw => ?_
  cases o with
  | none => exact hnone n
  | some a =>
    exact hsome n ⟨a, inOrder_option_iff.mp ho a rfl, within_some_iff.mp hw⟩

instance (priority := high) forward_bind_prod (p : Parser (α × σ)) (f : α × σ → Parser β)
    [hp : Forward w p]
    [hf : ∀ n, ∀ a : Found (w.on n) α, ∀ x : Found (w.on n) σ,
      Forward (w.on n) (f (a.val, x.val))] :
    Forward w (p >>= f) :=
  hp.bind fun n q hq hw => hf n ⟨q.1, hq.fst, hw.fst⟩ ⟨q.2, hq.snd, hw.snd⟩

instance (priority := high) forward_fail_bind (f : α → Parser β) : Forward w (fail >>= f) :=
  ⟨fun _ _ hs => hs⟩

instance forward_fail : Forward w (fail : Parser α) := ⟨fun _ _ hs => hs⟩

instance forward_pure (a : α) [InOrder a] [Within w a] : Forward w (pure a : Parser α) :=
  ⟨fun _ _ hs => w.allows_ok a hs⟩

instance forward_map (g : α → β) (p : Parser α) [hp : Forward w p]
    [∀ n, ∀ a : Found (w.on n) α, InOrder (g a.val)]
    [∀ n, ∀ a : Found (w.on n) α, Within (w.on n) (g a.val)] : Forward w (g <$> p) :=
  forward_bind p fun a => pure (g a)

theorem Forward.ite {b : Prop} [Decidable b] {p q : Parser α} (hp : Forward w p)
    (hq : Forward w q) : Forward w (if b then p else q) := by
  split
  · exact hp
  · exact hq

instance forward_ite (b : Prop) [Decidable b] (p q : Parser α) [hp : Forward w p]
    [hq : Forward w q] : Forward w (if b then p else q) :=
  .ite hp hq

instance forward_andM (p q : Parser Bool) [hp : Forward w p] [hq : ∀ n, Forward (w.on n) q] :
    Forward w (p <&&> q) := by
  refine hp.bind fun n b _ _ => ?_
  cases b with
  | true => exact hq n
  | false => exact forward_pure false

instance forward_orM (p q : Parser Bool) [hp : Forward w p] [hq : ∀ n, Forward (w.on n) q] :
    Forward w (p <||> q) := by
  refine hp.bind fun n b _ _ => ?_
  cases b with
  | true => exact forward_pure true
  | false => exact hq n

instance forward_within (f : Context → Context) (p : Parser α) [hp : Forward w p] :
    Forward w (Parser.within f p) :=
  ⟨fun c s hs => hp.allows (f c) s hs⟩

/-! ## Steps -/

instance forward_get : Forward w (get : Parser State) := ⟨fun _ s hs => w.allows_ok s hs⟩

instance forward_read : Forward w (read : Parser Context) := ⟨fun c _ hs => w.allows_ok c hs⟩

theorem forward_moveTo (taken : Bool) {line : Nat} (cs : List Char) (hline : w.reached ≤ line) :
    Forward w (moveTo taken line cs) :=
  ⟨fun _ _ _ => w.allows_ok () ((State.reaches_behind taken false line cs).of_le hline)⟩

instance forward_advance : Forward w advance :=
  ⟨fun _ s hs => w.allows_ok ()
    ((State.reaches_behind _ false s.line s.rest).of_le hs.le_line)⟩

theorem forward_get_bind {f : State → Parser β}
    (hf : ∀ s : State, s.Reaches w.reached → Forward w (f s)) : Forward w (get >>= f) :=
  ⟨fun c s hs => (hf s hs).allows c s hs⟩

/-- The mark of the current token has been reached. -/
instance (priority := high) forward_current_bind (f : Lexeme → Parser β)
    [hf : ∀ n, ∀ l : {l : Lexeme // Within (w.on n) l.mark}, Forward (w.on n) (f l.val)] :
    Forward w (current >>= f) := by
  refine ⟨fun c s hs => ?_⟩
  obtain ⟨n, hn⟩ := Nat.exists_eq_add_of_le hs.le_start
  have hmark : Within (w.on n) s.current.mark := by
    refine ⟨List.pairwise_singleton _ _, ?_⟩
    have hfirst := w.first_le
    simp only [Traced.marks, List.mem_singleton, forall_eq, Window.on]
    omega
  have hreaches : s.Reaches (w.on n).reached := ⟨Nat.le_of_eq hn.symm, hs.start_le, hs.spelled⟩
  exact ((hf n ⟨s.current, hmark⟩).allows c s hreaches).mono (Nat.le_refl _) (Nat.le_add_right _ _)

theorem forward_token_bind {f : Token → Parser β}
    (hf : ∀ t : Token, t.Spelled → Forward w (f t)) : Forward w (token >>= f) :=
  ⟨fun c s hs => (hf s.current.token hs.spelled).allows c s hs⟩

instance within_mark (l : {l : Lexeme // Within w l.mark}) : Within w l.val.mark := l.property

instance forward_current : Forward w current := by
  unfold current
  infer_instance

instance forward_token : Forward w token := by
  unfold token
  infer_instance

instance forward_types : Forward w types := by
  unfold types
  infer_instance

instance forward_peek : Forward w peek := by
  unfold peek
  infer_instance

instance forward_isAt (p : Punct) : Forward w (isAt p) := by
  unfold isAt
  infer_instance

instance forward_isAtWord (word : String) : Forward w (isAtWord word) := by
  unfold isAtWord
  infer_instance

instance forward_eat (p : Punct) : Forward w (eat p) := by
  unfold eat
  infer_instance

instance forward_eatWord (word : String) : Forward w (eatWord word) := by
  unfold eatWord
  infer_instance

instance forward_expect (p : Punct) : Forward w (expect p) := by
  unfold expect
  infer_instance

instance forward_expectWord (word : String) : Forward w (expectWord word) := by
  unfold expectWord
  infer_instance

instance forward_onNewLine : Forward w onNewLine := by
  unfold onNewLine
  infer_instance

instance forward_wordFollows (word : String) : Forward w (wordFollows word) := by
  unfold wordFollows
  infer_instance

instance forward_atEnd : Forward w atEnd := by
  unfold atEnd
  infer_instance

instance forward_eatEnd : Forward w eatEnd := by
  unfold eatEnd
  infer_instance

instance forward_expectEnd : Forward w expectEnd := by
  unfold expectEnd
  infer_instance

/-! ## Going back -/

instance forward_attempt (p : Parser (Option α)) [hp : Forward w p] : Forward w (attempt p) := by
  refine ⟨fun c s hs => ?_⟩
  have hallows := hp.allows c s hs
  rw [run_attempt]
  rcases hresult : p c s with ⟨_ | a, s'⟩ | ⟨e, s'⟩
  · exact w.allows_ok none hs
  · rwa [hresult] at hallows
  · exact w.allows_ok none hs

instance forward_tolerate (p : Parser α) [hp : Forward w p] : Forward w (tolerate p) := by
  refine ⟨fun c s hs => ?_⟩
  have hallows := hp.allows c s hs
  rw [run_tolerate]
  cases hresult : p c s with
  | ok a s' =>
    rw [hresult] at hallows
    obtain ⟨n, hs', ha, hw⟩ := hallows
    exact ⟨n, hs', inferInstance, inferInstance⟩
  | error e s' =>
    rw [hresult] at hallows
    exact w.allows_ok none hallows

instance forward_lookAhead (p : Parser Bool) : Forward w (lookAhead p) := by
  refine ⟨fun c s hs => ?_⟩
  obtain ⟨b, hb⟩ := run_lookAhead c s p
  rw [hb]
  exact w.allows_ok b hs

/-! ## Loops -/

theorem forward_stepUpTo {step : σ → Parser (σ ⊕ α)}
    (hstep : ∀ w, ∀ s : Found w σ, Forward w (step s.val)) (n : Nat) (s : Found w σ) :
    Forward w (stepUpTo step n s.val) := by
  induction n generalizing w with
  | zero => exact forward_fail
  | succ n ih =>
    rw [stepUpTo]
    refine (hstep w s).bind fun m result hresult hwithin => ?_
    cases result with
    | inl s' => exact ih ⟨s', ⟨hresult.all⟩, ⟨hwithin.ascends, hwithin.all⟩⟩
    | inr a =>
      have ha : InOrder a := ⟨hresult.all⟩
      have hw : Within (w.on m) a := ⟨hwithin.ascends, hwithin.all⟩
      exact forward_pure a

theorem Forward.iterate {step : σ → Parser (σ ⊕ α)}
    (hstep : ∀ w, ∀ s : Found w σ, Forward w (step s.val)) (s : σ) [hs : InOrder s]
    [Within w s] : Forward w (iterate step s) := by
  unfold Parser.iterate
  refine forward_read.bind fun n c _ _ => ?_
  exact forward_stepUpTo hstep c.bound ⟨s, hs, inferInstance⟩

instance forward_iterate (step : σ → Parser (σ ⊕ α)) (s : σ) [InOrder s] [Within w s]
    [hstep : ∀ w, ∀ s : Found w σ, Forward w (step s.val)] : Forward w (iterate step s) :=
  .iterate hstep s

theorem Within.snoc {l : List α} {a : α} {n : Nat} (hl : Within w l) (ha : Within (w.last.on n) a) :
    Within (w.on n) (l ++ [a]) := by
  have hmarks : Traced.marks (l ++ [a]) = Traced.marks l ++ Traced.marks a := by
    simp [Traced.marks]
  refine ⟨?_, ?_⟩
  · rw [hmarks, Ascends, List.pairwise_append]
    exact ⟨hl.ascends, ha.ascends, fun m hm m' hm' =>
      Nat.le_trans (hl.all m hm).2 (ha.all m' hm').1⟩
  · intro m hm
    rw [hmarks, List.mem_append] at hm
    rcases hm with hm | hm
    · exact ((within_on l n).all m hm)
    · exact ⟨Nat.le_trans w.first_le (ha.all m hm).1, (ha.all m hm).2⟩

theorem forward_manyUpTo {item : Parser (Option α)} (hitem : ∀ w, Forward w item) (n : Nat)
    (found : List α) [InOrder found] (hfound : Within w found.reverse) :
    Forward w (stepUpTo (fun found => do
      match ← item with
      | some a => return .inl (a :: found)
      | none => return .inr found.reverse) n found) := by
  induction n generalizing w found with
  | zero => exact forward_fail
  | succ n ih =>
    rw [stepUpTo, bind_assoc]
    -- The next item is read in the last line alone, so its marks lie behind those before it.
    refine Forward.bind_from (v := w.last) rfl (hitem _) fun m o ho hwithin => ?_
    cases o with
    | none =>
      have hw : Within (w.on m) found.reverse := inferInstance
      exact forward_pure found.reverse
    | some a =>
      have ha : InOrder a := inOrder_option_iff.mp ho a rfl
      rw [pure_bind]
      apply ih
      rw [List.reverse_cons]
      exact hfound.snoc (within_some_iff.mp hwithin)

theorem Forward.many {item : Parser (Option α)} (hitem : ∀ w, Forward w item) :
    Forward w (many item) := by
  unfold Parser.many Parser.iterate
  refine forward_read.bind fun n c _ _ => ?_
  exact forward_manyUpTo hitem c.bound [] within_nil

instance forward_many (item : Parser (Option α)) [hitem : ∀ w, Forward w item] :
    Forward w (many item) :=
  .many hitem

theorem Forward.mapM [Markless β] {f : α → Parser β} (hf : ∀ w a, InOrder a → Forward w (f a))
    {l : List α} (hl : InOrder l) : Forward w (l.mapM f) := by
  induction l generalizing w with
  | nil => exact forward_pure []
  | cons a l ih =>
    obtain ⟨ha, hl⟩ := inOrder_cons_iff.mp hl
    rw [List.mapM_cons]
    refine .bind (hf w a ha) fun _ _ _ _ => ?_
    exact .bind (ih hl) fun _ _ _ _ => inferInstance

instance forward_manyUntil (closes : Parser Bool) (item : Parser α) [∀ w, Forward w closes]
    [∀ w, Forward w item] : Forward w (manyUntil closes item) := by
  unfold manyUntil
  infer_instance

instance forward_separated (closes : Parser Bool) (item : Parser α) [∀ w, Forward w closes]
    [∀ w, Forward w item] : Forward w (separated closes item) := by
  unfold separated
  infer_instance

end DocAnnotations.Script
