import DocAnnotations.Proofs.Json.Spelling

/-!
# Reading what is spelled

The reader takes exactly the texts that spell a value. What stands behind does not
matter unless it continues a number.
-/

namespace DocAnnotations.Json

open Decimal (isDigit)

/-! ## White space -/

theorem isSpace_of_isStart (c : Char) (h : isStart c = true) : isSpace c = false := by
  by_contra hspace
  simp only [isSpace, Bool.not_eq_false, Bool.or_eq_true, beq_iff_eq] at hspace
  rcases hspace with ((rfl | rfl) | rfl) | rfl <;> exact absurd h (by decide)

theorem skipSpace_cons (c : Char) (cs : List Char) (h : isSpace c = false) :
    skipSpace (c :: cs) = c :: cs := by
  simp [skipSpace, h]

theorem skipSpace_append {before : List Char} (h : Spaces before) (cs : List Char) :
    skipSpace (before ++ cs) = skipSpace cs :=
  List.dropWhile_append_of_pos h

theorem skipSpace_eq_nil_iff (cs : List Char) : skipSpace cs = [] ↔ Spaces cs :=
  List.dropWhile_eq_nil_iff

theorem exists_spaces (cs : List Char) : ∃ before, Spaces before ∧ cs = before ++ skipSpace cs :=
  ⟨cs.takeWhile isSpace, fun _ hc => List.mem_takeWhile_imp hc,
    List.takeWhile_append_dropWhile.symm⟩

theorem skipSpace_skipSpace (cs : List Char) : skipSpace (skipSpace cs) = skipSpace cs := by
  obtain ⟨before, hbefore, heq⟩ := exists_spaces cs
  rw [← skipSpace_append hbefore (skipSpace cs), ← heq]

theorem Spells.skipSpace {depth : Nat} {cs : List Char} {v : Value} (h : Spells depth cs (.value v))
    {before : List Char} (hbefore : Spaces before) (rest : List Char) :
    skipSpace (before ++ (cs ++ rest)) = cs ++ rest := by
  obtain ⟨c, cs, rfl, hc⟩ := h.head
  rw [skipSpace_append hbefore]
  exact skipSpace_cons c _ (isSpace_of_isStart c hc)

theorem endsNumber_cons (c : Char) (rest : List Char)
    (h : isDigit c = false ∧ c ≠ '.' ∧ c ≠ 'e' ∧ c ≠ 'E') : EndsNumber (c :: rest) := by
  intro d hd
  simp only [List.head?_cons, Option.some.injEq] at hd
  exact hd ▸ h

theorem endsNumber_append {after rest : List Char} (h : Spaces after) (hr : EndsNumber rest) :
    EndsNumber (after ++ rest) := by
  cases after with
  | nil => exact hr
  | cons c after =>
    apply endsNumber_cons
    have hc := h c List.mem_cons_self
    simp only [isSpace, Bool.or_eq_true, beq_iff_eq] at hc
    rcases hc with ((rfl | rfl) | rfl) | rfl <;> decide

theorem endsNumber_of_spaces {after : List Char} (h : Spaces after) : EndsNumber after := by
  have hnil : EndsNumber [] := by simp [EndsNumber]
  simpa using endsNumber_append h hnil

/-! ## One step of the reader -/

theorem readValue_numeral (fuel depth : Nat) {n : Numeral} {v : Value} {c : Char}
    {cs rest : List Char} (hc : c = '-' ∨ isDigit c = true)
    (h : readNumeral (c :: cs) = some (n, rest)) (hv : n.value? = some v) :
    readValue (fuel + 1) depth (c :: cs) = some (v, rest) := by
  have hne : ∀ d, isDigit d = false → d ≠ '-' → c ≠ d := by
    rintro d hd hminus rfl
    simp_all
  simp [readValue, hne 'n' rfl (by decide), hne 't' rfl (by decide), hne 'f' rfl (by decide),
    hne '"' rfl (by decide), hne '[' rfl (by decide), hne '\x7b' rfl (by decide), h, hv]

theorem readValue_text (fuel depth : Nat) {cs : List Char} {s : String} (h : SpellsText cs s)
    (rest : List Char) : readValue (fuel + 1) depth (cs ++ rest) = some (.text s, rest) := by
  obtain ⟨body, rfl, hbody⟩ := h
  have hread := readText_of_spells hbody rest
  rw [List.cons_append, List.append_assoc, List.singleton_append]
  simp [readValue, hread]

theorem readItems_skipSpace (fuel depth : Nat) (cs : List Char) :
    readItems fuel depth (skipSpace cs) = readItems fuel depth cs := by
  cases fuel <;> simp [readItems, skipSpace_skipSpace]

theorem readMembers_skipSpace (fuel depth : Nat) (cs : List Char) :
    readMembers fuel depth (skipSpace cs) = readMembers fuel depth cs := by
  cases fuel <;> simp [readMembers, skipSpace_skipSpace]

theorem readValue_of_not_isStart (fuel depth : Nat) {c : Char} (h : isStart c = false)
    (rest : List Char) : readValue fuel depth (c :: rest) = none := by
  simp only [isStart, Bool.or_eq_false_iff, beq_eq_false_iff_ne] at h
  obtain ⟨⟨⟨⟨⟨⟨⟨hn, ht⟩, hf⟩, hquote⟩, hlist⟩, hmap⟩, hminus⟩, hdigit⟩ := h
  have hzero : c ≠ '0' := by
    rintro rfl
    simp [isDigit] at hdigit
  cases fuel with
  | zero => simp [readValue]
  | succ fuel =>
    simp [readValue, hn, ht, hf, hquote, hlist, hmap, readNumeral, hminus, readWhole, hzero, hdigit]

theorem readValue_list {fuel depth : Nat} {vs : List Value} {cs rest : List Char}
    (h : readItems fuel depth cs = some (vs, rest)) :
    readValue (fuel + 1) (depth + 1) ('[' :: cs) = some (.list vs, rest) := by
  rw [← readItems_skipSpace] at h
  have hclose : ∀ after, skipSpace cs ≠ ']' :: after := by
    intro after heq
    rw [heq] at h
    have hnone : ∀ k, readValue k depth (']' :: after) = none :=
      fun k => readValue_of_not_isStart k depth rfl after
    cases fuel <;> simp [readItems, skipSpace_cons ']' after rfl, hnone] at h
  simp [readValue, h]

theorem readValue_map {fuel depth : Nat} {ms : List (String × Value)} {cs rest : List Char}
    (h : readMembers fuel depth cs = some (ms, rest)) :
    readValue (fuel + 1) (depth + 1) ('\x7b' :: cs) = some (.ofMembers ms, rest) := by
  rw [← readMembers_skipSpace] at h
  have hclose : ∀ after, skipSpace cs ≠ '\x7d' :: after := by
    intro after heq
    rw [heq] at h
    cases fuel <;> simp [readMembers, skipSpace_cons '\x7d' after rfl] at h
  simp [readValue, h]

theorem readItems_last {fuel depth : Nat} {v : Value} {cs after rest : List Char}
    (hafter : Spaces after)
    (h : readValue fuel depth (skipSpace cs) = some (v, after ++ ']' :: rest)) :
    readItems (fuel + 1) depth cs = some ([v], rest) := by
  simp [readItems, h, skipSpace_append hafter, skipSpace_cons ']' rest rfl]

theorem readItems_next {fuel depth : Nat} {v : Value} {vs : List Value}
    {cs after more rest : List Char} (hafter : Spaces after)
    (h : readValue fuel depth (skipSpace cs) = some (v, after ++ ',' :: more))
    (hmore : readItems fuel depth more = some (vs, rest)) :
    readItems (fuel + 1) depth cs = some (v :: vs, rest) := by
  simp [readItems, h, skipSpace_append hafter, skipSpace_cons ',' more rfl, hmore]

theorem SpellsKey.skipSpace {text : List Char} {key : String} (h : SpellsKey text key)
    (cs : List Char) :
    ∃ body after, SpellsChars body key.toList ∧ Spaces after ∧
      skipSpace (text ++ cs) = '"' :: (body ++ '"' :: (after ++ ':' :: cs)) := by
  obtain ⟨before, _, after, hbefore, ⟨body, rfl, hbody⟩, hafter, rfl⟩ := h
  refine ⟨body, after, hbody, hafter, ?_⟩
  rw [List.append_assoc, skipSpace_append hbefore, List.cons_append, List.cons_append,
    skipSpace_cons '"' _ rfl]
  simp

theorem readMembers_last {fuel depth : Nat} {text : List Char} {key : String} {v : Value}
    {cs after rest : List Char} (hkey : SpellsKey text key) (hafter : Spaces after)
    (h : readValue fuel depth (skipSpace cs) = some (v, after ++ '\x7d' :: rest)) :
    readMembers (fuel + 1) depth (text ++ cs) = some ([(key, v)], rest) := by
  obtain ⟨body, behind, hbody, hbehind, hskip⟩ := hkey.skipSpace cs
  have hread := readText_of_spells hbody (behind ++ ':' :: cs)
  simp [readMembers, hskip, hread, skipSpace_append hbehind, skipSpace_cons ':' cs rfl, h,
    skipSpace_append hafter, skipSpace_cons '\x7d' rest rfl]

theorem readMembers_next {fuel depth : Nat} {text : List Char} {key : String} {v : Value}
    {ms : List (String × Value)} {cs after more rest : List Char} (hkey : SpellsKey text key)
    (hafter : Spaces after)
    (h : readValue fuel depth (skipSpace cs) = some (v, after ++ ',' :: more))
    (hmore : readMembers fuel depth more = some (ms, rest)) :
    readMembers (fuel + 1) depth (text ++ cs) = some ((key, v) :: ms, rest) := by
  obtain ⟨body, behind, hbody, hbehind, hskip⟩ := hkey.skipSpace cs
  have hread := readText_of_spells hbody (behind ++ ':' :: cs)
  simp [readMembers, hskip, hread, skipSpace_append hbehind, skipSpace_cons ':' cs rfl, h,
    skipSpace_append hafter, skipSpace_cons ',' more rfl, hmore]

/-! ## Spelled phrases are read -/

/-- Reading the text gives the phrase and leaves what stands behind, be it more than the rest of a
number. There are two units of fuel for each character: one for the item or member, one for its
value. -/
def Phrase.IsRead (depth : Nat) (cs : List Char) : Phrase → Prop
  | .value v => ∀ fuel rest, 2 * cs.length ≤ fuel → EndsNumber rest →
      readValue fuel depth (cs ++ rest) = some (v, rest)
  | .items vs => vs ≠ [] → ∀ fuel rest, 2 * cs.length + 1 ≤ fuel →
      readItems fuel depth (cs ++ ']' :: rest) = some (vs, rest)
  | .members ms => ms ≠ [] → ∀ fuel rest, 2 * cs.length + 1 ≤ fuel →
      readMembers fuel depth (cs ++ '\x7d' :: rest) = some (ms, rest)

theorem spaces_of_noItems {depth : Nat} {cs : List Char} (h : Spells depth cs (.items [])) :
    Spaces cs := by
  cases h
  assumption

theorem spaces_of_noMembers {depth : Nat} {cs : List Char} (h : Spells depth cs (.members [])) :
    Spaces cs := by
  cases h
  assumption

theorem Spells.isRead {depth : Nat} {cs : List Char} {x : Phrase} (h : Spells depth cs x) :
    x.IsRead depth cs := by
  induction h with
  | null | yes | no =>
    intro fuel rest hfuel _
    obtain ⟨fuel, rfl⟩ : ∃ k, fuel = k + 1 := ⟨fuel - 1, by simp at hfuel; omega⟩
    simp [readValue]
  | text h =>
    intro fuel rest hfuel _
    obtain ⟨body, rfl, -⟩ := id h
    obtain ⟨fuel, rfl⟩ : ∃ k, fuel = k + 1 := ⟨fuel - 1, by simp at hfuel; omega⟩
    exact readValue_text fuel _ h rest
  | number h hv =>
    intro fuel rest hfuel hr
    have hread := readNumeral_of_spells h rest hr
    obtain ⟨c, cs, rfl, hc⟩ := h.head
    obtain ⟨fuel, rfl⟩ : ∃ k, fuel = k + 1 := ⟨fuel - 1, by simp at hfuel; omega⟩
    exact readValue_numeral fuel _ hc hread hv
  | @list depth cs vs h ih =>
    intro fuel rest hfuel _
    simp only [List.length_cons, List.length_append, List.length_nil] at hfuel
    obtain ⟨fuel, rfl⟩ : ∃ k, fuel = k + 1 := ⟨fuel - 1, by omega⟩
    rw [List.cons_append, List.append_assoc, List.singleton_append]
    -- A list without items ends before the first one is looked for.
    by_cases hvs : vs = []
    · subst hvs
      simp [readValue, skipSpace_append (spaces_of_noItems h), skipSpace_cons ']' rest rfl]
    · exact readValue_list (ih hvs fuel rest (by omega))
  | @map depth cs ms h ih =>
    intro fuel rest hfuel _
    simp only [List.length_cons, List.length_append, List.length_nil] at hfuel
    obtain ⟨fuel, rfl⟩ : ∃ k, fuel = k + 1 := ⟨fuel - 1, by omega⟩
    rw [List.cons_append, List.append_assoc, List.singleton_append]
    by_cases hms : ms = []
    · subst hms
      simp [readValue, skipSpace_append (spaces_of_noMembers h), skipSpace_cons '\x7d' rest rfl,
        Value.ofMembers]
    · exact readValue_map (ih hms fuel rest (by omega))
  | noItems | noMembers => exact fun hne => absurd rfl hne
  | @lastItem depth before cs after v hbefore h hafter ih =>
    intro _ fuel rest hfuel
    simp only [List.length_append] at hfuel
    obtain ⟨fuel, rfl⟩ : ∃ k, fuel = k + 1 := ⟨fuel - 1, by omega⟩
    apply readItems_last hafter
    rw [List.append_assoc, List.append_assoc, h.skipSpace hbefore]
    exact ih fuel _ (by omega) (endsNumber_append hafter (endsNumber_cons _ _ (by decide)))
  | @nextItem depth before cs after more v w vs hbefore h hafter _ ih ihrest =>
    intro _ fuel rest hfuel
    simp only [List.length_append, List.length_cons] at hfuel
    obtain ⟨fuel, rfl⟩ : ∃ k, fuel = k + 1 := ⟨fuel - 1, by omega⟩
    refine readItems_next hafter ?_
      (ihrest (by simp) fuel rest (by omega))
    rw [List.append_assoc, List.append_assoc, List.append_assoc, h.skipSpace hbefore,
      List.cons_append]
    exact ih fuel _ (by omega) (endsNumber_append hafter (endsNumber_cons _ _ (by decide)))
  | @lastMember depth text before cs after key v hkey hbefore h hafter ih =>
    intro _ fuel rest hfuel
    simp only [List.length_append] at hfuel
    obtain ⟨fuel, rfl⟩ : ∃ k, fuel = k + 1 := ⟨fuel - 1, by omega⟩
    rw [List.append_assoc]
    apply readMembers_last hkey hafter
    rw [List.append_assoc, List.append_assoc, h.skipSpace hbefore]
    exact ih fuel _ (by omega) (endsNumber_append hafter (endsNumber_cons _ _ (by decide)))
  | @nextMember depth text before cs after more key v m ms hkey hbefore h hafter _ ih ihrest =>
    intro _ fuel rest hfuel
    simp only [List.length_append, List.length_cons] at hfuel
    obtain ⟨fuel, rfl⟩ : ∃ k, fuel = k + 1 := ⟨fuel - 1, by omega⟩
    rw [List.append_assoc]
    refine readMembers_next hkey hafter ?_
      (ihrest (by simp) fuel rest (by omega))
    rw [List.append_assoc, List.append_assoc, List.append_assoc, h.skipSpace hbefore,
      List.cons_append]
    exact ih fuel _ (by omega) (endsNumber_append hafter (endsNumber_cons _ _ (by decide)))

/-! ## What is read is spelled -/

theorem spellsText_of_readText {cs t rest : List Char} (h : readText cs = some (t, rest)) :
    ∃ used, '"' :: cs = used ++ rest ∧ SpellsText used (String.ofList t) := by
  obtain ⟨body, rfl, hbody⟩ := spells_of_readText h
  exact ⟨'"' :: (body ++ ['"']), by simp, body, rfl, by simpa using hbody⟩

mutual

theorem spells_of_readValue (fuel : Nat) {depth : Nat} {cs rest : List Char} {v : Value}
    (h : readValue fuel depth cs = some (v, rest)) :
    ∃ used, cs = used ++ rest ∧ Spells depth used (.value v) := by
  match fuel with
  | 0 => simp [readValue] at h
  | fuel + 1 =>
    unfold readValue at h
    split at h
    · obtain ⟨rfl, rfl⟩ := Prod.mk.inj (Option.some.inj h)
      exact ⟨_, rfl, .null⟩
    · obtain ⟨rfl, rfl⟩ := Prod.mk.inj (Option.some.inj h)
      exact ⟨_, rfl, .yes⟩
    · obtain ⟨rfl, rfl⟩ := Prod.mk.inj (Option.some.inj h)
      exact ⟨_, rfl, .no⟩
    · obtain ⟨⟨t, after⟩, hread, h⟩ := Option.bind_eq_some_iff.mp h
      obtain ⟨rfl, rfl⟩ := Prod.mk.inj (Option.some.inj h)
      obtain ⟨used, heq, hspells⟩ := spellsText_of_readText hread
      exact ⟨used, heq, .text hspells⟩
    · next after =>
      obtain ⟨before, hbefore, heq⟩ := exists_spaces after
      split at h
      · simp at h
      · split at h
        · next close hclose =>
          obtain ⟨rfl, rfl⟩ := Prod.mk.inj (Option.some.inj h)
          refine ⟨_, ?_, .list (.noItems hbefore)⟩
          rw [heq, hclose]
          simp
        · obtain ⟨⟨vs, after'⟩, hread, h⟩ := Option.bind_eq_some_iff.mp h
          obtain ⟨rfl, rfl⟩ := Prod.mk.inj (Option.some.inj h)
          rw [readItems_skipSpace] at hread
          obtain ⟨used, rfl, -, hspells⟩ := spells_of_readItems fuel hread
          exact ⟨'[' :: (used ++ [']']), by simp, .list hspells⟩
    · next after =>
      obtain ⟨before, hbefore, heq⟩ := exists_spaces after
      split at h
      · simp at h
      · split at h
        · next close hclose =>
          obtain ⟨rfl, rfl⟩ := Prod.mk.inj (Option.some.inj h)
          refine ⟨_, ?_, .map (.noMembers hbefore)⟩
          rw [heq, hclose]
          simp
        · obtain ⟨⟨ms, after'⟩, hread, h⟩ := Option.bind_eq_some_iff.mp h
          obtain ⟨rfl, rfl⟩ := Prod.mk.inj (Option.some.inj h)
          rw [readMembers_skipSpace] at hread
          obtain ⟨used, rfl, -, hspells⟩ := spells_of_readMembers fuel hread
          exact ⟨'\x7b' :: (used ++ ['\x7d']), by simp, .map hspells⟩
    · obtain ⟨⟨n, after⟩, hread, h⟩ := Option.bind_eq_some_iff.mp h
      obtain ⟨w, hw, h⟩ := Option.bind_eq_some_iff.mp h
      obtain ⟨rfl, rfl⟩ := Prod.mk.inj (Option.some.inj h)
      obtain ⟨used, rfl, hspells⟩ := spells_of_readNumeral hread
      exact ⟨used, rfl, .number hspells hw⟩

theorem spells_of_readItems (fuel : Nat) {depth : Nat} {cs rest : List Char} {vs : List Value}
    (h : readItems fuel depth cs = some (vs, rest)) :
    ∃ used, cs = used ++ ']' :: rest ∧ vs ≠ [] ∧ Spells depth used (.items vs) := by
  match fuel with
  | 0 => simp [readItems] at h
  | fuel + 1 =>
    unfold readItems at h
    obtain ⟨⟨v, after⟩, hread, h⟩ := Option.bind_eq_some_iff.mp h
    obtain ⟨before, hbefore, hcs⟩ := exists_spaces cs
    obtain ⟨used, hused, hv⟩ := spells_of_readValue fuel hread
    obtain ⟨behind, hbehind, hafter⟩ := exists_spaces after
    simp only at h
    split at h
    · next more hmore =>
      obtain ⟨⟨vs', rest'⟩, hread', h⟩ := Option.bind_eq_some_iff.mp h
      obtain ⟨rfl, rfl⟩ := Prod.mk.inj (Option.some.inj h)
      obtain ⟨tail, htail, hne, hvs⟩ := spells_of_readItems fuel hread'
      obtain ⟨w, ws, rfl⟩ := List.exists_cons_of_ne_nil hne
      refine ⟨_, ?_, by simp, .nextItem hbefore hv hbehind hvs⟩
      rw [hcs, hused, hafter, hmore, htail]
      simp
    · next more hmore =>
      obtain ⟨rfl, rfl⟩ := Prod.mk.inj (Option.some.inj h)
      refine ⟨_, ?_, by simp, .lastItem hbefore hv hbehind⟩
      rw [hcs, hused, hafter, hmore]
      simp
    · simp at h

theorem spells_of_readMembers (fuel : Nat) {depth : Nat} {cs rest : List Char}
    {ms : List (String × Value)} (h : readMembers fuel depth cs = some (ms, rest)) :
    ∃ used, cs = used ++ '\x7d' :: rest ∧ ms ≠ [] ∧ Spells depth used (.members ms) := by
  match fuel with
  | 0 => simp [readMembers] at h
  | fuel + 1 =>
    unfold readMembers at h
    obtain ⟨before, hbefore, hcs⟩ := exists_spaces cs
    split at h
    · next text hquote =>
      obtain ⟨⟨t, after⟩, htext, h⟩ := Option.bind_eq_some_iff.mp h
      obtain ⟨keyText, hkeyEq, hkeyText⟩ := spellsText_of_readText htext
      obtain ⟨colon, hcolon, hafter⟩ := exists_spaces after
      simp only at h
      split at h
      · next valueText hcolonEq =>
        obtain ⟨⟨v, after'⟩, hread, h⟩ := Option.bind_eq_some_iff.mp h
        have hkey : SpellsKey (before ++ (keyText ++ (colon ++ [':']))) (String.ofList t) :=
          ⟨before, keyText, colon, hbefore, hkeyText, hcolon, rfl⟩
        obtain ⟨space, hspace, hvalueText⟩ := exists_spaces valueText
        obtain ⟨used, hused, hv⟩ := spells_of_readValue fuel hread
        obtain ⟨behind, hbehind, hafter'⟩ := exists_spaces after'
        have hstart : cs = before ++ (keyText ++ (colon ++ [':'])) ++
            (space ++ (used ++ (behind ++ Json.skipSpace after'))) := by
          rw [hcs, hquote, hkeyEq, hafter, hcolonEq, hvalueText, hused, ← hafter']
          simp
        simp only at h
        split at h
        · next more hmore =>
          obtain ⟨⟨ms', rest'⟩, hread', h⟩ := Option.bind_eq_some_iff.mp h
          obtain ⟨rfl, rfl⟩ := Prod.mk.inj (Option.some.inj h)
          obtain ⟨tail, htail, hne, hms⟩ := spells_of_readMembers fuel hread'
          obtain ⟨m, ms, rfl⟩ := List.exists_cons_of_ne_nil hne
          refine ⟨_, ?_, by simp, .nextMember hkey hspace hv hbehind hms⟩
          rw [hstart, hmore, htail]
          simp
        · next more hmore =>
          obtain ⟨rfl, rfl⟩ := Prod.mk.inj (Option.some.inj h)
          refine ⟨_, ?_, by simp, .lastMember hkey hspace hv hbehind⟩
          rw [hstart, hmore]
          simp
        · simp at h
      · simp at h
    · simp at h

end

/-! ## Whole texts -/

/-- A text is read as a value exactly if it spells the value, perhaps between white space. -/
theorem readChars_eq_some_iff (cs : List Char) (v : Value) :
    readChars cs = some v ↔ SpellsPadded maxDepth cs v := by
  constructor
  · intro h
    obtain ⟨⟨w, rest⟩, hread, h⟩ := Option.bind_eq_some_iff.mp h
    obtain ⟨before, hbefore, hcs⟩ := exists_spaces cs
    obtain ⟨text, htext, hspells⟩ := spells_of_readValue _ hread
    simp only [Option.ite_none_right_eq_some, Option.some.injEq, skipSpace_eq_nil_iff] at h
    obtain ⟨hrest, rfl⟩ := h
    exact ⟨before, text, rest, hbefore, hrest, by rw [← htext, ← hcs], hspells⟩
  · rintro ⟨before, text, after, hbefore, hafter, rfl, hspells⟩
    have hread := hspells.isRead (2 * (before ++ (text ++ after)).length + 2) after
      (by simp; omega) (endsNumber_of_spaces hafter)
    rw [readChars, hspells.skipSpace hbefore, hread]
    simp [(skipSpace_eq_nil_iff after).mpr hafter]

theorem SpellsPadded.unique {m n : Nat} {cs : List Char} {v w : Value} (hv : SpellsPadded m cs v)
    (hw : SpellsPadded n cs w) : v = w := by
  have hread : ∀ {k : Nat} {u : Value}, SpellsPadded k cs u → k ≤ max m n →
      ∃ rest, readValue (2 * cs.length) (max m n) (skipSpace cs) = some (u, rest) := by
    rintro k u ⟨before, text, after, hbefore, hafter, rfl, hspells⟩ hk
    refine ⟨after, ?_⟩
    rw [hspells.skipSpace hbefore]
    exact (hspells.mono hk).isRead _ after (by simp; omega) (endsNumber_of_spaces hafter)
  -- Both values are read at the greater depth, where each reading gives what it gave.
  obtain ⟨rest, hv⟩ := hread hv (Nat.le_max_left m n)
  obtain ⟨rest', hw⟩ := hread hw (Nat.le_max_right m n)
  rw [hv, Option.some.injEq, Prod.mk.injEq] at hw
  exact hw.1

theorem readChars_writeValue (v : Value) (hf : v.FloatFree) (hk : v.KeysDistinct)
    (hd : v.depth ≤ maxDepth) : readChars (writeValue v) = some v :=
  (readChars_eq_some_iff _ v).mpr ((spells_self v hf hk).mono hd).padded

end DocAnnotations.Json
