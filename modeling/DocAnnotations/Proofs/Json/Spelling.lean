import DocAnnotations.Proofs.Json.Numerals
import DocAnnotations.Proofs.Json.Strings
import DocAnnotations.Proofs.Json.Written

/-!
# How values are spelled

Which texts spell which values, at a depth that bounds how deep the text nests.
-/

namespace DocAnnotations.Json

open Decimal (isDigit)

def Spaces (cs : List Char) : Prop := ∀ c ∈ cs, isSpace c = true

/-- A key with its colon. -/
def SpellsKey (cs : List Char) (key : String) : Prop :=
  ∃ before text after, Spaces before ∧ SpellsText text key ∧ Spaces after ∧
    cs = before ++ (text ++ (after ++ [':']))

/-- What a text can spell: a value, or what stands between the brackets of a list or a map. -/
inductive Phrase where
  | value (v : Value)
  | items (vs : List Value)
  | members (ms : List (String × Value))

/-- A text spells a phrase. Between brackets there may be white space around every item and around
the value of every member. -/
inductive Spells : Nat → List Char → Phrase → Prop
  | null {depth : Nat} : Spells depth "null".toList (.value .null)
  | yes {depth : Nat} : Spells depth "true".toList (.value (.bool true))
  | no {depth : Nat} : Spells depth "false".toList (.value (.bool false))
  | text {depth : Nat} {cs : List Char} {s : String} (h : SpellsText cs s) :
      Spells depth cs (.value (.text s))
  | number {depth : Nat} {cs : List Char} {n : Numeral} {v : Value} (h : SpellsNumeral cs n)
      (hv : n.value? = some v) : Spells depth cs (.value v)
  | list {depth : Nat} {cs : List Char} {items : List Value} (h : Spells depth cs (.items items)) :
      Spells (depth + 1) ('[' :: (cs ++ [']'])) (.value (.list items))
  | map {depth : Nat} {cs : List Char} {members : List (String × Value)}
      (h : Spells depth cs (.members members)) :
      Spells (depth + 1) ('\x7b' :: (cs ++ ['\x7d'])) (.value (.ofMembers members))
  | noItems {depth : Nat} {cs : List Char} (h : Spaces cs) : Spells depth cs (.items [])
  | lastItem {depth : Nat} {before cs after : List Char} {v : Value} (hbefore : Spaces before)
      (h : Spells depth cs (.value v)) (hafter : Spaces after) :
      Spells depth (before ++ (cs ++ after)) (.items [v])
  | nextItem {depth : Nat} {before cs after rest : List Char} {v w : Value} {items : List Value}
      (hbefore : Spaces before) (h : Spells depth cs (.value v)) (hafter : Spaces after)
      (hrest : Spells depth rest (.items (w :: items))) :
      Spells depth (before ++ (cs ++ (after ++ ',' :: rest))) (.items (v :: w :: items))
  | noMembers {depth : Nat} {cs : List Char} (h : Spaces cs) : Spells depth cs (.members [])
  | lastMember {depth : Nat} {text before cs after : List Char} {key : String} {v : Value}
      (hkey : SpellsKey text key) (hbefore : Spaces before) (h : Spells depth cs (.value v))
      (hafter : Spaces after) :
      Spells depth (text ++ (before ++ (cs ++ after))) (.members [(key, v)])
  | nextMember {depth : Nat} {text before cs after rest : List Char} {key : String} {v : Value}
      {m : String × Value} {members : List (String × Value)} (hkey : SpellsKey text key)
      (hbefore : Spaces before) (h : Spells depth cs (.value v)) (hafter : Spaces after)
      (hrest : Spells depth rest (.members (m :: members))) :
      Spells depth (text ++ (before ++ (cs ++ (after ++ ',' :: rest))))
        (.members ((key, v) :: m :: members))

theorem Spells.mono {m n : Nat} {cs : List Char} {x : Phrase} (h : Spells m cs x) (hmn : m ≤ n) :
    Spells n cs x := by
  induction h generalizing n with
  | null => exact .null
  | yes => exact .yes
  | no => exact .no
  | text h => exact .text h
  | number h hv => exact .number h hv
  | list _ ih =>
    obtain ⟨n, rfl⟩ : ∃ k, n = k + 1 := ⟨n - 1, by omega⟩
    exact .list (ih (by omega))
  | map _ ih =>
    obtain ⟨n, rfl⟩ : ∃ k, n = k + 1 := ⟨n - 1, by omega⟩
    exact .map (ih (by omega))
  | noItems h => exact .noItems h
  | lastItem hbefore _ hafter ih => exact .lastItem hbefore (ih hmn) hafter
  | nextItem hbefore _ hafter _ ih ihrest =>
    exact .nextItem hbefore (ih hmn) hafter (ihrest hmn)
  | noMembers h => exact .noMembers h
  | lastMember hkey hbefore _ hafter ih => exact .lastMember hkey hbefore (ih hmn) hafter
  | nextMember hkey hbefore _ hafter _ ih ihrest =>
    exact .nextMember hkey hbefore (ih hmn) hafter (ihrest hmn)

/-! ## Spelled values -/

theorem number_of_value? {n : Numeral} {v : Value} (h : n.value? = some v) :
    (∃ i, v = .int i) ∨ ∃ x, v = .float x := by
  unfold Numeral.value? at h
  split at h
  · split_ifs at h <;> rw [← Option.some.inj h]
    · exact .inl ⟨_, rfl⟩
    · exact .inr ⟨_, rfl⟩
    · exact .inl ⟨_, rfl⟩
    · exact .inr ⟨_, rfl⟩
  · obtain ⟨x, -, rfl⟩ := Option.map_eq_some_iff.mp h
    exact .inr ⟨_, rfl⟩

/-- Every value of the phrase nests at most so deep, and its keys differ. -/
def Phrase.Fits (n : Nat) : Phrase → Prop
  | .value v => v.Fits n
  | .items vs => ∀ v ∈ vs, v.Fits n
  | .members ms => ∀ m ∈ ms, m.2.Fits n

theorem Spells.fits {depth : Nat} {cs : List Char} {x : Phrase} (h : Spells depth cs x) :
    x.Fits depth := by
  induction h with
  | null => exact Value.fits_null _
  | yes | no => exact Value.fits_bool _ _
  | text => exact Value.fits_text _ _
  | @number depth _ _ _ _ hv =>
    obtain ⟨i, rfl⟩ | ⟨x, rfl⟩ := number_of_value? hv
    · exact Value.fits_int i depth
    · exact Value.fits_float x depth
  | list _ ih => exact Value.fits_list ih
  | map _ ih => exact Value.fits_ofMembers ih
  | noItems | noMembers => simp [Phrase.Fits]
  | lastItem _ _ _ ih | lastMember _ _ _ _ ih => simpa [Phrase.Fits] using ih
  | nextItem _ _ _ _ ih ihrest | nextMember _ _ _ _ _ ih ihrest =>
    exact List.forall_mem_cons.mpr ⟨ih, ihrest⟩

/-! ## Where a spelling starts and ends -/

/-- The characters that a spelling starts with. -/
def isStart (c : Char) : Bool :=
  c == 'n' || c == 't' || c == 'f' || c == '"' || c == '[' || c == '\x7b' || c == '-' || isDigit c

/-- The characters that a spelling ends with. -/
def isEnd (c : Char) : Bool :=
  c == 'l' || c == 'e' || c == '"' || c == ']' || c == '\x7d' || isDigit c

theorem isBlank_of_isStart (c : Char) (h : isStart c = true) : Text.isBlank c = false := by
  simp only [isStart, Bool.or_eq_true, beq_iff_eq, isDigit_iff] at h
  rcases h with ((((((rfl | rfl) | rfl) | rfl) | rfl) | rfl) | rfl) | ⟨hlo, hhi⟩
  all_goals try rfl
  simp [Text.isBlank]
  omega

theorem isBlank_of_isEnd (c : Char) (h : isEnd c = true) : Text.isBlank c = false := by
  simp only [isEnd, Bool.or_eq_true, beq_iff_eq, isDigit_iff] at h
  rcases h with ((((rfl | rfl) | rfl) | rfl) | rfl) | ⟨hlo, hhi⟩
  all_goals try rfl
  simp [Text.isBlank]
  omega

theorem getLast?_closed (first last : Char) (cs : List Char) :
    (first :: (cs ++ [last])).getLast? = some last := by
  rw [← List.cons_append, List.getLast?_concat]

theorem Spells.head {depth : Nat} {cs : List Char} {v : Value} (h : Spells depth cs (.value v)) :
    ∃ c rest, cs = c :: rest ∧ isStart c = true := by
  cases h with
  | null | yes | no => exact ⟨_, _, rfl, rfl⟩
  | text h =>
    obtain ⟨body, rfl, -⟩ := h
    exact ⟨_, _, rfl, rfl⟩
  | number h =>
    obtain ⟨c, rest, rfl, hc⟩ := h.head
    refine ⟨c, rest, rfl, ?_⟩
    rcases hc with rfl | hc
    · rfl
    · simp [isStart, hc]
  | list | map => exact ⟨_, _, rfl, rfl⟩

theorem Spells.last {depth : Nat} {cs : List Char} {v : Value} (h : Spells depth cs (.value v))
    (c : Char) (hc : cs.getLast? = some c) : isEnd c = true := by
  cases h with
  | null | yes | no =>
    obtain rfl : _ = c := Option.some.inj hc
    rfl
  | text h =>
    obtain ⟨body, rfl, -⟩ := h
    rw [getLast?_closed, Option.some.injEq] at hc
    exact hc ▸ rfl
  | number h => simp [isEnd, h.last c hc]
  | list | map =>
    rw [getLast?_closed, Option.some.injEq] at hc
    exact hc ▸ rfl

/-- White space may stand around the text of a value. -/
def SpellsPadded (depth : Nat) (cs : List Char) (v : Value) : Prop :=
  ∃ before text after, Spaces before ∧ Spaces after ∧ cs = before ++ (text ++ after) ∧
    Spells depth text (.value v)

theorem SpellsPadded.mono {m n : Nat} {cs : List Char} {v : Value} (h : SpellsPadded m cs v)
    (hmn : m ≤ n) : SpellsPadded n cs v := by
  obtain ⟨before, text, after, hbefore, hafter, heq, hspells⟩ := h
  exact ⟨before, text, after, hbefore, hafter, heq, hspells.mono hmn⟩

theorem spaces_nil : Spaces [] := by
  simp [Spaces]

theorem Spells.padded {depth : Nat} {cs : List Char} {v : Value} (h : Spells depth cs (.value v)) :
    SpellsPadded depth cs v :=
  ⟨[], cs, [], spaces_nil, spaces_nil, by simp, h⟩

theorem Spaces.eq_nil {cs : List Char} (h : Spaces cs)
    (hfirst : ∀ c, cs.head? = some c → isSpace c = false) : cs = [] := by
  cases cs with
  | nil => rfl
  | cons c rest =>
    have hc := h c List.mem_cons_self
    simp [hfirst c rfl] at hc

theorem SpellsPadded.spells {depth : Nat} {cs : List Char} {v : Value} (h : SpellsPadded depth cs v)
    (hfirst : ∀ c, cs.head? = some c → isSpace c = false)
    (hlast : ∀ c, cs.getLast? = some c → isSpace c = false) : Spells depth cs (.value v) := by
  obtain ⟨before, text, after, hbefore, hafter, rfl, hspells⟩ := h
  obtain rfl : before = [] := by
    apply hbefore.eq_nil
    intro c hc
    exact hfirst c (by simp [hc])
  obtain hnil : after.reverse = [] := by
    apply Spaces.eq_nil (fun c hc => hafter c (List.mem_reverse.mp hc))
    intro c hc
    rw [List.head?_reverse] at hc
    exact hlast c (by simp [hc])
  simpa [List.reverse_eq_nil_iff.mp hnil] using hspells

theorem isBlank_of_isSpace (c : Char) (h : isSpace c = true) : Text.isBlank c = true := by
  simp only [isSpace, Bool.or_eq_true, beq_iff_eq] at h
  rcases h with ((rfl | rfl) | rfl) | rfl <;> rfl

theorem isSpace_of_not_isBlank {c : Char} (h : Text.isBlank c = false) : isSpace c = false := by
  by_contra hspace
  rw [isBlank_of_isSpace c (by simpa using hspace)] at h
  exact absurd h (by decide)

theorem trimBoth_spelled {depth : Nat} {before text after : List Char} {v : Value}
    {p : Char → Bool} (hp : ∀ c, p c = true → Text.isBlank c = true)
    (hbefore : ∀ c ∈ before, p c = true) (hafter : ∀ c ∈ after, p c = true)
    (h : Spells depth text (.value v)) : Text.trimBoth p (before ++ (text ++ after)) = text := by
  have hkept : ∀ c, Text.isBlank c = false → p c = false := by
    intro c hc
    by_contra hpc
    rw [hp c (by simpa using hpc)] at hc
    exact absurd hc (by decide)
  rw [Text.trimBoth_padded before text after hbefore hafter]
  apply Text.trimBoth_of_ends
  · intro c hc
    obtain ⟨d, rest, rfl, hstart⟩ := h.head
    obtain rfl : d = c := by simpa using hc
    exact hkept d (isBlank_of_isStart d hstart)
  · intro c hc
    exact hkept c (isBlank_of_isEnd c (h.last c hc))

theorem trimBlank_padded {depth : Nat} {before text after : List Char} {v : Value}
    (hbefore : Spaces before) (hafter : Spaces after) (h : Spells depth text (.value v)) :
    Text.trimBlank (before ++ (text ++ after)) = text :=
  trimBoth_spelled (fun _ hc => hc) (fun c hc => isBlank_of_isSpace c (hbefore c hc))
    (fun c hc => isBlank_of_isSpace c (hafter c hc)) h

theorem spellsPadded_iff (depth : Nat) (cs : List Char) (v : Value) :
    SpellsPadded depth cs v ↔ Spells depth (Text.trimBoth isSpace cs) (.value v) := by
  constructor
  · rintro ⟨before, text, after, hbefore, hafter, rfl, hspells⟩
    rwa [trimBoth_spelled isBlank_of_isSpace hbefore hafter hspells]
  · intro h
    obtain ⟨before, after, hbefore, hafter, -, heq⟩ := Text.exists_trimmed isSpace cs
    exact ⟨before, _, after, hbefore, hafter, heq, h⟩

/-! ## Literals -/

theorem Spells.eq_writeValue {depth : Nat} {cs : List Char} {v : Value}
    (h : Spells depth cs (.value v)) (hv : v.IsScalar) : cs = writeValue v := by
  cases h with
  | null | yes | no => rfl
  | number h hn =>
    obtain ⟨i, rfl⟩ | ⟨x, rfl⟩ := number_of_value? hn
    · exact eq_writeInt_of_value? h hn
    · exact absurd hv id
  | text | list | map => exact absurd hv id

theorem spells_scalar_iff (depth : Nat) (cs : List Char) {v : Value} (hv : v.IsScalar) :
    Spells depth cs (.value v) ↔ cs = writeValue v := by
  refine ⟨fun h => h.eq_writeValue hv, ?_⟩
  rintro rfl
  cases v with
  | null => exact .null
  | bool b =>
    cases b with
    | true => exact .yes
    | false => exact .no
  | int i => exact .number (spellsNumeral_writeInt i.toInt) (value?_int i)
  | float | text | list | map => exact absurd hv id

theorem spells_null_iff (depth : Nat) (cs : List Char) :
    Spells depth cs (.value .null) ↔ cs = "null".toList :=
  spells_scalar_iff depth cs trivial

theorem spells_list_iff (depth : Nat) (cs : List Char) (items : List Value) :
    Spells (depth + 1) ('[' :: (cs ++ [']'])) (.value (.list items)) ↔
      Spells depth cs (.items items) := by
  constructor
  · intro h
    generalize hx : Phrase.value (.list items) = x at h
    generalize hn : depth + 1 = n at h
    generalize ht : '[' :: (cs ++ [']']) = text at h
    cases h with
    | list h =>
      simp at hx hn ht
      subst hx hn ht
      exact h
    | number _ hv =>
      obtain ⟨i, rfl⟩ | ⟨y, rfl⟩ := number_of_value? hv <;> simp at hx
    | _ => simp [Value.ofMembers] at hx
  · exact .list

/-! ## Written values -/

theorem spellsKey_writeText (key : String) : SpellsKey (writeText key.toList ++ [':']) key :=
  ⟨[], _, [], spaces_nil, spellsText_writeText key, spaces_nil, rfl⟩

mutual

theorem spells_writeValue (v : Value) (n : Nat) (hdepth : v.depth ≤ n)
    (hex : ∀ w ∈ v.parts, Exact w) : Spells n (writeValue v) (.value v) := by
  match v with
  | .null => exact .null
  | .bool true => exact .yes
  | .bool false => exact .no
  | .int i => exact .number (spellsNumeral_writeInt i.toInt) (value?_int i)
  | .float x => exact absurd (exact_self _ hex) id
  | .text s => exact .text (spellsText_writeText s)
  | .list vs =>
    simp only [Value.depth] at hdepth
    obtain ⟨n, rfl⟩ : ∃ k, n = k + 1 := ⟨n - 1, by omega⟩
    exact .list (spells_writeItems vs n (by omega) fun w hw => hex w (by simp [Value.parts, hw]))
  | .map es =>
    simp only [Value.depth] at hdepth
    obtain ⟨n, rfl⟩ : ∃ k, n = k + 1 := ⟨n - 1, by omega⟩
    have hmap := Spells.map
      (spells_writeEntries es n (by omega) fun w hw => hex w (by simp [Value.parts, hw]))
    rwa [Value.ofMembers_of_nodup es (exact_self _ hex)] at hmap

theorem spells_writeItems (vs : List Value) (n : Nat) (hdepth : Value.itemDepth vs ≤ n)
    (hex : ∀ w ∈ Value.itemParts vs, Exact w) : Spells n (writeItems vs) (.items vs) := by
  match vs with
  | [] => exact .noItems spaces_nil
  | [v] =>
    simp only [Value.itemDepth] at hdepth
    have hv := spells_writeValue v n (by omega) fun w hw => hex w (by simp [Value.itemParts, hw])
    simpa [writeItems] using Spells.lastItem spaces_nil hv spaces_nil
  | v :: w :: rest =>
    rw [Value.itemDepth] at hdepth
    have hv := spells_writeValue v n (by omega) fun u hu => hex u (by simp [Value.itemParts, hu])
    have hrest := spells_writeItems (w :: rest) n (by omega) fun u hu => hex u (by
      rw [Value.itemParts]
      exact List.mem_append_right _ hu)
    exact Spells.nextItem spaces_nil hv spaces_nil hrest

theorem spells_writeEntries (es : List (String × Value)) (n : Nat)
    (hdepth : Value.entryDepth es ≤ n) (hex : ∀ w ∈ Value.entryParts es, Exact w) :
    Spells n (writeEntries es) (.members es) := by
  match es with
  | [] => exact .noMembers spaces_nil
  | [(key, v)] =>
    simp only [Value.entryDepth] at hdepth
    have hv := spells_writeValue v n (by omega) fun w hw => hex w (by simp [Value.entryParts, hw])
    simpa [writeEntries] using
      Spells.lastMember (spellsKey_writeText key) spaces_nil hv spaces_nil
  | (key, v) :: e :: rest =>
    rw [Value.entryDepth] at hdepth
    have hv := spells_writeValue v n (by omega) fun u hu => hex u (by simp [Value.entryParts, hu])
    have hrest := spells_writeEntries (e :: rest) n (by omega) fun u hu => hex u (by
      rw [Value.entryParts]
      exact List.mem_append_right _ hu)
    simpa [writeEntries] using
      Spells.nextMember (spellsKey_writeText key) spaces_nil hv spaces_nil hrest

end

theorem spells_self (v : Value) (hf : v.FloatFree) (hk : v.KeysDistinct) :
    Spells v.depth (writeValue v) (.value v) :=
  spells_writeValue v v.depth (Nat.le_refl _) (exact_parts v hf hk)

end DocAnnotations.Json
