import DocAnnotations.Proofs.Extraction.Numbering

/-! # The numbers of repeated names -/

namespace DocAnnotations

/-! ## Uses at places -/

/-- That a name stands at a place, and is used there for the `k`-th time. -/
def UsedAt (names : List String) (i : Nat) (name : String) (k : Nat) : Prop :=
  names[i]? = some name ∧ (names.take (i + 1)).count name = k

/-- That a name at the place `i` is used for the first time and is written like the numbered name
at the place `j`. -/
def Collides (names : List String) (i j : Nat) : Prop :=
  ∃ name k, 2 ≤ k ∧ UsedAt names i (name ++ "#" ++ toString k) 1 ∧ UsedAt names j name k

theorem getElem?_uses (earlier names : List String) (i : Nat) :
    (uses earlier names)[i]? = names[i]?.map fun name =>
      (name, earlier.count name + (names.take (i + 1)).count name) := by
  induction names generalizing earlier i with
  | nil => simp [uses]
  | cons first rest ih =>
    cases i with
    | zero => simp [uses]
    | succ i =>
      rw [uses, List.getElem?_cons_succ, ih, List.getElem?_cons_succ, List.take_succ_cons]
      congr 1
      funext name
      simp only [List.count_cons, Prod.mk.injEq, true_and]
      omega

theorem getElem?_uses_eq_some (names : List String) (i : Nat) (name : String) (k : Nat) :
    (uses [] names)[i]? = some (name, k) ↔ UsedAt names i name k := by
  rw [getElem?_uses, UsedAt]
  cases names[i]? with
  | none => simp
  | some first =>
    simp only [Option.map_some, Option.some.injEq, Prod.mk.injEq, List.count_nil, Nat.zero_add]
    constructor
    · rintro ⟨rfl, rfl⟩
      exact ⟨rfl, rfl⟩
    · rintro ⟨rfl, rfl⟩
      exact ⟨rfl, rfl⟩

theorem UsedAt.pos {names : List String} {i : Nat} {name : String} {k : Nat}
    (h : UsedAt names i name k) : 1 ≤ k := by
  have hmem := List.mem_of_getElem? ((getElem?_uses_eq_some names i name k).mpr h)
  rw [mem_uses, List.count_nil] at hmem
  omega

theorem numberNames_append (earlier names more : List String) :
    numberNames earlier (names ++ more) =
      numberNames earlier names ++ numberNames (names.reverse ++ earlier) more := by
  induction names generalizing earlier with
  | nil => rfl
  | cons name names ih => simp [numberNames, ih]

/-! ## Equal names -/

theorem numbered_eq (name : String) (k : Nat) (h : 1 ≤ k) :
    numbered name k = if k = 1 then name else name ++ "#" ++ toString k := by
  unfold numbered
  by_cases hk : k = 1
  · simp [hk]
  · have hle : ¬ k ≤ 1 := by omega
    rw [if_neg hle, if_neg hk, Nat.toString_eq_ofList_toDigits]

theorem getElem?_numberNames {names : List String} {i : Nat} {name : String} {k : Nat}
    (h : UsedAt names i name k) : (numberNames [] names)[i]? = some (numbered name k) := by
  rw [numberNames_eq, List.getElem?_map, (getElem?_uses_eq_some names i name k).mpr h]
  rfl

theorem Collides.getElem?_eq {names : List String} {i j : Nat} (h : Collides names i j) :
    (numberNames [] names)[i]? = (numberNames [] names)[j]? := by
  obtain ⟨name, k, hk, hi, hj⟩ := h
  have hne : k ≠ 1 := by omega
  rw [getElem?_numberNames hi, getElem?_numberNames hj, numbered_one,
    numbered_eq name k hj.pos, if_neg hne]

theorem getElem?_numberNames_eq_iff (names : List String) {i j : Nat} (hi : i < names.length)
    (hj : j < names.length) (hij : i ≠ j) :
    (numberNames [] names)[i]? = (numberNames [] names)[j]? ↔
      Collides names i j ∨ Collides names j i := by
  constructor
  · intro h
    obtain ⟨⟨a, m⟩, ha⟩ : ∃ u, (uses [] names)[i]? = some u := by
      rw [getElem?_uses, List.getElem?_eq_getElem hi]
      exact ⟨_, rfl⟩
    obtain ⟨⟨b, n⟩, hb⟩ : ∃ u, (uses [] names)[j]? = some u := by
      rw [getElem?_uses, List.getElem?_eq_getElem hj]
      exact ⟨_, rfl⟩
    have hai := (getElem?_uses_eq_some names i a m).mp ha
    have hbj := (getElem?_uses_eq_some names j b n).mp hb
    rw [getElem?_numberNames hai, getElem?_numberNames hbj, Option.some.injEq] at h
    rcases numbered_eq_cases hai.pos hbj.pos h with ⟨rfl, rfl⟩ | ⟨rfl, hn, rfl⟩ | ⟨rfl, hm, rfl⟩
    · -- The same use does not stand at two places.
      have hlen := (List.getElem?_eq_some_iff.mp ha).1
      have hsame := (List.getElem?_inj hlen (nodup_uses [] names)).mp (ha.trans hb.symm)
      exact absurd hsame hij
    · left
      refine ⟨b, n, hn, ?_, hbj⟩
      rwa [numbered_eq b n hbj.pos, if_neg (by omega)] at hai
    · right
      refine ⟨a, m, hm, ?_, hai⟩
      rwa [numbered_eq a m hai.pos, if_neg (by omega)] at hbj
  · rintro (h | h)
    · exact h.getElem?_eq
    · exact h.getElem?_eq.symm

/-! ## Elements -/

namespace Element

theorem length_ofFindings (path : String) (fs : List Script.Finding) :
    (ofFindings path fs).length = fs.length := by
  simp [ofFindings, length_numberNames]

theorem getElem?_qualifiedName (path : String) (fs : List Script.Finding) (i : Nat) :
    (ofFindings path fs)[i]?.map (·.qualifiedName) =
      (numberNames [] (fs.map (·.name)))[i]? := by
  rw [← List.getElem?_map, qualifiedNames_ofFindings]

theorem take_ofFindings (path : String) (fs more : List Script.Finding) :
    (ofFindings path (fs ++ more)).take fs.length = ofFindings path fs := by
  have hlen : (numberNames [] (fs.map (·.name))).length = fs.length := by
    simp [length_numberNames]
  rw [ofFindings, List.map_append, numberNames_append, List.zipWith_append hlen]
  exact List.take_left' (length_ofFindings path fs)

/-- The `k`-th use of a name has the number `k`, and the first one has none, whatever is found
later. Two elements are called the same exactly where one is the first of a name that is written
like the numbered name of the other; if there is no such name, their identities are different. -/
theorem ordinals_exact (path : String) (fs : List Script.Finding) :
    (ofFindings path fs).length = fs.length ∧
    (∀ i name k, UsedAt (fs.map (·.name)) i name k →
      1 ≤ k ∧ (ofFindings path fs)[i]?.map (·.qualifiedName) =
        some (if k = 1 then name else name ++ "#" ++ toString k)) ∧
    (∀ more, (ofFindings path (fs ++ more)).take fs.length = ofFindings path fs) ∧
    (∀ i j e e', i ≠ j → (ofFindings path fs)[i]? = some e → (ofFindings path fs)[j]? = some e' →
      (e.qualifiedName = e'.qualifiedName ↔
        Collides (fs.map (·.name)) i j ∨ Collides (fs.map (·.name)) j i)) ∧
    ((∀ name k, 2 ≤ k → k ≤ (fs.map (·.name)).count name →
        name ++ "#" ++ toString k ∉ fs.map (·.name)) →
      ((ofFindings path fs).map (·.identity)).Nodup) := by
  refine ⟨length_ofFindings path fs, ?_, take_ofFindings path fs, ?_, ?_⟩
  · intro i name k h
    rw [getElem?_qualifiedName, getElem?_numberNames h, numbered_eq name k h.pos]
    exact ⟨h.pos, rfl⟩
  · intro i j e e' hij hi hj
    have hlen : ∀ {n : Nat} {a : Element}, (ofFindings path fs)[n]? = some a →
        n < (fs.map (·.name)).length := by
      intro n a h
      have hlt := (List.getElem?_eq_some_iff.mp h).1
      rwa [length_ofFindings, ← List.length_map (·.name)] at hlt
    rw [← getElem?_numberNames_eq_iff _ (hlen hi) (hlen hj) hij, ← getElem?_qualifiedName path,
      ← getElem?_qualifiedName path, hi, hj, Option.map_some, Option.map_some, Option.some.injEq]
  · intro h
    have hapart : NumbersApart (fs.map (·.name)) := by
      intro name k htwo hk
      rw [numbered_eq name k (by omega), if_neg (by omega)]
      exact h name k htwo hk
    rw [nodup_identities_iff fun e he => (mem_ofFindings path fs e he).2,
      qualifiedNames_ofFindings, nodup_numberNames_iff]
    exact hapart

theorem ordinals_exact_repeated :
    let method (name : String) : Script.Finding := ⟨name, .method, 1, []⟩
    let shared := [method "m", method "m", method "m#2"]
    let apart := [method "m", method "m", method "n#2"]
    UsedAt ["m", "m", "m#2"] 1 "m" 2 ∧
    (ofFindings "a.js" shared)[1]?.map (·.qualifiedName) = some ("m" ++ "#" ++ toString 2) ∧
    Collides ["m", "m", "m#2"] 2 1 ∧
    (∃ e e', (ofFindings "a.js" shared)[2]? = some e ∧ (ofFindings "a.js" shared)[1]? = some e' ∧
      e.qualifiedName = e'.qualifiedName) ∧
    ((ofFindings "a.js" apart).map (·.identity)).Nodup := by
  intro method shared apart
  have hused : UsedAt ["m", "m", "m#2"] 1 "m" 2 := ⟨rfl, by decide⟩
  have hcollides : Collides ["m", "m", "m#2"] 2 1 :=
    ⟨"m", 2, by decide, ⟨by decide, by decide⟩, hused⟩
  obtain ⟨-, hnamed, -, hequal, -⟩ := ordinals_exact "a.js" shared
  obtain ⟨-, -, -, -, hnodup⟩ := ordinals_exact "a.js" apart
  refine ⟨hused, (hnamed 1 "m" 2 hused).2, hcollides, ⟨_, _, rfl, rfl, ?_⟩, hnodup ?_⟩
  · exact (hequal 2 1 _ _ (by decide) rfl rfl).mpr (.inl hcollides)
  · intro name k htwo hk
    have hname : name = "m" := by
      by_contra hne
      have hcount : ["m", "m", "n#2"].count name ≤ 1 := by
        rw [List.count_cons_of_ne (Ne.symm hne), List.count_cons_of_ne (Ne.symm hne)]
        exact List.count_le_length
      exact absurd (Nat.le_trans hk hcount) (by omega)
    subst hname
    have hcount : k = 2 := Nat.le_antisymm hk htwo
    subst hcount
    decide

end Element

end DocAnnotations
