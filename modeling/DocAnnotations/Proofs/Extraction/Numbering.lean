import DocAnnotations.Extraction
import Mathlib.Data.List.Basic
import Mathlib.Data.List.Nodup

/-!
# Numbers for repeated names

Two uses of a name have different numbers. What can still happen is that the
numbered form of one name is another name.
-/

namespace DocAnnotations

/-! ## The uses of names -/

/-- Each name with the number of its use, `earlier` being the names used before. -/
def uses (earlier : List String) : List String → List (String × Nat)
  | [] => []
  | name :: rest => (name, earlier.count name + 1) :: uses (name :: earlier) rest

theorem numberNames_eq (earlier names : List String) :
    numberNames earlier names = (uses earlier names).map fun u => numbered u.1 u.2 := by
  induction names generalizing earlier with
  | nil => rfl
  | cons name rest ih => simp [numberNames, uses, ih]

theorem length_numberNames (earlier names : List String) :
    (numberNames earlier names).length = names.length := by
  induction names generalizing earlier with
  | nil => rfl
  | cons name rest ih => simp [numberNames, ih]

theorem mem_uses (earlier names : List String) (name : String) (n : Nat) :
    (name, n) ∈ uses earlier names ↔
      earlier.count name < n ∧ n ≤ earlier.count name + names.count name := by
  induction names generalizing earlier with
  | nil => simp [uses]
  | cons first rest ih =>
    rw [uses, List.mem_cons, ih, Prod.mk.injEq]
    by_cases h : first = name
    · subst h
      simp only [List.count_cons_self, true_and]
      omega
    · simp only [List.count_cons_of_ne h]
      have hne : name ≠ first := fun e => h e.symm
      simp [hne]

theorem mem_of_mem_uses (names : List String) (name : String) (n : Nat)
    (h : (name, n) ∈ uses [] names) : name ∈ names := by
  rw [mem_uses, List.count_nil] at h
  exact List.count_pos_iff.mp (by omega)

theorem nodup_uses (earlier names : List String) : (uses earlier names).Nodup := by
  induction names generalizing earlier with
  | nil => exact List.nodup_nil
  | cons name rest ih =>
    refine List.nodup_cons.mpr ⟨?_, ih _⟩
    rw [mem_uses, List.count_cons_self]
    omega

/-! ## Numbered names -/

theorem numbered_one (name : String) : numbered name 1 = name := rfl

theorem toList_numbered (name : String) (n : Nat) (h : 2 ≤ n) :
    (numbered name n).toList = name.toList ++ '#' :: Nat.toDigits 10 n := by
  have hn : ¬ n ≤ 1 := by omega
  simp [numbered, hn]

theorem sharp_not_mem_toDigits (n : Nat) : '#' ∉ Nat.toDigits 10 n := by
  intro h
  have hdigit := Nat.isDigit_of_mem_toDigits (by omega) (by omega) h
  simp at hdigit

theorem append_cons_inj_of_last {c : Char} {as bs us vs : List Char} (hu : c ∉ us) (hv : c ∉ vs)
    (h : as ++ c :: us = bs ++ c :: vs) : as = bs ∧ us = vs := by
  -- If the cuts were apart, the later one would stand in the rest behind the other.
  rcases List.append_eq_append_iff.mp h with ⟨gap, rfl, hgap⟩ | ⟨gap, rfl, hgap⟩
  · cases gap with
    | nil => simp_all
    | cons d gap => simp_all
  · cases gap with
    | nil => simp_all
    | cons d gap => simp_all

theorem numbered_inj (a b : String) (m n : Nat) (hm : 2 ≤ m) (hn : 2 ≤ n)
    (h : numbered a m = numbered b n) : a = b ∧ m = n := by
  have hlist := congrArg String.toList h
  rw [toList_numbered a m hm, toList_numbered b n hn] at hlist
  -- The last `#` stands in front of the digits, whatever the name holds.
  obtain ⟨hname, hdigits⟩ :=
    append_cons_inj_of_last (sharp_not_mem_toDigits m) (sharp_not_mem_toDigits n) hlist
  have hnumber := congrArg (Nat.ofDigitChars 10 · 0) hdigits
  exact ⟨String.toList_inj.mp hname, by simpa using hnumber⟩

/-- Two uses are called the same if they are the same, or if one is the first use of a name that is
written like the numbered name of the other. -/
theorem numbered_eq_cases {a b : String} {m n : Nat} (hm : 1 ≤ m) (hn : 1 ≤ n)
    (h : numbered a m = numbered b n) :
    (a = b ∧ m = n) ∨ (m = 1 ∧ 2 ≤ n ∧ a = numbered b n) ∨ (n = 1 ∧ 2 ≤ m ∧ b = numbered a m) := by
  rcases Nat.eq_or_lt_of_le hm with rfl | hm <;> rcases Nat.eq_or_lt_of_le hn with rfl | hn
  · exact .inl ⟨h, rfl⟩
  · exact .inr (.inl ⟨rfl, hn, h⟩)
  · exact .inr (.inr ⟨rfl, hm, h.symm⟩)
  · exact .inl (numbered_inj a b m n hm hn h)

/-! ## When names stay apart -/

/-- No numbered form that is used is itself a name. -/
def NumbersApart (names : List String) : Prop :=
  ∀ name n, 2 ≤ n → n ≤ names.count name → numbered name n ∉ names

theorem nodup_numberNames_iff (names : List String) :
    (numberNames [] names).Nodup ↔ NumbersApart names := by
  rw [numberNames_eq, List.nodup_map_iff_inj_on (nodup_uses [] names)]
  constructor
  · intro hinj name n htwo hn hmem
    have hrepeat : (name, n) ∈ uses [] names := (mem_uses [] names name n).mpr (by simp; omega)
    have hfirst : (numbered name n, 1) ∈ uses [] names :=
      (mem_uses [] names _ 1).mpr (by simpa using hmem)
    have hsame := hinj _ hrepeat _ hfirst rfl
    rw [Prod.mk.injEq] at hsame
    omega
  · intro hapart
    rintro ⟨a, m⟩ ha ⟨b, n⟩ hb hab
    have hma := (mem_uses [] names a m).mp ha
    have hnb := (mem_uses [] names b n).mp hb
    rw [List.count_nil] at hma hnb
    rcases numbered_eq_cases (by omega) (by omega) hab with
      ⟨rfl, rfl⟩ | ⟨rfl, htwo, rfl⟩ | ⟨rfl, htwo, rfl⟩
    · rfl
    · exact absurd (mem_of_mem_uses names _ 1 ha) (hapart b n htwo (by omega))
    · exact absurd (mem_of_mem_uses names _ 1 hb) (hapart a m htwo (by omega))

/-! ## The elements of a file -/

variable {path source : String} {es : List Element}

theorem extract_eq_ok_iff :
    extract path source = .ok es ↔
      ∃ m, Script.Module.ofSource? (.ofFile path) source = some m ∧
        es = Element.ofFindings path m.findings := by
  unfold extract
  cases Script.Module.ofSource? (.ofFile path) source with
  | none => simp
  | some m => simp [eq_comm]

theorem eq_unparsable {e : Error} (h : extract path source = .error e) : e = .unparsable path := by
  unfold extract at h
  cases hm : Script.Module.ofSource? (.ofFile path) source with
  | none => simpa [hm, eq_comm] using h
  | some m => simp [hm] at h

namespace Element

theorem identityOf_injective (path : String) : Function.Injective (identityOf path) := by
  intro u v h
  have hlist := congrArg String.toList h
  simp only [identityOf, String.toList_append, List.append_cancel_left_eq] at hlist
  exact String.toList_inj.mp hlist

theorem nodup_identities_iff {es : List Element}
    (h : ∀ e ∈ es, e.identity = identityOf path e.qualifiedName) :
    (es.map (·.identity)).Nodup ↔ (es.map (·.qualifiedName)).Nodup := by
  have hmap : es.map (·.identity) = (es.map (·.qualifiedName)).map (identityOf path) := by
    rw [List.map_map]
    exact List.map_congr_left h
  rw [hmap, List.nodup_map_iff (identityOf_injective path)]

theorem ofFindings_eq_map (path : String) (fs : List Script.Finding) :
    ofFindings path fs =
      ((numberNames [] (fs.map (·.name))).zip fs).map fun p => ofFinding path p.1 p.2 := by
  rw [ofFindings, List.map_zip_eq_zipWith]
  rfl

theorem qualifiedNames_ofFindings (path : String) (fs : List Script.Finding) :
    (ofFindings path fs).map (·.qualifiedName) = numberNames [] (fs.map (·.name)) := by
  have hlen : (numberNames [] (fs.map (·.name))).length ≤ fs.length := by
    simp [length_numberNames]
  rw [ofFindings_eq_map, List.map_map]
  exact List.map_fst_zip hlen

theorem mem_ofFindings (path : String) (fs : List Script.Finding) (e : Element)
    (h : e ∈ ofFindings path fs) :
    e.filePath = path ∧ e.identity = identityOf path e.qualifiedName := by
  rw [ofFindings_eq_map] at h
  obtain ⟨p, -, rfl⟩ := List.mem_map.mp h
  exact ⟨rfl, rfl⟩

end Element

end DocAnnotations
