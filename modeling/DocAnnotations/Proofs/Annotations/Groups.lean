import DocAnnotations.Annotations
import Mathlib.Data.List.Induction
import Mathlib.Data.List.Nodup

/-!
# Groups by name

What pushes build is the list of the names, each with its own values in order.
-/

namespace DocAnnotations.Annotations

/-! ## What pushing has to give -/

/-- The values that stand under a name in a list of named values. -/
def valuesOf (name : String) (named : List (String × Value)) : List Value :=
  (named.filter (·.1 = name)).map (·.2)

/-- Every name once, where it comes first, with all its values. -/
def grouped (named : List (String × Value)) : List (String × List Value) :=
  (named.map (·.1)).eraseDups.map fun name => (name, valuesOf name named)

/-- The annotations that come of pushing named values one after another. -/
def ofList (named : List (String × Value)) : Annotations :=
  named.foldl (fun a e => a.push e.1 e.2) empty

theorem ofList_snoc (named : List (String × Value)) (name : String) (v : Value) :
    ofList (named ++ [(name, v)]) = (ofList named).push name v := by
  simp [ofList, List.foldl_append]

theorem valuesOf_snoc (n name : String) (v : Value) (named : List (String × Value)) :
    valuesOf n (named ++ [(name, v)]) = valuesOf n named ++ if name = n then [v] else [] := by
  by_cases h : name = n <;> simp [valuesOf, List.filter_append, h]

theorem eraseDups_snoc (names : List String) (name : String) :
    (names ++ [name]).eraseDups = names.eraseDups ++ if name ∈ names then [] else [name] := by
  by_cases h : name ∈ names <;> simp [List.eraseDups_append, List.eraseDups_cons, List.removeAll, h]

/-! ## One push -/

/-- The index finds exactly the groups. -/
def Consistent (a : Annotations) : Prop :=
  ∀ (name : String) (i : Nat), a.index[name]? = some i ↔ a.names[i]? = some name

theorem names_eq (a : Annotations) : a.names = a.toList.map (·.1) := by
  simp [names, toList]

theorem toList_push_of_some (a : Annotations) (name : String) (v : Value) (i : Nat)
    (h : a.index[name]? = some i) :
    (a.push name v).toList = a.toList.modify i fun e => (e.1, e.2 ++ [v]) := by
  simp only [push, h, toList, Array.toList_modify]
  apply List.ext_getElem?
  intro j
  by_cases hj : i = j
  · subst hj
    cases h : a.entries.toList[i]? <;> simp [h]
  · simp [List.getElem?_map, List.getElem?_modify_ne _ _ hj]

theorem toList_push_of_none (a : Annotations) (name : String) (v : Value)
    (h : a.index[name]? = none) : (a.push name v).toList = a.toList ++ [(name, [v])] := by
  simp [push, h, toList]

theorem consistent_empty : Consistent empty := by
  intro name i
  simp [empty, names]

theorem names_push (a : Annotations) (name : String) (v : Value) :
    (a.push name v).names = a.names ++ if a.index[name]?.isSome then [] else [name] := by
  cases h : a.index[name]? with
  | none => simp [names_eq, toList_push_of_none a name v h]
  | some i =>
    simp only [names_eq, toList_push_of_some a name v i h, Option.isSome_some, if_true,
      List.append_nil]
    apply List.ext_getElem?
    intro j
    by_cases hj : i = j
    · subst hj
      cases h : a.toList[i]? <;> simp [h]
    · simp [List.getElem?_map, List.getElem?_modify_ne _ _ hj]

theorem getElem?_snoc_iff (names : List String) (name n : String) (i : Nat) :
    (names ++ [name])[i]? = some n ↔ names[i]? = some n ∨ (names.length = i ∧ name = n) := by
  rcases Nat.lt_trichotomy i names.length with hi | rfl | hi
  · rw [List.getElem?_append_left hi]
    exact ⟨Or.inl, fun h => h.resolve_right fun hlast => by omega⟩
  · simp
  · rw [List.getElem?_eq_none (by simp; omega), List.getElem?_eq_none (by omega)]
    simp only [reduceCtorEq, false_or, false_iff, not_and]
    omega

theorem consistent_push (a : Annotations) (name : String) (v : Value) (h : Consistent a) :
    Consistent (a.push name v) := by
  intro n j
  rw [names_push]
  cases hi : a.index[name]? with
  | some i => simpa [push, hi] using h n j
  | none =>
    have hsize : a.names.length = a.entries.size := by simp [names]
    have hnew : a.names[j]? ≠ some name := by
      rw [ne_eq, ← h name j, hi]
      simp
    simp only [push, hi, Std.TreeMap.getElem?_insert, Option.isSome_none, Bool.false_eq_true,
      if_false, Std.LawfulEqCmp.compare_eq_iff_eq, getElem?_snoc_iff, hsize]
    split
    · rename_i hn
      subst hn
      simp [hnew]
    · rename_i hn
      simp [hn, h n j]

theorem consistent_ofList (named : List (String × Value)) : Consistent (ofList named) := by
  induction named using List.reverseRecOn with
  | nil => exact consistent_empty
  | append_singleton named e ih =>
    rw [ofList_snoc]
    exact consistent_push _ _ _ ih

theorem Consistent.getElem?_ne (a : Annotations) (h : Consistent a) (name : String) (i j : Nat)
    (hi : a.names[i]? = some name) (hij : i ≠ j) : a.names[j]? ≠ some name := by
  intro hj
  have := ((h name i).mpr hi).symm.trans ((h name j).mpr hj)
  exact hij (Option.some.inj this)

theorem Consistent.index_eq_none_iff (a : Annotations) (h : Consistent a) (name : String) :
    a.index[name]? = none ↔ name ∉ a.names := by
  simp only [List.mem_iff_getElem?, ← h name]
  cases a.index[name]? <;> simp

/-! ## All pushes -/

theorem names_grouped (named : List (String × Value)) :
    (grouped named).map (·.1) = (named.map (·.1)).eraseDups := by
  simp [grouped, Function.comp_def]

theorem valuesOf_eq_nil (name : String) (named : List (String × Value))
    (h : name ∉ named.map (·.1)) : valuesOf name named = [] := by
  rw [valuesOf, List.map_eq_nil_iff, List.filter_eq_nil_iff]
  intro e he hname
  exact h (List.mem_map.mpr ⟨e, he, by simpa using hname⟩)

theorem grouped_snoc_new (named : List (String × Value)) (name : String) (v : Value)
    (h : name ∉ named.map (·.1)) :
    grouped (named ++ [(name, v)]) = grouped named ++ [(name, [v])] := by
  simp only [grouped, List.map_append, List.map_cons, List.map_nil, eraseDups_snoc, if_neg h,
    valuesOf_snoc, valuesOf_eq_nil name named h, if_true, List.nil_append]
  congr 1
  apply List.map_congr_left
  intro n hn
  have hne : name ≠ n := by
    rintro rfl
    exact h (List.mem_eraseDups.mp hn)
  rw [if_neg hne, List.append_nil]

theorem grouped_snoc_old (named : List (String × Value)) (name : String) (v : Value) (i : Nat)
    (hi : (named.map (·.1)).eraseDups[i]? = some name)
    (hother : ∀ j, i ≠ j → (named.map (·.1)).eraseDups[j]? ≠ some name) :
    grouped (named ++ [(name, v)]) = (grouped named).modify i fun e => (e.1, e.2 ++ [v]) := by
  have hmem : name ∈ named.map (·.1) := List.mem_eraseDups.mp (List.mem_of_getElem? hi)
  apply List.ext_getElem?
  intro j
  simp only [grouped, List.map_append, List.map_cons, List.map_nil, eraseDups_snoc, if_pos hmem,
    List.append_nil, valuesOf_snoc, List.getElem?_modify, List.getElem?_map]
  by_cases hj : i = j
  · subst hj
    simp [hi]
  · cases hn : (named.map (·.1)).eraseDups[j]? with
    | none => simp
    | some n =>
      have hne : name ≠ n := by
        rintro rfl
        exact hother j hj hn
      simp [hj, hne]

theorem toList_ofList (named : List (String × Value)) : (ofList named).toList = grouped named := by
  induction named using List.reverseRecOn with
  | nil => rfl
  | append_singleton named e ih =>
    obtain ⟨name, v⟩ := e
    have hcons := consistent_ofList named
    have hnames : (ofList named).names = (named.map (·.1)).eraseDups := by
      rw [names_eq, ih, names_grouped]
    rw [ofList_snoc]
    cases hi : (ofList named).index[name]? with
    | none =>
      have hnew : name ∉ named.map (·.1) := by
        rw [← List.mem_eraseDups, ← hnames]
        exact (hcons.index_eq_none_iff _ name).mp hi
      rw [toList_push_of_none _ _ _ hi, ih, grouped_snoc_new named name v hnew]
    | some i =>
      have hplace : (ofList named).names[i]? = some name := (hcons name i).mp hi
      have hother := fun j => hcons.getElem?_ne _ name i j hplace
      rw [hnames] at hplace hother
      rw [toList_push_of_some _ _ _ i hi, ih, grouped_snoc_old named name v i hplace hother]

theorem names_ofList (named : List (String × Value)) :
    (ofList named).names = (named.map (·.1)).eraseDups := by
  rw [names_eq, toList_ofList, names_grouped]

theorem all_of_index (a : Annotations) (name : String) (i : Nat)
    (h : a.index[normalizeName name]? = some i) :
    a.all name = ((a.toList[i]?).map (·.2)).getD [] := by
  simp [all, h, toList, Function.comp_def]

theorem all_of_index_none (a : Annotations) (name : String)
    (h : a.index[normalizeName name]? = none) : a.all name = [] := by
  simp [all, h]

theorem all_ofList (named : List (String × Value)) (name : String) :
    (ofList named).all name = valuesOf (normalizeName name) named := by
  have hcons := consistent_ofList named
  have hnames := names_ofList named
  cases hi : (ofList named).index[normalizeName name]? with
  | none =>
    have hnone := (hcons.index_eq_none_iff _ _).mp hi
    rw [hnames, List.mem_eraseDups] at hnone
    rw [all_of_index_none _ _ hi, valuesOf_eq_nil _ named hnone]
  | some i =>
    have hplace := (hcons _ i).mp hi
    rw [hnames] at hplace
    rw [all_of_index _ _ i hi, toList_ofList]
    simp [grouped, hplace]

/-! ## Comments -/

def namedOf (lines : List Comment.Line) : List (String × Value) :=
  lines.map fun line => (line.name, Coercion.coerce line.text)

theorem parse_eq_ofList (comment : String) :
    parse comment = ofList (namedOf (Comment.scan comment)) := by
  simp [parse, ofList, namedOf, List.foldl_map]

end DocAnnotations.Annotations
