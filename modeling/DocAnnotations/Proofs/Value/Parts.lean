import DocAnnotations.Value
import Mathlib.Data.List.Basic
import Mathlib.Data.List.Induction
import Mathlib.Data.List.Nodup
import Mathlib.Order.Lattice

/-! # What stands inside a value -/

namespace DocAnnotations.Value

mutual

/-- A value and all that stands inside it. -/
def parts : Value → List Value
  | .list items => .list items :: itemParts items
  | .map entries => .map entries :: entryParts entries
  | v => [v]

def itemParts : List Value → List Value
  | [] => []
  | v :: rest => v.parts ++ itemParts rest

def entryParts : List (String × Value) → List Value
  | [] => []
  | (_, v) :: rest => v.parts ++ entryParts rest

end

mutual

/-- How many lists and maps stand in one another. -/
def depth : Value → Nat
  | .list items => itemDepth items + 1
  | .map entries => entryDepth entries + 1
  | _ => 0

def itemDepth : List Value → Nat
  | [] => 0
  | v :: rest => max v.depth (itemDepth rest)

def entryDepth : List (String × Value) → Nat
  | [] => 0
  | (_, v) :: rest => max v.depth (entryDepth rest)

end

/-! ## Parts -/

/-- No number inside the value is a float. -/
def FloatFree (v : Value) : Prop := ∀ x, .float x ∉ v.parts

/-- No map inside the value has a key twice. -/
def KeysDistinct (v : Value) : Prop :=
  ∀ entries, .map entries ∈ v.parts → (entries.map (·.1)).Nodup

/-- Null, a truth value or an integer: a value with one spelling only. -/
def IsScalar : Value → Prop
  | .null | .bool _ | .int _ => True
  | .float _ | .text _ | .list _ | .map _ => False

theorem mem_itemParts (w : Value) (items : List Value) :
    w ∈ itemParts items ↔ ∃ v ∈ items, w ∈ v.parts := by
  induction items with
  | nil => simp [itemParts]
  | cons v rest ih => simp [itemParts, ih]

theorem mem_entryParts (w : Value) (entries : List (String × Value)) :
    w ∈ entryParts entries ↔ ∃ e ∈ entries, w ∈ e.2.parts := by
  induction entries with
  | nil => simp [entryParts]
  | cons e rest ih => simp [entryParts, ih]

theorem itemDepth_le_iff (items : List Value) (n : Nat) :
    itemDepth items ≤ n ↔ ∀ v ∈ items, v.depth ≤ n := by
  induction items with
  | nil => simp [itemDepth]
  | cons v rest ih => rw [itemDepth, Nat.max_le, ih, List.forall_mem_cons]

theorem entryDepth_le_iff (entries : List (String × Value)) (n : Nat) :
    entryDepth entries ≤ n ↔ ∀ e ∈ entries, e.2.depth ≤ n := by
  induction entries with
  | nil => simp [entryDepth]
  | cons e rest ih => rw [entryDepth, Nat.max_le, ih, List.forall_mem_cons]

/-! ## Maps of members -/

theorem putEntry_of_not_mem (key : String) (v : Value) (entries : List (String × Value))
    (h : key ∉ entries.map (·.1)) : putEntry key v entries = entries ++ [(key, v)] := by
  induction entries with
  | nil => rfl
  | cons e rest ih =>
    simp only [List.map_cons, List.mem_cons, not_or] at h
    simp [putEntry, Ne.symm h.1, ih h.2]

theorem ofMembers_of_nodup (members : List (String × Value)) (h : (members.map (·.1)).Nodup) :
    ofMembers members = .map members := by
  have hfold : ∀ rest before : List (String × Value), ((before ++ rest).map (·.1)).Nodup →
      rest.foldl (fun entries m => putEntry m.1 m.2 entries) before = before ++ rest := by
    intro rest
    induction rest with
    | nil => simp
    | cons m rest ih =>
      intro before hnd
      have hm : m.1 ∉ before.map (·.1) := by
        simp only [List.map_append, List.map_cons, List.nodup_append] at hnd
        intro hmem
        exact hnd.2.2 _ hmem _ List.mem_cons_self rfl
      rw [List.foldl_cons, putEntry_of_not_mem _ _ _ hm, ih _ (by simpa using hnd)]
      simp
  simp [ofMembers, hfold members [] (by simpa using h)]

theorem keys_putEntry (key : String) (v : Value) (entries : List (String × Value)) :
    (putEntry key v entries).map (·.1) =
      entries.map (·.1) ++ if key ∈ entries.map (·.1) then [] else [key] := by
  induction entries with
  | nil => rfl
  | cons e rest ih =>
    rw [putEntry]
    by_cases h : e.1 = key
    · simp [h]
    · have hne : key ≠ e.1 := fun heq => h heq.symm
      simp only [if_neg h, List.map_cons, ih, List.cons_append, List.mem_cons, hne, false_or]

theorem mem_putEntry (key : String) (v : Value) (entries : List (String × Value))
    (e : String × Value) (h : e ∈ putEntry key v entries) : e = (key, v) ∨ e ∈ entries := by
  induction entries with
  | nil => exact .inl (List.mem_singleton.mp h)
  | cons first rest ih =>
    rw [putEntry] at h
    split at h
    · next hkey =>
      rcases List.mem_cons.mp h with rfl | h
      · exact .inl (by rw [hkey])
      · exact .inr (List.mem_cons_of_mem first h)
    · rcases List.mem_cons.mp h with rfl | h
      · exact .inr List.mem_cons_self
      · exact (ih h).imp_right (List.mem_cons_of_mem first)

theorem ofMembers_eq (members : List (String × Value)) :
    ∃ entries, ofMembers members = .map entries ∧ (entries.map (·.1)).Nodup ∧
      entries ⊆ members := by
  induction members using List.reverseRecOn with
  | nil => exact ⟨[], rfl, List.nodup_nil, List.Subset.refl []⟩
  | append_singleton members m ih =>
    obtain ⟨entries, heq, hkeys, hsub⟩ := ih
    simp only [ofMembers, map.injEq] at heq
    refine ⟨putEntry m.1 m.2 entries, by simp [ofMembers, heq], ?_, ?_⟩
    -- A key that is there keeps its place.
    · rw [keys_putEntry]
      split
      · simpa using hkeys
      · next hnew => exact List.concat_eq_append ▸ hkeys.concat hnew
    · intro e he
      rcases mem_putEntry _ _ _ _ he with rfl | he
      · simp
      · exact List.mem_append_left _ (hsub he)

/-! ## No floats -/

theorem floatFree_text (s : String) : FloatFree (.text s) := by
  simp [FloatFree, parts]

theorem floatFree_list {items : List Value} (h : ∀ v ∈ items, v.FloatFree) :
    FloatFree (.list items) := by
  intro x hx
  rw [parts, List.mem_cons, mem_itemParts] at hx
  obtain heq | ⟨v, hv, hx⟩ := hx
  · simp at heq
  · exact h v hv x hx

theorem floatFree_map {entries : List (String × Value)} (h : ∀ e ∈ entries, e.2.FloatFree) :
    FloatFree (.map entries) := by
  intro x hx
  rw [parts, List.mem_cons, mem_entryParts] at hx
  obtain heq | ⟨e, he, hx⟩ := hx
  · simp at heq
  · exact h e he x hx

/-! ## Depth and keys -/

/-- The value nests at most so deep, and no map inside it has a key twice. -/
structure Fits (n : Nat) (v : Value) : Prop where
  depth_le : v.depth ≤ n
  keysDistinct : v.KeysDistinct

theorem Fits.mono {m n : Nat} {v : Value} (h : Fits m v) (hmn : m ≤ n) : Fits n v :=
  ⟨Nat.le_trans h.depth_le hmn, h.keysDistinct⟩

theorem fits_of_parts {v : Value} (hdepth : v.depth = 0) (hparts : v.parts = [v])
    (hmap : ∀ entries, v ≠ .map entries) (n : Nat) : Fits n v := by
  refine ⟨by omega, ?_⟩
  intro entries h
  rw [hparts, List.mem_singleton] at h
  exact absurd h.symm (hmap entries)

theorem fits_null (n : Nat) : Fits n .null := fits_of_parts rfl rfl (by simp) n

theorem fits_bool (b : Bool) (n : Nat) : Fits n (.bool b) := fits_of_parts rfl rfl (by simp) n

theorem fits_int (i : Int64) (n : Nat) : Fits n (.int i) := fits_of_parts rfl rfl (by simp) n

theorem fits_float (x : Binary64) (n : Nat) : Fits n (.float x) := fits_of_parts rfl rfl (by simp) n

theorem fits_text (s : String) (n : Nat) : Fits n (.text s) := fits_of_parts rfl rfl (by simp) n

theorem fits_list {items : List Value} {n : Nat} (h : ∀ v ∈ items, Fits n v) :
    Fits (n + 1) (.list items) := by
  constructor
  · rw [depth, Nat.add_le_add_iff_right, itemDepth_le_iff]
    exact fun v hv => (h v hv).depth_le
  · intro entries hmem
    rw [parts, List.mem_cons, mem_itemParts] at hmem
    rcases hmem with heq | ⟨v, hv, hmem⟩
    · simp at heq
    · exact (h v hv).keysDistinct entries hmem

theorem fits_map {entries : List (String × Value)} {n : Nat} (hkeys : (entries.map (·.1)).Nodup)
    (h : ∀ e ∈ entries, Fits n e.2) : Fits (n + 1) (.map entries) := by
  constructor
  · rw [depth, Nat.add_le_add_iff_right, entryDepth_le_iff]
    exact fun e he => (h e he).depth_le
  · intro inner hmem
    rw [parts, List.mem_cons, mem_entryParts] at hmem
    rcases hmem with heq | ⟨e, he, hmem⟩
    · rw [Value.map.inj heq]
      exact hkeys
    · exact (h e he).keysDistinct inner hmem

theorem fits_ofMembers {members : List (String × Value)} {n : Nat} (h : ∀ m ∈ members, Fits n m.2) :
    Fits (n + 1) (.ofMembers members) := by
  obtain ⟨entries, heq, hkeys, hsub⟩ := ofMembers_eq members
  rw [heq]
  exact fits_map hkeys fun e he => h e (hsub he)

end DocAnnotations.Value
