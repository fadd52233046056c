import DocAnnotations.Proofs.Value.Parts

/-! # Maps of members -/

namespace DocAnnotations.Value

theorem get?_putEntry (key k : String) (v : Value) (entries : List (String × Value)) :
    (map (putEntry key v entries)).get? k = if key = k then some v else (map entries).get? k := by
  induction entries with
  | nil => by_cases h : key = k <;> simp [putEntry, get?, h]
  | cons e rest ih =>
    simp only [get?] at ih ⊢
    rw [putEntry]
    by_cases hkey : e.1 = key
    · by_cases hk : e.1 = k <;> simp [← hkey, hk]
    · rw [if_neg hkey]
      by_cases hk : e.1 = k
      · have hne : key ≠ k := fun h => hkey (hk.trans h.symm)
        simp [hk, hne]
      · simpa [List.find?_cons, hk] using ih

theorem get?_ofMembers_concat (members : List (String × Value)) (m : String × Value) (k : String) :
    (ofMembers (members ++ [m])).get? k =
      if m.1 = k then some m.2 else (ofMembers members).get? k := by
  rw [ofMembers, List.foldl_append]
  exact get?_putEntry m.1 k m.2 _

/-- The entries that members leave: the keys in the order in which they came first, and under each
key the value of the last member that has it. -/
structure Merges (members entries : List (String × Value)) : Prop where
  keys_eq : entries.map (·.1) = (members.map (·.1)).eraseDups
  keys_nodup : (entries.map (·.1)).Nodup
  get?_last : ∀ before key v after, members = before ++ (key, v) :: after →
    key ∉ after.map (·.1) → (map entries).get? key = some v
  get?_eq_none_iff : ∀ key, (map entries).get? key = none ↔ key ∉ members.map (·.1)

theorem keys_ofMembers {members entries : List (String × Value)}
    (h : ofMembers members = map entries) :
    entries.map (·.1) = (members.map (·.1)).eraseDups := by
  induction members using List.reverseRecOn generalizing entries with
  | nil =>
    obtain rfl := map.inj h
    rfl
  | append_singleton members m ih =>
    obtain ⟨entries', heq, -, -⟩ := ofMembers_eq members
    have hkeys := ih heq
    simp only [ofMembers, List.foldl_append, List.foldl_cons, List.foldl_nil, map.injEq] at h heq
    have hmem : m.1 ∈ (members.map (·.1)).eraseDups ↔ m.1 ∈ members.map (·.1) := List.mem_eraseDups
    rw [← h, heq, keys_putEntry, hkeys, List.map_append, List.eraseDups_append]
    by_cases hm : m.1 ∈ members.map (·.1) <;> simp [hmem, hm, List.removeAll, List.eraseDups_cons]

theorem get?_ofMembers_last (before after : List (String × Value)) (key : String) (v : Value)
    (h : key ∉ after.map (·.1)) : (ofMembers (before ++ (key, v) :: after)).get? key = some v := by
  induction after using List.reverseRecOn with
  | nil => rw [get?_ofMembers_concat, if_pos rfl]
  | append_singleton after m ih =>
    simp only [List.map_append, List.map_cons, List.map_nil, List.mem_append, List.mem_singleton,
      not_or] at h
    rw [← List.cons_append, ← List.append_assoc, get?_ofMembers_concat, if_neg (Ne.symm h.2),
      ih h.1]

theorem get?_ofMembers_eq_none_iff (members : List (String × Value)) (key : String) :
    (ofMembers members).get? key = none ↔ key ∉ members.map (·.1) := by
  induction members using List.reverseRecOn with
  | nil => simp [ofMembers, get?]
  | append_singleton members m ih =>
    rw [get?_ofMembers_concat]
    split
    · next hm => simp [← hm]
    · next hm => simp [ih, Ne.symm hm]

theorem merges_ofMembers {members entries : List (String × Value)}
    (h : ofMembers members = map entries) : Merges members entries where
  keys_eq := keys_ofMembers h
  keys_nodup := by
    obtain ⟨entries', heq, hkeys, -⟩ := ofMembers_eq members
    rw [h, map.injEq] at heq
    exact heq ▸ hkeys
  get?_last before key v after heq hkey := by
    rw [← h, heq]
    exact get?_ofMembers_last before after key v hkey
  get?_eq_none_iff key := by rw [← h, get?_ofMembers_eq_none_iff]

end DocAnnotations.Value
