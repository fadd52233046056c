import DocAnnotations.Json.Writer
import DocAnnotations.Proofs.Json.Numerals
import DocAnnotations.Proofs.Value.Parts

/-! # What a written value looks like -/

namespace DocAnnotations.Json

open Decimal (isDigit)

/-- Whether a node, apart from the nodes inside it, is read back as it is written. -/
def Exact : Value → Prop
  | .float _ => False
  | .map entries => (entries.map (·.1)).Nodup
  | _ => True

theorem exact_parts (v : Value) (hf : v.FloatFree) (hk : v.KeysDistinct) :
    ∀ w ∈ v.parts, Exact w := by
  intro w hw
  cases w with
  | float x => exact absurd hw (hf x)
  | map entries => exact hk entries hw
  | _ => trivial

theorem exact_self (v : Value) (h : ∀ w ∈ v.parts, Exact w) : Exact v := by
  apply h
  cases v <;> simp [Value.parts]

/-! ## What stands in it -/

theorem visible_of_all (cs : List Char) (h : cs.all (fun c => 0x20 ≤ c.toNat) = true) :
    ∀ c ∈ cs, 0x20 ≤ c.toNat := by
  simpa using h

theorem hexDigit_visible : ∀ n < 16, 0x20 ≤ (hexDigit n).toNat := by
  decide

theorem escape_visible (c d : Char) (h : d ∈ escape c) : 0x20 ≤ d.toNat := by
  unfold escape at h
  split_ifs at h with hq hb hctl
  all_goals simp only [List.mem_cons, List.not_mem_nil, or_false] at h
  all_goals try (rcases h with rfl | rfl <;> decide)
  · -- A control character without a letter of its own.
    rcases h with rfl | rfl | rfl | rfl | rfl | rfl
    · decide
    · decide
    · decide
    · decide
    · exact hexDigit_visible _ (by omega)
    · exact hexDigit_visible _ (by omega)
  · subst d
    omega

theorem writeText_visible (cs : List Char) (c : Char) (h : c ∈ writeText cs) : 0x20 ≤ c.toNat := by
  simp only [writeText, List.mem_cons, List.mem_append, List.mem_flatMap, List.not_mem_nil,
    or_false] at h
  rcases h with rfl | ⟨d, -, hd⟩ | rfl
  · decide
  · exact escape_visible d c hd
  · decide

theorem writeInt_visible (i : Int) (c : Char) (h : c ∈ writeInt i) : 0x20 ≤ c.toNat := by
  have hdigit : ∀ c ∈ Nat.toDigits 10 i.natAbs, 0x20 ≤ c.toNat := by
    intro c hc
    have := (isDigit_iff c).mp (isDigit_of_mem_toDigits i.natAbs c hc)
    omega
  unfold writeInt at h
  split_ifs at h
  · rcases List.mem_cons.mp h with rfl | h
    · decide
    · exact hdigit c h
  · exact hdigit c h

mutual

theorem writeValue_visible (v : Value) (hex : ∀ w ∈ v.parts, Exact w) (c : Char)
    (h : c ∈ writeValue v) : 0x20 ≤ c.toNat := by
  match v with
  | .null | .bool true | .bool false => exact visible_of_all _ (by decide) c h
  | .int n => exact writeInt_visible n.toInt c h
  | .float x => exact absurd (exact_self _ hex) id
  | .text s => exact writeText_visible s.toList c h
  | .list items =>
    simp only [writeValue, List.mem_cons, List.mem_append, List.not_mem_nil, or_false] at h
    rcases h with rfl | h | rfl
    · decide
    · exact writeItems_visible items (fun w hw => hex w (by simp [Value.parts, hw])) c h
    · decide
  | .map entries =>
    simp only [writeValue, List.mem_cons, List.mem_append, List.not_mem_nil, or_false] at h
    rcases h with rfl | h | rfl
    · decide
    · exact writeEntries_visible entries (fun w hw => hex w (by simp [Value.parts, hw])) c h
    · decide

theorem writeItems_visible (items : List Value) (hex : ∀ w ∈ Value.itemParts items, Exact w)
    (c : Char) (h : c ∈ writeItems items) : 0x20 ≤ c.toNat := by
  match items with
  | [] => simp [writeItems] at h
  | [v] => exact writeValue_visible v (fun w hw => hex w (by simp [Value.itemParts, hw])) c h
  | v :: w :: rest =>
    rw [writeItems, List.mem_append, List.mem_cons] at h
    rcases h with h | rfl | h
    · exact writeValue_visible v (fun w hw => hex w (by simp [Value.itemParts, hw])) c h
    · decide
    · refine writeItems_visible (w :: rest) (fun u hu => hex u ?_) c h
      rw [Value.itemParts]
      exact List.mem_append_right _ hu

theorem writeEntries_visible (entries : List (String × Value))
    (hex : ∀ w ∈ Value.entryParts entries, Exact w) (c : Char) (h : c ∈ writeEntries entries) :
    0x20 ≤ c.toNat := by
  match entries with
  | [] => simp [writeEntries] at h
  | [(k, v)] =>
    rw [writeEntries, List.mem_append, List.mem_cons] at h
    rcases h with h | rfl | h
    · exact writeText_visible k.toList c h
    · decide
    · exact writeValue_visible v (fun w hw => hex w (by simp [Value.entryParts, hw])) c h
  | (k, v) :: e :: rest =>
    rw [writeEntries, List.mem_append, List.mem_cons, List.mem_append, List.mem_cons] at h
    rcases h with h | rfl | h | rfl | h
    · exact writeText_visible k.toList c h
    · decide
    · exact writeValue_visible v (fun w hw => hex w (by simp [Value.entryParts, hw])) c h
    · decide
    · refine writeEntries_visible (e :: rest) (fun u hu => hex u ?_) c h
      rw [Value.entryParts]
      exact List.mem_append_right _ hu

end

/-! ## That it is not empty -/

theorem positional_ne_nil (d : Digits) (h : d.point < d.digits.length) : d.positional ≠ [] := by
  unfold Digits.positional
  simp only [h, if_true]
  split_ifs <;> simp

theorem layOut_ne_nil (d : Digits) : layOut d ≠ [] := by
  unfold layOut
  split_ifs with hrange hwhole
  · simp
  · exact positional_ne_nil d (by omega)
  · simp [scientific]

theorem writeFloat_ne_nil (x : Binary64) : writeFloat x ≠ [] := by
  unfold writeFloat
  split_ifs
  · simp
  · simp
  · simp
  · simp
  · exact layOut_ne_nil x.shortest

theorem writeValue_ne_nil (v : Value) : writeValue v ≠ [] := by
  cases v with
  | null => simp [writeValue]
  | bool b => cases b <;> simp [writeValue]
  | int n =>
    rw [writeValue, writeInt]
    split_ifs <;> simp
  | float x => simpa [writeValue] using writeFloat_ne_nil x
  | text | list | map => simp [writeValue, writeText]

theorem write_list_eq_brackets_iff (items : List Value) :
    write (.list items) = "[]" ↔ items = [] := by
  cases items with
  | nil => simp [write, writeValue, writeItems]
  | cons v rest =>
    have hitems : writeItems (v :: rest) ≠ [] := by
      cases rest <;> simp [writeItems, writeValue_ne_nil]
    simp [write, writeValue, String.ext_iff, hitems]

end DocAnnotations.Json
