import DocAnnotations.Coercion
import DocAnnotations.Proofs.Json.Reading

/-! # The text of a written value -/

namespace DocAnnotations.Coercion

open Json (Spells isStart isDigit_iff writeValue)

/-! ## Which rule applies -/

theorem ofChars_of_literal {cs : List Char} {v : Value} (hword : isNullWord cs = false)
    (hliteral : readLiteral? cs = some v) : ofChars cs = v := by
  simp [ofChars, hword, hliteral]

theorem ofChars_of_list {cs : List Char} {items : List Value} (hword : isNullWord cs = false)
    (hliteral : readLiteral? cs = none) (hlist : readList? cs = some items) :
    ofChars cs = .list items := by
  simp [ofChars, hword, hliteral, hlist]

theorem ofChars_of_text {cs : List Char} (hword : isNullWord cs = false)
    (hliteral : readLiteral? cs = none) (hlist : readList? cs = none) :
    ofChars cs = .text (String.ofList cs) := by
  simp [ofChars, hword, hliteral, hlist]

/-! ## Written values -/

theorem eq_n_of_toLower (c : Char) (h : isStart c = true) (hn : c.toLower = 'n') : c = 'n' := by
  simp only [isStart, Bool.or_eq_true, beq_iff_eq, isDigit_iff] at h
  rcases h with ((((((rfl | rfl) | rfl) | rfl) | rfl) | rfl) | rfl) | ⟨hlo, hhi⟩
  all_goals try first | rfl | exact absurd hn (by decide)
  -- A digit is no capital letter.
  have hdigit : ¬ (c.val ≥ 'A'.val ∧ c.val ≤ 'Z'.val) := by
    rintro ⟨hA, -⟩
    have hge : 0x41 ≤ c.toNat := UInt32.le_iff_toNat_le.mp hA
    omega
  delta Char.toLower at hn
  rwa [dif_neg hdigit] at hn

theorem eq_null_of_isNullWord {depth : Nat} {cs : List Char} {v : Value}
    (h : Spells depth cs (.value v)) (hword : isNullWord cs = true) : v = .null := by
  obtain ⟨c, rest, hc, hstart⟩ := h.head
  have hn : c.toLower = 'n' := by
    rw [isNullWord, hc, beq_iff_eq] at hword
    simpa using congrArg List.head? hword
  -- No other spelling starts with an `n`.
  rw [eq_n_of_toLower c hstart hn] at hc
  cases h with
  | null => rfl
  | yes | no | list | map => simp at hc
  | text h =>
    obtain ⟨body, rfl, -⟩ := h
    simp at hc
  | number h =>
    obtain ⟨d, ds, rfl, hd⟩ := h.head
    obtain ⟨rfl, -⟩ := List.cons.inj hc
    exact absurd hd (by decide)

theorem isNullWord_writeValue (v : Value) (hf : v.FloatFree) (hk : v.KeysDistinct)
    (hv : v ≠ .null) : isNullWord (writeValue v) = false := by
  by_contra hword
  exact hv (eq_null_of_isNullWord (Json.spells_self v hf hk) (by simpa using hword))

theorem coerce_write (v : Value) (hf : v.FloatFree) (hk : v.KeysDistinct)
    (hd : v.depth ≤ Json.maxDepth) : coerce (some (Json.write v)) = v := by
  have hread := Json.readChars_writeValue v hf hk hd
  rw [coerce, Json.write, String.toList_ofList]
  by_cases hv : v = .null
  · subst hv
    rfl
  · have hliteral : readLiteral? (writeValue v) = some v := by
      rw [readLiteral?, hread]
      cases v <;> first | rfl | exact absurd rfl hv
    exact ofChars_of_literal (isNullWord_writeValue v hf hk hv) hliteral

end DocAnnotations.Coercion
