import DocAnnotations.Proofs.Coercion.Written
import Mathlib.Algebra.Group.Int.Defs

/-! # Texts of scalars -/

namespace DocAnnotations.Coercion

open Decimal (isDigit natOfDigits)
open Json (IsDigits SpellsPadded isSpace writeInt writeValue)

/-! ## The word for null -/

theorem toLower_of_isNullWord {cs : List Char} (h : isNullWord cs = true) {c : Char} (hc : c ∈ cs) :
    c.toLower = 'n' ∨ c.toLower = 'u' ∨ c.toLower = 'l' := by
  rw [isNullWord, beq_iff_eq] at h
  have hmem : c.toLower ∈ "null".toList := h ▸ List.mem_map_of_mem hc
  simpa using hmem

theorem isSpace_of_isNullWord {cs : List Char} (h : isNullWord cs = true) {c : Char} (hc : c ∈ cs) :
    isSpace c = false := by
  by_contra hspace
  simp only [isSpace, Bool.not_eq_false, Bool.or_eq_true, beq_iff_eq] at hspace
  have hlower := toLower_of_isNullWord h hc
  rcases hspace with ((rfl | rfl) | rfl) | rfl <;> exact absurd hlower (by decide)

theorem eq_null_of_padded {depth : Nat} {cs : List Char} {v : Value} (h : SpellsPadded depth cs v)
    (hword : isNullWord cs = true) : v = .null := by
  have hspells := h.spells
    (fun c hc => isSpace_of_isNullWord hword (List.mem_of_mem_head? hc))
    (fun c hc => isSpace_of_isNullWord hword (List.mem_of_getLast? hc))
  exact eq_null_of_isNullWord hspells hword

/-! ## What each rule gives -/

theorem readLiteral?_eq_some_iff (cs : List Char) (v : Value) :
    readLiteral? cs = some v ↔ Json.readChars cs = some v ∧ v ≠ .null := by
  unfold readLiteral?
  split
  · next hnull =>
    rw [hnull]
    constructor
    · simp
    · rintro ⟨heq, hne⟩
      exact absurd (Option.some.inj heq).symm hne
  · next hnull =>
    refine ⟨fun h => ⟨h, ?_⟩, fun h => h.1⟩
    rintro rfl
    exact hnull h

theorem ofChars_of_read {cs : List Char} {v : Value} (h : Json.readChars cs = some v)
    (hv : v ≠ .null) : ofChars cs = v := by
  apply ofChars_of_literal
  · rw [Bool.eq_false_iff]
    exact fun hword => hv (eq_null_of_padded ((Json.readChars_eq_some_iff cs v).mp h) hword)
  · exact (readLiteral?_eq_some_iff cs v).mpr ⟨h, hv⟩

theorem ofChars_of_word {cs : List Char} (h : isNullWord cs = true) : ofChars cs = .null := by
  rw [ofChars, if_pos h]

theorem ofChars_cases (cs : List Char) :
    (isNullWord cs = true ∧ ofChars cs = .null) ∨
    (∃ v, Json.readChars cs = some v ∧ v ≠ .null ∧ ofChars cs = v) ∨
    (∃ items, ofChars cs = .list items) ∨
    ofChars cs = .text (String.ofList cs) := by
  by_cases hword : isNullWord cs = true
  · exact .inl ⟨hword, ofChars_of_word hword⟩
  replace hword : isNullWord cs = false := by simpa using hword
  cases hliteral : readLiteral? cs with
  | some v =>
    obtain ⟨hread, hv⟩ := (readLiteral?_eq_some_iff cs v).mp hliteral
    exact .inr (.inl ⟨v, hread, hv, ofChars_of_literal hword hliteral⟩)
  | none =>
    cases hlist : readList? cs with
    | some items => exact .inr (.inr (.inl ⟨items, ofChars_of_list hword hliteral hlist⟩))
    | none => exact .inr (.inr (.inr (ofChars_of_text hword hliteral hlist)))

theorem ofChars_eq_null_iff (cs : List Char) : ofChars cs = .null ↔ isNullWord cs = true := by
  refine ⟨fun h => ?_, ofChars_of_word⟩
  obtain ⟨hword, -⟩ | ⟨v, -, hv, heq⟩ | ⟨items, heq⟩ | heq := ofChars_cases cs
  · exact hword
  · exact absurd (heq.symm.trans h) hv
  · simp [h] at heq
  · simp [h] at heq

theorem ofChars_eq_scalar_iff (cs : List Char) {v : Value} (hscalar : v.IsScalar) (hv : v ≠ .null) :
    ofChars cs = v ↔ Text.trimBoth isSpace cs = writeValue v := by
  rw [← Json.spells_scalar_iff Json.maxDepth _ hscalar, ← Json.spellsPadded_iff,
    ← Json.readChars_eq_some_iff]
  refine ⟨fun h => ?_, fun h => ofChars_of_read h hv⟩
  obtain ⟨-, heq⟩ | ⟨w, hread, -, heq⟩ | ⟨items, heq⟩ | heq := ofChars_cases cs
  · exact absurd (h.symm.trans heq) hv
  · rw [hread, ← heq, h]
  · rw [h] at heq
    subst heq
    exact absurd hscalar id
  · rw [h] at heq
    subst heq
    exact absurd hscalar id

/-! ## Integers -/

theorem writeInt_eq_toString (i : Int) : writeInt i = (toString i).toList := by
  cases i with
  | ofNat n =>
    have hsign : ¬ Int.ofNat n < 0 := by simp
    rw [writeInt, if_neg hsign]
    simp [toString, Int.repr, Nat.repr]
  | negSucc n =>
    have hsign : Int.negSucc n < 0 := Int.negSucc_lt_zero n
    rw [writeInt, if_pos hsign]
    simp [toString, Int.repr, Nat.repr]

theorem eq_of_writeInt {i : Int} {negative : Bool} {digits : List Char} (hdigits : IsDigits digits)
    (h : writeInt i = if negative then '-' :: digits else digits) :
    i = if negative then -(natOfDigits digits : Int) else natOfDigits digits := by
  have hminus : isDigit '-' = false := by decide
  unfold writeInt at h
  -- The signs on both sides are the same, as no digit is a hyphen.
  split at h
  · next hi =>
    cases negative with
    | true =>
      obtain rfl : Nat.toDigits 10 i.natAbs = digits := by simpa using h
      rw [Json.natOfDigits_toDigits, if_pos rfl]
      omega
    | false =>
      obtain rfl : '-' :: Nat.toDigits 10 i.natAbs = digits := by simpa using h
      rw [hdigits.2 '-' List.mem_cons_self] at hminus
      exact absurd hminus (by decide)
  · next hi =>
    cases negative with
    | true =>
      have hmem : '-' ∈ Nat.toDigits 10 i.natAbs := by simp [h]
      rw [Json.isDigit_of_mem_toDigits _ '-' hmem] at hminus
      exact absurd hminus (by decide)
    | false =>
      obtain rfl : Nat.toDigits 10 i.natAbs = digits := by simpa using h
      rw [Json.natOfDigits_toDigits, if_neg (by decide)]
      omega

theorem ofChars_eq_int_iff (cs : List Char) (n : Int64) :
    ofChars cs = .int n ↔ Text.trimBoth isSpace cs = writeInt n.toInt :=
  ofChars_eq_scalar_iff cs trivial (by simp)

/-- Which texts are scalars: null in capitals or not, and the one text of every truth value and of
every integer of 64 bits, with white space around it. Digits that spell an integer out of range are
no other integer. -/
theorem coerce_scalar (text : String) :
    (coerce (some text) = .null ↔ text.toList.map Char.toLower = "null".toList) ∧
    (∀ b, coerce (some text) = .bool b ↔
      Text.trimBoth isSpace text.toList = (if b then "true" else "false").toList) ∧
    (∀ i : Int, (∃ n : Int64, n.toInt = i ∧ coerce (some text) = .int n) ↔
      Text.trimBoth isSpace text.toList = (toString i).toList ∧ -2 ^ 63 ≤ i ∧ i ≤ 2 ^ 63 - 1) ∧
    (∀ (negative : Bool) (digits : List Char) (n : Int64), IsDigits digits →
      Text.trimBoth isSpace text.toList = (if negative then '-' :: digits else digits) →
      coerce (some text) = .int n →
      n.toInt = if negative then -(natOfDigits digits : Int) else natOfDigits digits) := by
  rw [coerce]
  refine ⟨?_, ?_, ?_, ?_⟩
  · rw [ofChars_eq_null_iff, isNullWord, beq_iff_eq]
  · intro b
    have hscalar : (Value.bool b).IsScalar := trivial
    rw [ofChars_eq_scalar_iff _ hscalar (by simp)]
    cases b <;> rfl
  · intro i
    rw [← writeInt_eq_toString]
    constructor
    · rintro ⟨n, rfl, hn⟩
      have hlo : -2 ^ 63 ≤ n.toInt := n.le_toInt
      have hhi : n.toInt < 2 ^ 63 := n.toInt_lt
      exact ⟨(ofChars_eq_int_iff _ n).mp hn, hlo, by omega⟩
    · rintro ⟨htext, hlo, hhi⟩
      have hback : (Int64.ofInt i).toInt = i := Int64.toInt_ofInt_of_le hlo (by omega)
      refine ⟨Int64.ofInt i, hback, ?_⟩
      rw [ofChars_eq_int_iff, hback, htext]
  · intro negative digits n hdigits htext hn
    rw [ofChars_eq_int_iff, htext] at hn
    exact eq_of_writeInt hdigits hn.symm

theorem coerce_scalar_least :
    ∃ n : Int64, coerce (some " -9223372036854775808\n") = .int n ∧
      n.toInt = -9223372036854775808 := by
  obtain ⟨n, -, hn⟩ := ((coerce_scalar " -9223372036854775808\n").2.2.1 (-2 ^ 63)).mpr
    ⟨by decide, by decide, by decide⟩
  have hdigits : IsDigits "9223372036854775808".toList :=
    ⟨by decide, List.all_eq_true.mp (by decide)⟩
  exact ⟨n, hn, (coerce_scalar _).2.2.2 true _ n hdigits (by decide) hn⟩

end DocAnnotations.Coercion
