import DocAnnotations.Script.Grammar.Name
import Mathlib.Data.List.TakeDrop
import Mathlib.Data.List.TakeWhile

/-! # Words of a source -/

namespace DocAnnotations.Script

/-- That a name is written as an identifier is. -/
structure IsIdentifier (name : String) : Prop where
  start : ∃ c, name.toList.head? = some c ∧ isIdentStart c = true
  parts : ∀ c ∈ name.toList, isIdentPart c = true

theorem isIdentPart_of_isIdentStart {c : Char} (h : isIdentStart c = true) :
    isIdentPart c = true := by
  simp only [isIdentStart, isIdentPart] at *
  split at h
  · next hascii =>
    rw [if_pos hascii]
    simp only [Bool.or_eq_true, Char.isAlphanum] at *
    rcases h with (h | h) | h <;> simp [h]
  · next hwide =>
    rw [if_neg hwide]
    simp [h]

theorem isIdentifier_ofList {first : Char} {others : List Char} (hfirst : isIdentStart first = true)
    (hothers : ∀ c ∈ others, isIdentPart c = true) :
    IsIdentifier (String.ofList (first :: others)) where
  start := ⟨first, by simp, hfirst⟩
  parts := by
    rw [String.toList_ofList]
    exact List.forall_mem_cons.mpr ⟨isIdentPart_of_isIdentStart hfirst, hothers⟩

theorem IsIdentifier.colon_not_mem {name : String} (h : IsIdentifier name) :
    ':' ∉ name.toList := by
  intro hmem
  exact absurd (h.parts ':' hmem) (by decide)

/-! ## Reading words -/

theorem isIdentPart_of_readEscapedWord {fuel : Nat} {cs word rest : List Char}
    (h : readEscapedWord fuel cs = some (word, rest)) : ∀ c ∈ word, isIdentPart c = true := by
  fun_induction readEscapedWord fuel cs generalizing word rest with
  | case1 | case3 => cases h
  | case2 fuel text ih =>
    simp only [Option.bind_eq_bind, Option.bind_eq_some_iff, Prod.exists,
      Option.ite_none_right_eq_some] at h
    obtain ⟨code, behind, -, hcode, others, after, hothers, heq⟩ := h
    cases heq
    exact List.forall_mem_cons.mpr ⟨hcode, ih behind hothers⟩
  | case4 fuel c text hescape hslash hc ih =>
    simp only [Option.bind_eq_bind, Option.bind_eq_some_iff, Prod.exists] at h
    obtain ⟨others, after, hothers, heq⟩ := h
    cases heq
    exact List.forall_mem_cons.mpr ⟨hc, ih hothers⟩
  | case5 | case6 =>
    cases h
    exact List.forall_mem_nil _

theorem isIdentifier_of_readWord {c : Char} {cs rest : List Char} {name : String} {escaped : Bool}
    (hc : (isIdentStart c || c == '\\') = true)
    (h : readWord (c :: cs) = (.word name escaped, rest)) : IsIdentifier name := by
  simp only [readWord] at h
  split at h
  · -- Behind escapes, the first character is looked at again.
    split at h
    · next first others behind hword =>
      split at h
      · next hfirst =>
        simp only [Bool.and_eq_true] at hfirst
        cases h
        have hparts := isIdentPart_of_readEscapedWord hword
        exact isIdentifier_ofList hfirst.1 (List.forall_mem_cons.mp hparts).2
      · cases h
    · cases h
  · next hrest =>
    cases h
    simp only [List.span_eq_takeWhile_dropWhile] at hrest ⊢
    have hstart : isIdentStart c = true := by
      rcases (Bool.or_eq_true _ _).mp hc with hstart | hslash
      · exact hstart
      · rw [beq_iff_eq.mp hslash] at hrest
        exact (hrest cs rfl).elim
    rw [List.takeWhile_cons_of_pos (isIdentPart_of_isIdentStart hstart)]
    exact isIdentifier_ofList hstart fun _ h => List.mem_takeWhile_imp h

/-! ## Reading other tokens -/

theorem isWord_closeNumber {t : Token} (rest : List Char) (h : t.isWord = false) :
    (closeNumber t rest).1.isWord = false := by
  unfold closeNumber
  split
  · rfl
  · exact h

theorem isWord_readRadix (base : Nat) (isDigit : Char → Bool) (cs : List Char) :
    (readRadix base isDigit cs).1.isWord = false := by
  unfold readRadix
  split
  split
  · rfl
  · split <;> exact isWord_closeNumber _ rfl

theorem isWord_readFraction (whole cs : List Char) :
    (readFraction whole cs).1.isWord = false := by
  unfold readFraction
  split
  split
  · rfl
  · exact isWord_closeNumber _ rfl

theorem isWord_readDecimal (cs : List Char) : (readDecimal cs).1.isWord = false := by
  unfold readDecimal
  split
  split
  · exact isWord_closeNumber _ rfl
  · split
    · exact isWord_closeNumber _ rfl
    · exact isWord_readFraction _ _
    · split
      · rfl
      · exact isWord_closeNumber _ rfl

theorem isWord_readNumber (cs : List Char) : (readNumber cs).1.isWord = false := by
  unfold readNumber
  split
  · split_ifs
    · exact isWord_readRadix _ _ _
    · exact isWord_readRadix _ _ _
    · exact isWord_readRadix _ _ _
    · exact isWord_readDecimal _
  · exact isWord_readFraction _ _
  · exact isWord_readDecimal _

theorem isWord_readString (quote : Char) (cs : List Char) :
    (readString quote cs).1.isWord = false := by
  unfold readString
  split <;> rfl

/-- That a token spells an identifier if it is a word. -/
def Token.Spelled (t : Token) : Prop := ∀ name escaped, t = .word name escaped → IsIdentifier name

theorem Token.spelled_of_isWord {t : Token} (h : t.isWord = false) : t.Spelled := by
  rintro name escaped rfl
  cases h

theorem spelled_readToken (cs : List Char) : (readToken cs).1.Spelled := by
  unfold readToken
  split
  · exact Token.spelled_of_isWord rfl
  · split_ifs with hword hnumber hquote
    · exact fun name escaped h => isIdentifier_of_readWord hword (Prod.ext h rfl)
    · exact Token.spelled_of_isWord (isWord_readNumber _)
    · exact Token.spelled_of_isWord (isWord_readString _ _)
    · split <;> exact Token.spelled_of_isWord rfl

end DocAnnotations.Script
