import DocAnnotations.Json.Reader
import DocAnnotations.Json.Writer
import Mathlib.Tactic.SplitIfs

/-! # How strings are spelled -/

namespace DocAnnotations.Json

/-! ## Characters between quotes -/

/-- What stands between the quotes of a string, and the characters that it stands for. -/
inductive SpellsChars : List Char → List Char → Prop
  | nil : SpellsChars [] []
  | plain {c : Char} {cs s : List Char} (hquote : c ≠ '"') (hslash : c ≠ '\\')
      (hcontrol : 0x20 ≤ c.toNat) (h : SpellsChars cs s) : SpellsChars (c :: cs) (c :: s)
  | letter {letter c : Char} {cs s : List Char} (hletter : unescape? letter = some c)
      (h : SpellsChars cs s) : SpellsChars ('\\' :: letter :: cs) (c :: s)
  | code {a b c d : Char} {n : Nat} {cs s : List Char} (hquad : hexQuad? a b c d = some n)
      (hhigh : isHighSurrogate n = false) (hlow : isLowSurrogate n = false)
      (h : SpellsChars cs s) :
      SpellsChars ('\\' :: 'u' :: a :: b :: c :: d :: cs) (Char.ofNat n :: s)
  | pair {a b c d a' b' c' d' : Char} {high low : Nat} {cs s : List Char}
      (hquad : hexQuad? a b c d = some high) (hhigh : isHighSurrogate high = true)
      (hquad' : hexQuad? a' b' c' d' = some low) (hlow : isLowSurrogate low = true)
      (h : SpellsChars cs s) :
      SpellsChars ('\\' :: 'u' :: a :: b :: c :: d :: '\\' :: 'u' :: a' :: b' :: c' :: d' :: cs)
        (joinSurrogates high low :: s)

theorem readText_of_spells {body s : List Char} (h : SpellsChars body s) (rest : List Char) :
    readText (body ++ '"' :: rest) = some (s, rest) := by
  induction h with
  | nil => simp [readText]
  | @plain c cs s hquote hslash hcontrol _ ih =>
    have hlt : ¬ c.toNat < 0x20 := by omega
    simp [readText, hslash, hlt, ih]
  | @letter letter c cs s hletter _ ih =>
    have hu : letter ≠ 'u' := by rintro rfl; simp [unescape?] at hletter
    simp [readText, hu, hletter, ih]
  | code hquad hhigh hlow _ ih => simp [readText, hquad, hhigh, hlow, ih]
  | pair hquad hhigh hquad' hlow _ ih => simp [readText, hquad, hhigh, hquad', hlow, ih]

theorem spells_of_readText {cs s rest : List Char} (h : readText cs = some (s, rest)) :
    ∃ body, cs = body ++ '"' :: rest ∧ SpellsChars body s := by
  fun_induction readText cs generalizing s rest with
  | case1 after =>
    obtain ⟨rfl, rfl⟩ : [] = s ∧ after = rest := by simpa using h
    exact ⟨[], rfl, .nil⟩
  | case2 a b c d after ihpair ih =>
    simp only [Option.bind_eq_bind, Option.bind_eq_some_iff] at h
    obtain ⟨n, hquad, h⟩ := h
    split at h
    · next hhigh =>
      split at h
      · next a' b' c' d' after =>
        simp only [Option.bind_eq_some_iff] at h
        obtain ⟨m, hquad', h⟩ := h
        split at h
        · next hlow =>
          obtain ⟨⟨t, after'⟩, hread, h⟩ := Option.bind_eq_some_iff.mp h
          obtain ⟨rfl, rfl⟩ : joinSurrogates n m :: t = s ∧ after' = rest := by simpa using h
          obtain ⟨body, rfl, hbody⟩ := ihpair hread
          exact ⟨_, rfl, .pair hquad hhigh hquad' hlow hbody⟩
        · simp at h
      · simp at h
    · next hhigh =>
      split at h
      · simp at h
      · next hlow =>
        obtain ⟨⟨t, after'⟩, hread, h⟩ := Option.bind_eq_some_iff.mp h
        obtain ⟨rfl, rfl⟩ : Char.ofNat n :: t = s ∧ after' = rest := by simpa using h
        obtain ⟨body, rfl, hbody⟩ := ih hread
        exact ⟨_, rfl, .code hquad (by simpa using hhigh) (by simpa using hlow) hbody⟩
  | case3 letter after _ ih =>
    simp only [Option.bind_eq_bind, Option.bind_eq_some_iff] at h
    obtain ⟨c, hletter, ⟨t, after'⟩, hread, h⟩ := h
    obtain ⟨rfl, rfl⟩ : c :: t = s ∧ after' = rest := by simpa using h
    obtain ⟨body, rfl, hbody⟩ := ih hread
    exact ⟨_, rfl, .letter hletter hbody⟩
  | case4 => simp at h
  | case5 c after hquote _ _ hplain ih =>
    simp only [Option.bind_eq_bind, Option.bind_eq_some_iff] at h
    obtain ⟨⟨t, after'⟩, hread, h⟩ := h
    obtain ⟨rfl, rfl⟩ : c :: t = s ∧ after' = rest := by simpa using h
    obtain ⟨body, rfl, hbody⟩ := ih hread
    rw [not_or, Nat.not_lt] at hplain
    exact ⟨_, rfl, .plain hquote hplain.1 hplain.2 hbody⟩
  | case6 => simp at h

/-! ## Written strings -/

theorem hexValue?_hexDigit : ∀ n < 16, hexValue? (hexDigit n) = some n := by
  decide

theorem hexQuad?_control (c : Char) (h : c.toNat < 0x20) :
    hexQuad? '0' '0' (hexDigit (c.toNat / 16)) (hexDigit (c.toNat % 16)) = some c.toNat := by
  have h1 := hexValue?_hexDigit (c.toNat / 16) (by omega)
  have h2 := hexValue?_hexDigit (c.toNat % 16) (by omega)
  have h0 : hexValue? '0' = some 0 := by decide
  simp only [hexQuad?, h0, h1, h2, Option.bind_eq_bind, Option.bind_some, Option.some.injEq]
  omega

theorem SpellsChars.escape {cs s : List Char} (h : SpellsChars cs s) (c : Char) :
    SpellsChars (escape c ++ cs) (c :: s) := by
  unfold Json.escape
  split_ifs with hq hb hctl h8 hC hn hr ht
  all_goals try (subst c; exact .letter (by decide) h)
  · -- A control character without a letter of its own.
    have hhigh : isHighSurrogate c.toNat = false := by simp [isHighSurrogate]; omega
    have hlow : isLowSurrogate c.toNat = false := by simp [isLowSurrogate]; omega
    have hcode := SpellsChars.code (hexQuad?_control c hctl) hhigh hlow h
    rwa [Char.ofNat_toNat] at hcode
  · exact .plain hq hb (by omega) h

theorem spellsChars_escaped (s : List Char) : SpellsChars (s.flatMap Json.escape) s := by
  induction s with
  | nil => exact .nil
  | cons c s ih => exact ih.escape c

/-- A quoted text spells a string. -/
def SpellsText (cs : List Char) (s : String) : Prop :=
  ∃ body, cs = '"' :: (body ++ ['"']) ∧ SpellsChars body s.toList

theorem spellsText_writeText (s : String) : SpellsText (writeText s.toList) s :=
  ⟨_, rfl, spellsChars_escaped s.toList⟩

end DocAnnotations.Json
