import DocAnnotations.Coercion
import DocAnnotations.Proofs.Json.Spelling

/-!
# Where a text is split

No comma inside a spelled value splits a text: it stands between quotes or
brackets.
-/

namespace DocAnnotations.Coercion

open Json (Phrase Spaces Spells SpellsChars)

/-! ## Uncut texts -/

/-- The text leads from one place to another, and no comma in it splits. -/
inductive Uncut : Place → List Char → Place → Prop
  | nil {p : Place} : Uncut p [] p
  | cons {p q r : Place} {c : Char} {cs : List Char} (hnext : p.next? c = some q)
      (hcut : ¬ (p = .bare 0 ∧ c = ',')) (h : Uncut q cs r) : Uncut p (c :: cs) r

theorem Uncut.append {p q r : Place} {cs ds : List Char} (h : Uncut p cs q) (h' : Uncut q ds r) :
    Uncut p (cs ++ ds) r := by
  induction h with
  | nil => exact h'
  | cons hnext hcut _ ih => exact .cons hnext hcut (ih h')

theorem splitAt_of_uncut {p q : Place} {cs more piece : List Char} {pieces : List (List Char)}
    (h : Uncut p cs q) (hmore : splitAt q more = some (piece :: pieces)) :
    splitAt p (cs ++ more) = some ((cs ++ piece) :: pieces) := by
  induction h with
  | nil => exact hmore
  | cons hnext hcut _ ih => simp [splitAt, hnext, ih hmore, hcut, consFirst]

theorem splitTopLevel_of_uncut {cs : List Char} (h : Uncut (.bare 0) cs (.bare 0)) :
    splitTopLevel cs = some [cs] := by
  have hend : splitAt (.bare 0) [] = some [[]] := rfl
  simpa [splitTopLevel] using splitAt_of_uncut h hend

theorem not_uncut_of_cut {cs : List Char} {pieces : List (List Char)}
    (hsplit : splitTopLevel cs = some pieces) (hlen : 2 ≤ pieces.length) :
    ¬ Uncut (.bare 0) cs (.bare 0) := by
  intro h
  rw [splitTopLevel_of_uncut h, Option.some.injEq] at hsplit
  simp [← hsplit] at hlen

theorem splitTopLevel_comma {cs more : List Char} {pieces : List (List Char)}
    (h : Uncut (.bare 0) cs (.bare 0)) (hmore : splitTopLevel more = some pieces) :
    splitTopLevel (cs ++ ',' :: more) = some (cs :: pieces) := by
  have hcomma : splitAt (.bare 0) (',' :: more) = some ([] :: pieces) := by
    rw [splitTopLevel] at hmore
    simp [splitAt, Place.next?, hmore]
  simpa [splitTopLevel] using splitAt_of_uncut h hcomma

/-! ## Outside of strings -/

/-- The characters that mean nothing to the splitter. -/
def isPlain (c : Char) : Bool :=
  !(c == '"' || c == '[' || c == '\x7b' || c == ']' || c == '\x7d' || c == ',')

theorem uncut_of_plain {cs : List Char} (h : ∀ c ∈ cs, isPlain c = true) (d : Nat) :
    Uncut (.bare d) cs (.bare d) := by
  induction cs with
  | nil => exact .nil
  | cons c cs ih =>
    have hc := h c List.mem_cons_self
    simp only [isPlain, Bool.not_eq_true', Bool.or_eq_false_iff, beq_eq_false_iff_ne] at hc
    obtain ⟨⟨⟨⟨⟨hquote, hlist⟩, hmap⟩, hlist'⟩, hmap'⟩, hcomma⟩ := hc
    refine .cons ?_ (fun hcut => hcomma hcut.2) (ih fun x hx => h x (List.mem_cons_of_mem c hx))
    simp [Place.next?, hquote, hlist, hmap, hlist', hmap']

theorem isPlain_of_isSpace (c : Char) (h : Json.isSpace c = true) : isPlain c = true := by
  simp only [Json.isSpace, Bool.or_eq_true, beq_iff_eq] at h
  rcases h with ((rfl | rfl) | rfl) | rfl <;> rfl

theorem uncut_of_spaces {cs : List Char} (h : Spaces cs) (d : Nat) : Uncut (.bare d) cs (.bare d) :=
  uncut_of_plain (fun c hc => isPlain_of_isSpace c (h c hc)) d

theorem isPlain_of_isNumeric (c : Char) (h : Json.isNumeric c = true) : isPlain c = true := by
  by_contra hplain
  simp only [isPlain, Bool.not_eq_true', Bool.not_eq_false, Bool.or_eq_true, beq_iff_eq] at hplain
  rcases hplain with ((((rfl | rfl) | rfl) | rfl) | rfl) | rfl <;> exact absurd h (by decide)

theorem uncut_comma (d : Nat) : Uncut (.bare (d + 1)) [','] (.bare (d + 1)) :=
  .cons rfl (by simp) .nil

/-! ## Inside of strings -/

theorem uncut_quoted {c : Char} (hquote : c ≠ '"') (hslash : c ≠ '\\') (d : Nat) :
    Uncut (.quoted d) [c] (.quoted d) :=
  .cons (by simp [Place.next?, hquote, hslash]) (by simp) .nil

theorem uncut_escaped (c : Char) (d : Nat) : Uncut (.quoted d) ['\\', c] (.quoted d) :=
  .cons rfl (by simp) (.cons rfl (by simp) .nil)

theorem uncut_hexDigit {c : Char} {n : Nat} (h : Json.hexValue? c = some n) (d : Nat) :
    Uncut (.quoted d) [c] (.quoted d) := by
  have hquote : Json.hexValue? '"' = none := by decide
  have hslash : Json.hexValue? '\\' = none := by decide
  apply uncut_quoted
  · rintro rfl
    simp [hquote] at h
  · rintro rfl
    simp [hslash] at h

theorem uncut_hexQuad {a b c e : Char} {n : Nat} (h : Json.hexQuad? a b c e = some n) (d : Nat) :
    Uncut (.quoted d) [a, b, c, e] (.quoted d) := by
  simp only [Json.hexQuad?, Option.bind_eq_bind, Option.bind_eq_some_iff] at h
  obtain ⟨_, ha, _, hb, _, hc, _, he, -⟩ := h
  exact (uncut_hexDigit ha d).append ((uncut_hexDigit hb d).append
    ((uncut_hexDigit hc d).append (uncut_hexDigit he d)))

theorem uncut_chars {cs s : List Char} (h : SpellsChars cs s) (d : Nat) :
    Uncut (.quoted d) cs (.quoted d) := by
  induction h with
  | nil => exact .nil
  | plain hquote hslash _ _ ih => exact (uncut_quoted hquote hslash d).append ih
  | @letter letter _ _ _ _ _ ih => exact (uncut_escaped letter d).append ih
  | code hquad _ _ _ ih => exact (uncut_escaped 'u' d).append ((uncut_hexQuad hquad d).append ih)
  | pair hquad _ hquad' _ _ ih =>
    exact (uncut_escaped 'u' d).append ((uncut_hexQuad hquad d).append
      ((uncut_escaped 'u' d).append ((uncut_hexQuad hquad' d).append ih)))

theorem uncut_text {cs : List Char} {s : String} (h : Json.SpellsText cs s) (d : Nat) :
    Uncut (.bare d) cs (.bare d) := by
  obtain ⟨body, rfl, hbody⟩ := h
  have hclose : Uncut (.quoted d) ['"'] (.bare d) := .cons rfl (by simp) .nil
  exact .cons rfl (by simp) ((uncut_chars hbody d).append hclose)

theorem uncut_key {cs : List Char} {key : String} (h : Json.SpellsKey cs key) (d : Nat) :
    Uncut (.bare d) cs (.bare d) := by
  obtain ⟨before, text, after, hbefore, htext, hafter, rfl⟩ := h
  have hcolon : Uncut (.bare d) [':'] (.bare d) := uncut_of_plain (by simp [isPlain]) d
  exact (uncut_of_spaces hbefore d).append ((uncut_text htext d).append
    ((uncut_of_spaces hafter d).append hcolon))

/-! ## Spelled phrases -/

/-- How many brackets at least are open where the phrase stands. -/
def minOpen : Phrase → Nat
  | .value _ => 0
  | .items _ | .members _ => 1

theorem uncut_of_spells {depth : Nat} {cs : List Char} {x : Phrase} (h : Spells depth cs x)
    (d : Nat) : Uncut (.bare (d + minOpen x)) cs (.bare (d + minOpen x)) := by
  -- Over any number of open brackets, as each list and map opens one more.
  induction h generalizing d with
  | null | yes | no => exact uncut_of_plain (by simp [isPlain]) d
  | text h => exact uncut_text h d
  | number h => exact uncut_of_plain (fun c hc => isPlain_of_isNumeric c (h.isNumeric c hc)) d
  | list _ ih | map _ ih =>
    have hclose : ∀ c, c = ']' ∨ c = '\x7d' → Uncut (.bare (d + 1)) [c] (.bare d) := by
      rintro c (rfl | rfl) <;> exact .cons rfl (by simp) .nil
    exact .cons rfl (by simp) ((ih d).append (hclose _ (by simp)))
  | noItems h | noMembers h => exact uncut_of_spaces h (d + 1)
  | lastItem hbefore _ hafter ih =>
    exact (uncut_of_spaces hbefore _).append ((ih (d + 1)).append (uncut_of_spaces hafter _))
  | nextItem hbefore _ hafter _ ih ihrest =>
    exact (uncut_of_spaces hbefore _).append ((ih (d + 1)).append
      ((uncut_of_spaces hafter _).append ((uncut_comma d).append (ihrest d))))
  | lastMember hkey hbefore _ hafter ih =>
    exact (uncut_key hkey _).append ((uncut_of_spaces hbefore _).append
      ((ih (d + 1)).append (uncut_of_spaces hafter _)))
  | nextMember hkey hbefore _ hafter _ ih ihrest =>
    exact (uncut_key hkey _).append ((uncut_of_spaces hbefore _).append ((ih (d + 1)).append
      ((uncut_of_spaces hafter _).append ((uncut_comma d).append (ihrest d)))))

end DocAnnotations.Coercion
