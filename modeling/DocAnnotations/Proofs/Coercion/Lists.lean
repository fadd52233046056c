import DocAnnotations.Proofs.Coercion.Split
import DocAnnotations.Proofs.Json.Reading

/-!
# Lists read whole and item by item

Where a text is a JSON list between brackets, splitting it at commas gives the
same items, unless an earlier rule has read it already.
-/

namespace DocAnnotations.Coercion

open Json (Spaces Spells SpellsPadded isSpace)

/-! ## Between brackets -/

theorem readWrapped?_eq_some_iff (cs : List Char) (items : List Value) :
    readWrapped? cs = some items ↔ Spells 126 cs (.items items) := by
  have hread : readWrapped? cs = some items ↔
      Json.readChars ('[' :: (cs ++ [']'])) = some (.list items) := by
    unfold readWrapped?
    split
    · next items' heq => simp [heq]
    · next hne =>
      constructor
      · simp
      · intro h
        exact absurd h (hne items)
  rw [hread, Json.readChars_eq_some_iff]
  constructor
  · intro h
    refine (Json.spells_list_iff 126 cs items).mp (h.spells ?_ ?_)
    · rintro c ⟨⟩
      rfl
    · intro c hc
      rw [Json.getLast?_closed, Option.some.injEq] at hc
      exact hc ▸ rfl
  · intro h
    exact (Spells.list h).padded

/-! ## Item by item -/

theorem uncut_of_padded {depth : Nat} {piece : List Char} {v : Value}
    (h : SpellsPadded depth piece v) (d : Nat) : Uncut (.bare d) piece (.bare d) := by
  obtain ⟨before, text, after, hbefore, hafter, rfl, hspells⟩ := h
  exact (uncut_of_spaces hbefore d).append
    ((uncut_of_spells hspells d).append (uncut_of_spaces hafter d))

theorem pieces_of_spells {depth : Nat} {cs : List Char} {items : List Value}
    (h : Spells depth cs (.items items)) (hne : items ≠ []) :
    ∃ pieces, splitTopLevel cs = some pieces ∧
      List.Forall₂ (SpellsPadded depth) pieces items := by
  induction items generalizing cs with
  | nil => exact absurd rfl hne
  | cons v items ih =>
    cases h with
    | lastItem hbefore hv hafter =>
      have hpiece : SpellsPadded depth _ v := ⟨_, _, _, hbefore, hafter, rfl, hv⟩
      exact ⟨_, splitTopLevel_of_uncut (uncut_of_padded hpiece 0), .cons hpiece .nil⟩
    | nextItem hbefore hv hafter hrest =>
      have hpiece : SpellsPadded depth _ v := ⟨_, _, _, hbefore, hafter, rfl, hv⟩
      obtain ⟨pieces, hsplit, hall⟩ := ih hrest (by simp)
      refine ⟨_ :: pieces, ?_, .cons hpiece hall⟩
      simpa using splitTopLevel_comma (uncut_of_padded hpiece 0) hsplit

theorem readItem?_of_padded {piece : List Char} {v : Value} (h : SpellsPadded 127 piece v) :
    readItem? piece = some v := by
  obtain ⟨before, text, after, hbefore, hafter, rfl, hspells⟩ := h
  have hread := (Json.readChars_eq_some_iff text v).mpr hspells.padded
  rw [readItem?, Json.trimBlank_padded hbefore hafter hspells, hread]

theorem mapM_readItem?_iff (pieces : List (List Char)) (items : List Value) :
    pieces.mapM readItem? = some items ↔
      List.Forall₂ (fun piece v => readItem? piece = some v) pieces items := by
  induction pieces generalizing items with
  | nil =>
    rw [List.forall₂_nil_left_iff]
    simp [eq_comm]
  | cons piece pieces ih =>
    simp only [List.mapM_cons, Option.bind_eq_bind, Option.bind_eq_some_iff, ih,
      List.forall₂_cons_left_iff]
    constructor
    · rintro ⟨v, hpiece, vs, hall, heq⟩
      exact ⟨v, vs, hpiece, hall, (Option.some.inj heq).symm⟩
    · rintro ⟨v, vs, hpiece, hall, rfl⟩
      exact ⟨v, hpiece, vs, hall, rfl⟩

theorem readBareList?_of_cut {cs : List Char} {pieces : List (List Char)}
    (hsplit : splitTopLevel cs = some pieces) (hlen : 2 ≤ pieces.length) :
    readBareList? cs = pieces.mapM readItem? := by
  rw [readBareList?, hsplit]
  match pieces, hlen with
  | [], hlen | [_], hlen => simp at hlen
  | first :: second :: rest, _ => rfl

theorem readBareList?_of_spells {cs : List Char} {items : List Value}
    (h : Spells 126 cs (.items items)) (hlen : 2 ≤ items.length) :
    ∃ pieces, splitTopLevel cs = some pieces ∧ pieces.length = items.length ∧
      readBareList? cs = some items := by
  have hne : items ≠ [] := by
    rintro rfl
    simp at hlen
  obtain ⟨pieces, hsplit, hall⟩ := pieces_of_spells h hne
  refine ⟨pieces, hsplit, hall.length_eq, ?_⟩
  rw [readBareList?_of_cut hsplit (by rw [hall.length_eq]; exact hlen), mapM_readItem?_iff]
  exact hall.imp fun _ _ hpiece => readItem?_of_padded (hpiece.mono (by decide))

theorem readBareList?_of_uncut {cs : List Char} (h : Uncut (.bare 0) cs (.bare 0)) :
    readBareList? cs = none := by
  rw [readBareList?, splitTopLevel_of_uncut h]

/-! ## One item or none -/

def IsNullText (cs : List Char) : Prop := SpellsPadded 126 cs .null

theorem isNullText_iff (cs : List Char) :
    IsNullText cs ↔ ∃ before after, Spaces before ∧ Spaces after ∧
      cs = before ++ ("null".toList ++ after) := by
  simp only [IsNullText, SpellsPadded, Json.spells_null_iff]
  constructor
  · rintro ⟨before, text, after, hbefore, hafter, heq, rfl⟩
    exact ⟨before, after, hbefore, hafter, heq⟩
  · rintro ⟨before, after, hbefore, hafter, heq⟩
    exact ⟨before, _, after, hbefore, hafter, heq, rfl⟩

theorem uncut_of_short {depth : Nat} {cs : List Char} {items : List Value}
    (h : Spells depth cs (.items items)) (hlen : items.length ≤ 1) :
    Uncut (.bare 0) cs (.bare 0) := by
  cases h with
  | noItems h => exact uncut_of_spaces h 0
  | lastItem hbefore hv hafter => exact uncut_of_padded ⟨_, _, _, hbefore, hafter, rfl, hv⟩ 0
  | nextItem => simp at hlen

theorem readList?_of_cut {cs : List Char} {pieces : List (List Char)}
    (hsplit : splitTopLevel cs = some pieces) (hlen : 2 ≤ pieces.length) :
    readList? cs = pieces.mapM readItem? := by
  have hbare := readBareList?_of_cut hsplit hlen
  unfold readList?
  split
  · next items hwrapped =>
    have hspells := (readWrapped?_eq_some_iff cs items).mp hwrapped
    have hitems : 2 ≤ items.length := by
      by_contra hshort
      exact not_uncut_of_cut hsplit hlen (uncut_of_short hspells (by omega))
    obtain ⟨-, -, -, hread⟩ := readBareList?_of_spells hspells hitems
    rw [← hread, hbare]
  · exact hbare

theorem blank_or_null_of_spells {cs : List Char} {items : List Value}
    (h : Spells 126 cs (.items items)) (hlen : items.length ≤ 1)
    (hliteral : readLiteral? cs = none) : Spaces cs ∨ IsNullText cs := by
  cases h with
  | noItems h => exact .inl h
  | @lastItem _ before text after v hbefore hv hafter =>
    have hpadded : SpellsPadded 126 _ v := ⟨before, text, after, hbefore, hafter, rfl, hv⟩
    have hread := (Json.readChars_eq_some_iff _ v).mpr (hpadded.mono (by decide))
    rw [readLiteral?, hread] at hliteral
    obtain rfl : v = .null := by
      cases v with
      | null => rfl
      | _ => simp at hliteral
    exact .inr hpadded
  | nextItem => simp at hlen

/-! ## The rules without the first way -/

/-- The value of a text if its lists are read in the given way. -/
def ofCharsBy (list? : List Char → Option (List Value)) (cs : List Char) : Value :=
  if isNullWord cs then .null
  else
    match readLiteral? cs with
    | some v => v
    | none =>
      match list? cs with
      | some items => .list items
      | none => .text (String.ofList cs)

theorem ofChars_eq (cs : List Char) : ofChars cs = ofCharsBy readList? cs := rfl

theorem readLiteral?_of_spaces {cs : List Char} (h : Spaces cs) : readLiteral? cs = none := by
  have hread : Json.readChars cs = none := by
    by_contra hne
    obtain ⟨v, hv⟩ := Option.ne_none_iff_exists'.mp hne
    obtain ⟨before, text, after, -, -, rfl, hspells⟩ := (Json.readChars_eq_some_iff cs v).mp hv
    obtain ⟨c, rest, rfl, hstart⟩ := hspells.head
    have hspace := h c (by simp)
    rw [Json.isSpace_of_isStart c hstart] at hspace
    exact absurd hspace (by decide)
  rw [readLiteral?, hread]

theorem readLiteral?_of_null {cs : List Char} (h : IsNullText cs) : readLiteral? cs = none := by
  rw [readLiteral?, (Json.readChars_eq_some_iff cs .null).mpr (h.mono (by decide))]

theorem readWrapped?_of_spaces {cs : List Char} (h : Spaces cs) : readWrapped? cs = some [] :=
  (readWrapped?_eq_some_iff cs []).mpr (.noItems h)

theorem readWrapped?_of_null {cs : List Char} (h : IsNullText cs) :
    readWrapped? cs = some [.null] := by
  obtain ⟨before, text, after, hbefore, hafter, rfl, hspells⟩ := h
  exact (readWrapped?_eq_some_iff _ _).mpr (.lastItem hbefore hspells hafter)

theorem ofCharsBy_readBareList?_ne_iff (cs : List Char) :
    ofCharsBy readBareList? cs ≠ ofChars cs ↔
      isNullWord cs = false ∧ (Spaces cs ∨ IsNullText cs) := by
  constructor
  · intro hne
    by_contra hnot
    apply hne
    rw [ofChars_eq, ofCharsBy, ofCharsBy]
    -- The rules before lists are the same, and so are lists that the brackets do not make.
    by_cases hnull : isNullWord cs = true
    · simp [hnull]
    cases hliteral : readLiteral? cs with
    | some v => rfl
    | none =>
      cases hwrapped : readWrapped? cs with
      | none => simp [readList?, hwrapped]
      | some items =>
        have hspells := (readWrapped?_eq_some_iff cs items).mp hwrapped
        have hlen : 2 ≤ items.length := by
          by_contra hshort
          have hone := blank_or_null_of_spells hspells (by omega) hliteral
          exact hnot ⟨by simpa using hnull, hone⟩
        obtain ⟨-, -, -, hbare⟩ := readBareList?_of_spells hspells hlen
        simp [readList?, hwrapped, hbare]
  · rintro ⟨hnull, hcase⟩
    have hlist : ∃ items, readWrapped? cs = some items := by
      rcases hcase with hspaces | hpadded
      · exact ⟨[], readWrapped?_of_spaces hspaces⟩
      · exact ⟨[.null], readWrapped?_of_null hpadded⟩
    have hliteral : readLiteral? cs = none := by
      rcases hcase with hspaces | hpadded
      · exact readLiteral?_of_spaces hspaces
      · exact readLiteral?_of_null hpadded
    have huncut : Uncut (.bare 0) cs (.bare 0) := by
      rcases hcase with hspaces | hpadded
      · exact uncut_of_spaces hspaces 0
      · exact uncut_of_padded hpadded 0
    obtain ⟨items, hitems⟩ := hlist
    simp [ofChars_eq, ofCharsBy, hnull, hliteral, readBareList?_of_uncut huncut, readList?, hitems]

/-- Where brackets around a text make it a JSON list of two items or more, splitting at commas
finds as many pieces and the same items. With fewer items the text is blank or a null with white
space around it, unless an earlier rule applies. So the brackets only matter to texts with white
space around them, and to the empty one. -/
theorem lists_agree (cs : List Char) :
    (∀ items, readWrapped? cs = some items → 2 ≤ items.length →
      (∃ pieces, splitTopLevel cs = some pieces ∧ pieces.length = items.length) ∧
        readBareList? cs = some items) ∧
    (∀ items, readWrapped? cs = some items → items.length ≤ 1 → isNullWord cs = false →
      readLiteral? cs = none →
        Spaces cs ∨ ∃ before after, Spaces before ∧ Spaces after ∧
          cs = before ++ ("null".toList ++ after)) ∧
    ((∀ c, cs.head? = some c → isSpace c = false) →
      (∀ c, cs.getLast? = some c → isSpace c = false) →
      (ofCharsBy readBareList? cs ≠ ofChars cs ↔ cs = [])) := by
  refine ⟨?_, ?_, ?_⟩
  · intro items hwrapped hlen
    obtain ⟨pieces, hsplit, hlength, hbare⟩ :=
      readBareList?_of_spells ((readWrapped?_eq_some_iff cs items).mp hwrapped) hlen
    exact ⟨⟨pieces, hsplit, hlength⟩, hbare⟩
  · intro items hwrapped hlen _ hliteral
    rw [← isNullText_iff]
    exact blank_or_null_of_spells ((readWrapped?_eq_some_iff cs items).mp hwrapped) hlen hliteral
  · intro hfirst hlast
    rw [ofCharsBy_readBareList?_ne_iff]
    constructor
    · rintro ⟨hnull, hspaces | hpadded⟩
      · exact hspaces.eq_nil hfirst
      · rw [(Json.spells_null_iff 126 cs).mp (hpadded.spells hfirst hlast)] at hnull
        exact absurd hnull (by decide)
    · rintro rfl
      exact ⟨rfl, .inl Json.spaces_nil⟩

theorem lists_agree_pair :
    ((∃ pieces, splitTopLevel "\"a,b\", [true]".toList = some pieces ∧ pieces.length = 2) ∧
      readBareList? "\"a,b\", [true]".toList = some [.text "a,b", .list [.bool true]]) ∧
    (Spaces " null".toList ∨ ∃ before after, Spaces before ∧ Spaces after ∧
      " null".toList = before ++ ("null".toList ++ after)) ∧
    (ofCharsBy readBareList? [] ≠ ofChars [] ↔ ([] : List Char) = []) :=
  ⟨(lists_agree _).1 [.text "a,b", .list [.bool true]] (by cbv) (by decide),
    (lists_agree _).2.1 [.null] (by cbv) (by decide) (by decide) (by cbv),
    (lists_agree []).2.2 (by simp) (by simp)⟩

end DocAnnotations.Coercion
