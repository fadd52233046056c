import DocAnnotations.Proofs.Coercion.Lists
import DocAnnotations.Proofs.Coercion.Scalars

/-!
# Lists are read item by item

A text that is cut at commas is the list of its items, or itself. Any other text
is read as a whole.
-/

namespace DocAnnotations.Coercion

open Json (Spaces SpellsPadded isSpace)

/-! ## Items -/

/-- The text of a value that nests no deeper than the reader goes. -/
def IsJson (cs : List Char) : Prop := ∃ v, SpellsPadded Json.maxDepth cs v

/-- What may stand in a list. -/
def IsItem (cs : List Char) : Prop := IsJson cs ∨ isBareWord cs = true

/-- An item means what it means alone, but null with a capital letter is a word. -/
def itemValue (cs : List Char) : Value :=
  if isNullWord cs ∧ cs ≠ "null".toList then .text (String.ofList cs)
  else coerce (some (String.ofList cs))

theorem isJson_iff (cs : List Char) : IsJson cs ↔ ∃ v, Json.readChars cs = some v := by
  simp only [IsJson, Json.readChars_eq_some_iff]

theorem readItem?_eq_none_iff (piece : List Char) :
    readItem? piece = none ↔ ¬ IsItem (Text.trimBlank piece) := by
  rw [IsItem, isJson_iff, readItem?]
  split
  · next v hread => simp [hread]
  · next hread => simp [hread]

/-! ## Texts that are not cut -/

theorem isPlain_of_isNullWord {cs : List Char} (h : isNullWord cs = true) {c : Char} (hc : c ∈ cs) :
    isPlain c = true := by
  by_contra hplain
  simp only [isPlain, Bool.not_eq_true', Bool.not_eq_false, Bool.or_eq_true, beq_iff_eq] at hplain
  have hlower := toLower_of_isNullWord h hc
  rcases hplain with ((((rfl | rfl) | rfl) | rfl) | rfl) | rfl <;> exact absurd hlower (by decide)

/-- A null with white space on at least one side. -/
def IsPaddedNull (cs : List Char) : Prop :=
  ∃ before after, Spaces before ∧ Spaces after ∧ before ++ after ≠ [] ∧
    cs = before ++ ("null".toList ++ after)

theorem IsPaddedNull.isNullText {cs : List Char} (h : IsPaddedNull cs) : IsNullText cs := by
  obtain ⟨before, after, hbefore, hafter, -, heq⟩ := h
  exact (isNullText_iff cs).mpr ⟨before, after, hbefore, hafter, heq⟩

theorem isNullWord_of_spaces {cs : List Char} (h : Spaces cs) : isNullWord cs = false := by
  rw [Bool.eq_false_iff]
  intro hword
  obtain rfl : cs = [] :=
    h.eq_nil fun c hc => isSpace_of_isNullWord hword (List.mem_of_mem_head? hc)
  exact absurd hword (by decide)

theorem IsPaddedNull.isNullWord {cs : List Char} (h : IsPaddedNull cs) : isNullWord cs = false := by
  rw [Bool.eq_false_iff]
  intro hword
  obtain ⟨before, after, hbefore, hafter, hne, rfl⟩ := h
  obtain ⟨c, hc⟩ := List.exists_mem_of_ne_nil _ hne
  have hspace : isSpace c = true := by
    rcases List.mem_append.mp hc with hc | hc
    · exact hbefore c hc
    · exact hafter c hc
  have hmem : c ∈ before ++ ("null".toList ++ after) := by
    rcases List.mem_append.mp hc with hc | hc <;> simp [hc]
  rw [isSpace_of_isNullWord hword hmem] at hspace
  exact absurd hspace (by decide)

theorem isPaddedNull_of_spells {cs : List Char} (h : SpellsPadded Json.maxDepth cs .null)
    (hword : isNullWord cs = false) : IsPaddedNull cs := by
  obtain ⟨before, text, after, hbefore, hafter, rfl, hspells⟩ := h
  obtain rfl := (Json.spells_null_iff _ text).mp hspells
  refine ⟨before, after, hbefore, hafter, ?_, rfl⟩
  intro hnil
  obtain ⟨rfl, rfl⟩ := List.append_eq_nil_iff.mp hnil
  exact absurd hword (by decide)

/-- What a text that is not cut means. -/
structure ReadWhole (cs : List Char) (v : Value) : Prop where
  json : ∀ w, SpellsPadded Json.maxDepth cs w → w ≠ .null → v = w
  blank : Spaces cs ∨ IsPaddedNull cs → ∃ items, readWrapped? cs = some items ∧ v = .list items
  word : isNullWord cs = true → v = .null
  other : (∀ w, SpellsPadded Json.maxDepth cs w → w = .null) → ¬ Spaces cs → ¬ IsPaddedNull cs →
    isNullWord cs = false → v = .text (String.ofList cs)

theorem readWhole_ofChars {cs : List Char}
    (h : ∀ pieces, splitTopLevel cs = some pieces → pieces.length = 1) :
    ReadWhole cs (ofChars cs) where
  json w hw hne := ofChars_of_read ((Json.readChars_eq_some_iff cs w).mpr hw) hne
  blank hcase := by
    rcases hcase with hspaces | hnull
    · have hwrapped := readWrapped?_of_spaces hspaces
      refine ⟨[], hwrapped, ofChars_of_list (isNullWord_of_spaces hspaces)
        (readLiteral?_of_spaces hspaces) ?_⟩
      rw [readList?, hwrapped]
    · have hwrapped := readWrapped?_of_null hnull.isNullText
      refine ⟨[.null], hwrapped, ofChars_of_list hnull.isNullWord
        (readLiteral?_of_null hnull.isNullText) ?_⟩
      rw [readList?, hwrapped]
  word := ofChars_of_word
  other hjson hspaces hnull hword := by
    have hliteral : readLiteral? cs = none := by
      by_contra hne
      obtain ⟨v, hv⟩ := Option.ne_none_iff_exists'.mp hne
      obtain ⟨hread, hv⟩ := (readLiteral?_eq_some_iff cs v).mp hv
      exact hv (hjson v ((Json.readChars_eq_some_iff cs v).mp hread))
    have hwrapped : readWrapped? cs = none := by
      by_contra hne
      obtain ⟨items, hitems⟩ := Option.ne_none_iff_exists'.mp hne
      have hspells := (readWrapped?_eq_some_iff cs items).mp hitems
      by_cases hlen : items.length ≤ 1
      · rcases blank_or_null_of_spells hspells hlen hliteral with hblank | htext
        · exact hspaces hblank
        · exact hnull (isPaddedNull_of_spells (htext.mono (by decide)) hword)
      · obtain ⟨pieces, hsplit, hlength, -⟩ := readBareList?_of_spells hspells (by omega)
        have hone := h pieces hsplit
        omega
    have hbare : readBareList? cs = none := by
      unfold readBareList?
      split
      · next first second rest hsplit =>
        have hone := h _ hsplit
        simp at hone
      · rfl
    apply ofChars_of_text hword hliteral
    rw [readList?, hwrapped, hbare]

/-! ## Items alone -/

theorem uncut_of_isBareWord {cs : List Char} (h : isBareWord cs = true) :
    Uncut (.bare 0) cs (.bare 0) := by
  apply uncut_of_plain
  intro c hc
  simp only [isBareWord, Bool.and_eq_true, List.all_eq_true] at h
  have hword := h.2 c hc
  simp only [Bool.not_eq_true', Bool.or_eq_false_iff] at hword
  simp [isPlain, hword]

theorem not_spaces_of_isBareWord {cs : List Char} (h : isBareWord cs = true) : ¬ Spaces cs := by
  intro hspaces
  simp only [isBareWord, Bool.and_eq_true, List.all_eq_true] at h
  obtain ⟨hne, hall⟩ := h
  obtain ⟨c, hc⟩ := List.exists_mem_of_ne_nil cs (by simpa using hne)
  have hword := hall c hc
  simp [Json.isBlank_of_isSpace c (hspaces c hc)] at hword

theorem ofChars_of_isBareWord {cs : List Char} (h : isBareWord cs = true) (hjson : ¬ IsJson cs)
    (hword : isNullWord cs = false) : ofChars cs = .text (String.ofList cs) := by
  have hwhole : ∀ pieces, splitTopLevel cs = some pieces → pieces.length = 1 := by
    intro pieces hsplit
    rw [splitTopLevel_of_uncut (uncut_of_isBareWord h), Option.some.injEq] at hsplit
    simp [← hsplit]
  apply (readWhole_ofChars hwhole).other
  · exact fun w hw => absurd ⟨w, hw⟩ hjson
  · exact not_spaces_of_isBareWord h
  · exact fun hnull => hjson ⟨.null, hnull.isNullText.mono (by decide)⟩
  · exact hword

theorem spells_trimBlank {depth : Nat} {piece : List Char} {v : Value}
    (h : SpellsPadded depth (Text.trimBlank piece) v) :
    Json.Spells depth (Text.trimBlank piece) (.value v) :=
  h.spells (fun _ hc => Json.isSpace_of_not_isBlank (Text.head_trimBoth hc))
    (fun _ hc => Json.isSpace_of_not_isBlank (Text.last_trimBoth hc))

theorem readItem?_eq_itemValue {piece : List Char} (h : IsItem (Text.trimBlank piece)) :
    readItem? piece = some (itemValue (Text.trimBlank piece)) := by
  cases hread : Json.readChars (Text.trimBlank piece) with
  | some v =>
    have hpadded := (Json.readChars_eq_some_iff _ v).mp hread
    have hvalue : itemValue (Text.trimBlank piece) = v := by
      by_cases hv : v = .null
      · subst hv
        rw [(Json.spells_null_iff _ _).mp (spells_trimBlank hpadded)]
        rfl
      · have hword : isNullWord (Text.trimBlank piece) = false := by
          rw [Bool.eq_false_iff]
          exact fun hword => hv (eq_null_of_padded hpadded hword)
        rw [itemValue, if_neg (by simp [hword]), coerce, String.toList_ofList,
          ofChars_of_read hread hv]
    simp [readItem?, hread, hvalue]
  | none =>
    have hjson : ¬ IsJson (Text.trimBlank piece) := by
      rw [isJson_iff, hread]
      simp
    have hbare := h.resolve_left hjson
    have hvalue : itemValue (Text.trimBlank piece) =
        .text (String.ofList (Text.trimBlank piece)) := by
      unfold itemValue
      split
      · rfl
      · next hnot =>
        have hword : isNullWord (Text.trimBlank piece) = false := by
          rw [Bool.eq_false_iff]
          intro hword
          refine hnot ⟨hword, ?_⟩
          intro heq
          rw [heq] at hread
          exact absurd hread (by decide)
        rw [coerce, String.toList_ofList, ofChars_of_isBareWord hbare hjson hword]
    simp [readItem?, hread, hbare, hvalue]

/-! ## Texts that are cut -/

theorem mapM_readItem?_of_items {pieces : List (List Char)}
    (h : ∀ piece ∈ pieces, IsItem (Text.trimBlank piece)) :
    pieces.mapM readItem? = some (pieces.map fun piece => itemValue (Text.trimBlank piece)) := by
  rw [mapM_readItem?_iff, List.forall₂_map_right_iff, List.forall₂_same]
  exact fun piece hpiece => readItem?_eq_itemValue (h piece hpiece)

theorem mapM_readItem?_of_not_item {pieces : List (List Char)} {piece : List Char}
    (hmem : piece ∈ pieces) (h : ¬ IsItem (Text.trimBlank piece)) :
    pieces.mapM readItem? = none := by
  by_contra hne
  obtain ⟨items, hitems⟩ := Option.ne_none_iff_exists'.mp hne
  have hall := (mapM_readItem?_iff pieces items).mp hitems
  have hread : ∀ piece ∈ pieces, readItem? piece ≠ none :=
    ((List.forall₂_and_left _ _).mp (hall.imp fun _ _ hv => ⟨by simp [hv], hv⟩)).1
  exact hread piece hmem ((readItem?_eq_none_iff piece).mpr h)

theorem ofChars_of_cut {cs : List Char} {pieces : List (List Char)}
    (hsplit : splitTopLevel cs = some pieces) (hlen : 2 ≤ pieces.length) :
    ofChars cs = match pieces.mapM readItem? with
      | some items => .list items
      | none => .text (String.ofList cs) := by
  have hcut := not_uncut_of_cut hsplit hlen
  -- Only the rule for lists can apply to a text that is cut.
  have hword : isNullWord cs = false := by
    rw [Bool.eq_false_iff]
    intro hword
    exact hcut (uncut_of_plain (fun c hc => isPlain_of_isNullWord hword hc) 0)
  have hliteral : readLiteral? cs = none := by
    by_contra hne
    obtain ⟨v, hv⟩ := Option.ne_none_iff_exists'.mp hne
    have hread := ((readLiteral?_eq_some_iff cs v).mp hv).1
    exact hcut (uncut_of_padded ((Json.readChars_eq_some_iff cs v).mp hread) 0)
  have hlist := readList?_of_cut hsplit hlen
  cases hitems : pieces.mapM readItem? with
  | some items => exact ofChars_of_list hword hliteral (hlist.trans hitems)
  | none => exact ofChars_of_text hword hliteral (hlist.trans hitems)

/-- A text in two pieces or more is the list of its items, or itself if a piece is no item. Any
other text is read as a whole. -/
theorem coerce_pieces (text : String) :
    (∀ pieces, splitTopLevel text.toList = some pieces → 2 ≤ pieces.length →
      ((∀ piece ∈ pieces, IsItem (Text.trimBlank piece)) →
        coerce (some text) = .list (pieces.map fun piece => itemValue (Text.trimBlank piece))) ∧
      ((∃ piece ∈ pieces, ¬ IsItem (Text.trimBlank piece)) → coerce (some text) = .text text)) ∧
    ((∀ pieces, splitTopLevel text.toList = some pieces → pieces.length = 1) →
      ReadWhole text.toList (coerce (some text))) := by
  refine ⟨?_, readWhole_ofChars⟩
  intro pieces hsplit hlen
  have hcut := ofChars_of_cut hsplit hlen
  constructor
  · intro hitems
    rw [coerce, hcut, mapM_readItem?_of_items hitems]
  · rintro ⟨piece, hmem, hpiece⟩
    rw [coerce, hcut, mapM_readItem?_of_not_item hmem hpiece, String.ofList_toList]

theorem coerce_pieces_three :
    coerce (some "a, \"b,c\",NULL") = .list [.text "a", .text "b,c", .text "NULL"] ∧
    coerce (some "a,b c") = .text "a,b c" ∧
    ∃ items, readWrapped? " null".toList = some items ∧ coerce (some " null") = .list items := by
  refine ⟨?_, ?_, ?_⟩
  · have hstring : IsJson "\"b,c\"".toList := (isJson_iff _).mpr ⟨.text "b,c", by cbv⟩
    have hitems : ∀ piece ∈ ["a".toList, " \"b,c\"".toList, "NULL".toList],
        IsItem (Text.trimBlank piece) := by
      intro piece hpiece
      simp only [List.mem_cons, List.not_mem_nil, or_false] at hpiece
      rcases hpiece with rfl | rfl | rfl
      · exact .inr (by decide)
      · exact .inl hstring
      · exact .inr (by decide)
    have hread : ["a".toList, " \"b,c\"".toList, "NULL".toList].mapM readItem? =
        some [.text "a", .text "b,c", .text "NULL"] := by cbv
    rw [mapM_readItem?_of_items hitems, Option.some.injEq] at hread
    rw [((coerce_pieces _).1 _ (by decide) (by decide)).1 hitems, hread]
  · refine ((coerce_pieces _).1 ["a".toList, "b c".toList] (by decide) (by decide)).2
      ⟨"b c".toList, by simp, ?_⟩
    have hread : Json.readChars "b c".toList = none := by cbv
    rintro (hjson | hbare)
    · obtain ⟨v, hv⟩ := (isJson_iff _).mp hjson
      exact absurd (hv.symm.trans hread) (by simp)
    · exact absurd hbare (by decide)
  · have hsplit : splitTopLevel " null".toList = some [" null".toList] := by decide
    refine ((coerce_pieces " null").2 ?_).blank (.inr ⟨[' '], [], ?_, Json.spaces_nil, ?_, rfl⟩)
    · intro pieces hpieces
      rw [hsplit, Option.some.injEq] at hpieces
      simp [← hpieces]
    · simp [Spaces, isSpace]
    · simp

end DocAnnotations.Coercion
