import DocAnnotations.Proofs.Coercion.Lists
import DocAnnotations.Proofs.Coercion.Written

/-!
# Coercing what was written

A list that was read item by item can nest one level deeper than the reader goes.
Its text comes back as it stands.
-/

namespace DocAnnotations.Coercion

open Json (Phrase Spells SpellsPadded writeValue)

/-! ## What a text can mean -/

theorem fits_of_readChars {cs : List Char} {v : Value} (h : Json.readChars cs = some v) :
    v.Fits 127 := by
  obtain ⟨before, text, after, -, -, -, hspells⟩ := (Json.readChars_eq_some_iff cs v).mp h
  exact hspells.fits

theorem fits_of_readItem? {piece : List Char} {v : Value} (h : readItem? piece = some v) :
    v.Fits 127 := by
  unfold readItem? at h
  dsimp only at h
  split at h
  · next w hread =>
    obtain rfl := Option.some.inj h
    exact fits_of_readChars hread
  · simp only [Option.ite_none_right_eq_some, Option.some.injEq] at h
    rw [← h.2]
    exact Value.fits_text _ _

theorem fits_of_mapM {pieces : List (List Char)} {items : List Value}
    (h : pieces.mapM readItem? = some items) : ∀ v ∈ items, v.Fits 127 := by
  replace h : List.Forall₂ (fun _ v => Value.Fits 127 v) pieces items :=
    ((mapM_readItem?_iff pieces items).mp h).imp fun _ _ => fits_of_readItem?
  induction h with
  | nil => simp
  | cons hv _ ih => exact List.forall_mem_cons.mpr ⟨hv, ih⟩

theorem fits_of_readBareList? {cs : List Char} {items : List Value}
    (h : readBareList? cs = some items) : ∀ v ∈ items, v.Fits 127 := by
  unfold readBareList? at h
  split at h
  · exact fits_of_mapM h
  · simp at h

theorem fits_ofChars (cs : List Char) : (ofChars cs).Fits 128 := by
  unfold ofChars
  split
  · exact Value.fits_null 128
  split
  · next v hliteral =>
    have hread : Json.readChars cs = some v := by
      unfold readLiteral? at hliteral
      split at hliteral
      · simp at hliteral
      · exact hliteral
    exact (fits_of_readChars hread).mono (by decide)
  split
  · next items hlist =>
    unfold readList? at hlist
    split at hlist
    · next items' hwrapped =>
      obtain rfl := Option.some.inj hlist
      have hspells := (readWrapped?_eq_some_iff cs items').mp hwrapped
      exact (Value.fits_list hspells.fits).mono (by decide)
    -- Each item was read alone, so the list may be one level deeper than the reader goes.
    · exact Value.fits_list (fits_of_readBareList? hlist)
  · exact Value.fits_text _ 128

/-! ## Values nested too deep -/

variable {v : Value}

theorem readChars_of_deep (hf : v.FloatFree) (hk : v.KeysDistinct) (hd : 127 < v.depth) :
    Json.readChars (writeValue v) = none := by
  by_contra hne
  obtain ⟨w, hw⟩ := Option.ne_none_iff_exists'.mp hne
  have hfits := fits_of_readChars hw
  rw [Json.readChars_eq_some_iff] at hw
  rw [hw.unique (Json.spells_self v hf hk).padded] at hfits
  exact absurd hfits.depth_le (by omega)

theorem readWrapped?_of_deep (hf : v.FloatFree) (hk : v.KeysDistinct) (hd : 127 < v.depth) :
    readWrapped? (writeValue v) = none := by
  by_contra hne
  obtain ⟨items, hitems⟩ := Option.ne_none_iff_exists'.mp hne
  have hspells := (readWrapped?_eq_some_iff _ items).mp hitems
  -- Between brackets the text spells the list of the value alone, which nests one level deeper.
  have hself := Spells.lastItem Json.spaces_nil (Json.spells_self v hf hk) Json.spaces_nil
  simp only [List.nil_append, List.append_nil] at hself
  have heq : Value.list items = .list [v] :=
    (Spells.list hspells).padded.unique (Spells.list hself).padded
  obtain rfl := Value.list.inj heq
  have hfits := hspells.fits v List.mem_cons_self
  exact absurd hfits.depth_le (by omega)

theorem coerce_write_of_deep (hf : v.FloatFree) (hk : v.KeysDistinct) (hd : 127 < v.depth) :
    coerce (some (Json.write v)) = .text (Json.write v) := by
  have hv : v ≠ .null := by
    rintro rfl
    simp [Value.depth] at hd
  have hnull := isNullWord_writeValue v hf hk hv
  have hliteral : readLiteral? (writeValue v) = none := by
    rw [readLiteral?, readChars_of_deep hf hk hd]
  have hbare := readBareList?_of_uncut (uncut_of_padded (Json.spells_self v hf hk).padded 0)
  have hlist : readList? (writeValue v) = none := by
    rw [readList?, readWrapped?_of_deep hf hk hd, hbare]
  rw [coerce, Json.write, String.toList_ofList, ofChars_of_text hnull hliteral hlist]

/-! ## What was coerced -/

theorem fits_coerce (text : Option String) : (coerce text).Fits 128 := by
  cases text with
  | none => exact Value.fits_bool true 128
  | some text => exact fits_ofChars text.toList

/-- The text of what was coerced is coerced to the same, exactly if it nests at most 127 deep. The
only other depth is 128; then the text comes back as it stands. -/
theorem coerce_coerced (text : Option String) (hf : (coerce text).FloatFree) :
    (coerce (some (Json.write (coerce text))) = coerce text ↔ (coerce text).depth ≤ 127) ∧
    (coerce text).depth ≤ 128 ∧
    ((coerce text).depth = 128 →
      coerce (some (Json.write (coerce text))) = .text (Json.write (coerce text))) := by
  obtain ⟨hdepth, hk⟩ := fits_coerce text
  refine ⟨?_, hdepth, fun hdeep => coerce_write_of_deep hf hk (by omega)⟩
  constructor
  · intro hsame
    by_contra hdeep
    rw [coerce_write_of_deep hf hk (by omega)] at hsame
    rw [← hsame] at hdeep
    simp [Value.depth] at hdeep
  · intro hd
    exact coerce_write (coerce text) hf hk hd

theorem coerce_coerced_words :
    coerce (some (Json.write (coerce (some "dog, [true]")))) = coerce (some "dog, [true]") := by
  have hword : isNullWord "dog, [true]".toList = false := by decide
  have hliteral : readLiteral? "dog, [true]".toList = none := by cbv
  have hlist : readList? "dog, [true]".toList = some [.text "dog", .list [.bool true]] := by cbv
  have hcoerce : coerce (some "dog, [true]") = .list [.text "dog", .list [.bool true]] := by
    rw [coerce, ofChars_of_list hword hliteral hlist]
  have hf : (coerce (some "dog, [true]")).FloatFree := by
    rw [hcoerce]
    simp [Value.FloatFree, Value.parts, Value.itemParts]
  exact (coerce_coerced (some "dog, [true]") hf).1.mpr (by rw [hcoerce]; decide)

/-- A list in a list and so on: there are this many around an empty one. -/
def nested : Nat → Value
  | 0 => .list []
  | n + 1 => .list [nested n]

theorem depth_nested (n : Nat) : (nested n).depth = n + 1 := by
  induction n with
  | zero => rfl
  | succ n ih => simp [nested, Value.depth, Value.itemDepth, ih]

theorem floatFree_nested (n : Nat) : (nested n).FloatFree := by
  induction n with
  | zero => exact Value.floatFree_list (by simp)
  | succ n ih => exact Value.floatFree_list (by simpa using ih)

theorem fits_nested (n : Nat) : (nested n).Fits (n + 1) := by
  induction n with
  | zero => exact Value.fits_list (by simp)
  | succ n ih => exact Value.fits_list (by simpa using ih)

theorem ofChars_word_item {cs : List Char} {v : Value} (h : SpellsPadded 127 cs v) :
    ofChars ('a' :: ',' :: cs) = .list [.text "a", v] := by
  have hnull : isNullWord ('a' :: ',' :: cs) = false := by simp [isNullWord]
  -- No value starts with the word.
  have hvalue : ∀ fuel depth rest, Json.readValue fuel depth ('a' :: rest) = none :=
    fun fuel depth rest => Json.readValue_of_not_isStart fuel depth rfl rest
  have hliteral : readLiteral? ('a' :: ',' :: cs) = none := by
    simp [readLiteral?, Json.readChars, Json.skipSpace_cons 'a' _ rfl, hvalue]
  have hwrapped : readWrapped? ('a' :: ',' :: cs) = none := by
    simp [readWrapped?, Json.readChars, Json.skipSpace_cons '[' _ rfl,
      Json.skipSpace_cons 'a' _ rfl, Json.maxDepth, Json.readValue, Json.readItems, hvalue]
  have hplain : Uncut (.bare 0) ['a'] (.bare 0) := uncut_of_plain (by simp [isPlain]) 0
  have hsplit : splitTopLevel ('a' :: ',' :: cs) = some [['a'], cs] :=
    splitTopLevel_comma hplain (splitTopLevel_of_uncut (uncut_of_padded h 0))
  have hword : readItem? ['a'] = some (.text "a") := by cbv
  have hbare : readBareList? ('a' :: ',' :: cs) = some [.text "a", v] := by
    simp [readBareList?, hsplit, hword, readItem?_of_padded h]
  have hlist : readList? ('a' :: ',' :: cs) = some [.text "a", v] := by
    rw [readList?, hwrapped, hbare]
  exact ofChars_of_list hnull hliteral hlist

theorem coerce_word_write (hf : v.FloatFree) (hk : v.KeysDistinct) (hd : v.depth ≤ 127) :
    coerce (some ("a," ++ Json.write v)) = .list [.text "a", v] := by
  have htext : ("a," ++ Json.write v).toList = 'a' :: ',' :: writeValue v := by
    simp [Json.write]
  rw [coerce, htext, ofChars_word_item ((Json.spells_self v hf hk).mono hd).padded]

/-- The text of such a list is no list to the reader. -/
theorem coerce_coerced_nested :
    (coerce (some ("a," ++ Json.write (nested 126)))).FloatFree ∧
      coerce (some (Json.write (coerce (some ("a," ++ Json.write (nested 126)))))) ≠
        coerce (some ("a," ++ Json.write (nested 126))) := by
  obtain ⟨hd, hk⟩ := fits_nested 126
  have hcoerce := coerce_word_write (floatFree_nested 126) hk hd
  have hf : (Value.list [.text "a", nested 126]).FloatFree := by
    apply Value.floatFree_list
    intro v hv
    rw [List.mem_pair] at hv
    rcases hv with rfl | rfl
    · exact Value.floatFree_text "a"
    · exact floatFree_nested 126
  have hdepth : (Value.list [.text "a", nested 126]).depth = 128 := by
    rw [Value.depth, Value.itemDepth, Value.itemDepth, Value.itemDepth, depth_nested]
    rfl
  have hfits := fits_coerce (some ("a," ++ Json.write (nested 126)))
  rw [hcoerce] at hfits ⊢
  refine ⟨hf, ?_⟩
  rw [coerce_write_of_deep hf hfits.keysDistinct (by omega)]
  simp

end DocAnnotations.Coercion
