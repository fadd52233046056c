import DocAnnotations.Proofs.Coercion.Lists
import DocAnnotations.Proofs.Coercion.Pieces
import DocAnnotations.Proofs.Coercion.Scalars
import DocAnnotations.Proofs.Value.Members

/-!
# Maps in coerced texts

Every map inside a value comes from an object that stands in the text.
-/

namespace DocAnnotations.Coercion

open Json (Phrase Spells maxDepth)

/-- An object stands in the text, and the entries are what its members leave. -/
def HoldsObject (cs : List Char) (entries : List (String × Value)) : Prop :=
  ∃ body members, ('\x7b' :: (body ++ ['\x7d'])) <:+: cs ∧ Spells maxDepth body (.members members) ∧
    Value.ofMembers members = .map entries

theorem HoldsObject.mono {cs ds : List Char} {entries : List (String × Value)}
    (h : HoldsObject cs entries) (hpart : cs <:+: ds) : HoldsObject ds entries := by
  obtain ⟨body, members, hobject, hspells, heq⟩ := h
  exact ⟨body, members, hobject.trans hpart, hspells, heq⟩

/-! ## Spelled phrases -/

/-- The values of a phrase and all that stands inside them. -/
def phraseParts : Phrase → List Value
  | .value v => v.parts
  | .items vs => Value.itemParts vs
  | .members ms => Value.entryParts ms

theorem mem_parts_ofMembers {members entries : List (String × Value)}
    (h : .map entries ∈ (Value.ofMembers members).parts) :
    Value.ofMembers members = .map entries ∨ .map entries ∈ Value.entryParts members := by
  obtain ⟨kept, heq, -, hsub⟩ := Value.ofMembers_eq members
  rw [heq, Value.parts, List.mem_cons, Value.mem_entryParts] at h
  rcases h with hself | ⟨e, he, hinside⟩
  · exact .inl (heq.trans hself.symm)
  · exact .inr ((Value.mem_entryParts _ _).mpr ⟨e, hsub he, hinside⟩)

theorem holdsObject_of_spells {depth : Nat} {cs : List Char} {x : Phrase} (h : Spells depth cs x)
    (hdepth : depth ≤ maxDepth) {entries : List (String × Value)}
    (hmem : .map entries ∈ phraseParts x) : HoldsObject cs entries := by
  induction h with
  | null | yes | no | text => simp [phraseParts, Value.parts] at hmem
  | number _ hv =>
    obtain ⟨i, rfl⟩ | ⟨y, rfl⟩ := Json.number_of_value? hv <;>
      simp [phraseParts, Value.parts] at hmem
  | noItems | noMembers => simp [phraseParts, Value.itemParts, Value.entryParts] at hmem
  | @list _ cs _ _ ih =>
    have hinside := ih (by omega) (by simpa [phraseParts, Value.parts] using hmem)
    exact hinside.mono ⟨['['], [']'], by simp⟩
  | @map _ cs members h ih =>
    -- The map is the one of these members, or stands in the value of one of them.
    rcases mem_parts_ofMembers hmem with hself | hinside
    · exact ⟨cs, members, List.infix_rfl, h.mono (by omega), hself⟩
    · exact (ih (by omega) hinside).mono ⟨['\x7b'], ['\x7d'], by simp⟩
  | @lastItem _ before _ after _ _ _ _ ih =>
    have hinside := ih hdepth (by simpa [phraseParts, Value.itemParts] using hmem)
    exact hinside.mono ⟨before, after, by simp⟩
  | @nextItem _ before cs after rest _ _ _ _ _ _ _ ih ihrest =>
    rcases List.mem_append.mp hmem with hmem | hmem
    · exact (ih hdepth hmem).mono ⟨before, after ++ ',' :: rest, by simp⟩
    · exact (ihrest hdepth hmem).mono ⟨before ++ (cs ++ (after ++ [','])), [], by simp⟩
  | @lastMember _ text before _ after _ _ _ _ _ _ ih =>
    have hinside := ih hdepth (by simpa [phraseParts, Value.entryParts] using hmem)
    exact hinside.mono ⟨text ++ before, after, by simp⟩
  | @nextMember _ text before cs after rest _ _ _ _ _ _ _ _ _ ih ihrest =>
    rcases List.mem_append.mp hmem with hmem | hmem
    · exact (ih hdepth hmem).mono ⟨text ++ before, after ++ ',' :: rest, by simp⟩
    · exact (ihrest hdepth hmem).mono ⟨text ++ (before ++ (cs ++ (after ++ [',']))), [], by simp⟩

theorem holdsObject_of_read {cs : List Char} {v : Value} (h : Json.readChars cs = some v)
    {entries : List (String × Value)} (hmem : .map entries ∈ v.parts) : HoldsObject cs entries := by
  obtain ⟨before, text, after, -, -, rfl, hspells⟩ := (Json.readChars_eq_some_iff cs v).mp h
  exact (holdsObject_of_spells hspells (Nat.le_refl _) hmem).mono ⟨before, after, by simp⟩

/-! ## Lists -/

theorem infix_intercalate (sep : List Char) {piece : List Char} {pieces : List (List Char)}
    (h : piece ∈ pieces) : piece <:+: sep.intercalate pieces := by
  induction pieces with
  | nil => exact absurd h List.not_mem_nil
  | cons first pieces ih =>
    cases pieces with
    | nil =>
      obtain rfl := List.mem_singleton.mp h
      simp
    | cons second pieces =>
      rw [List.intercalate_cons_cons]
      rcases List.mem_cons.mp h with rfl | h
      · exact ⟨[], sep ++ sep.intercalate (second :: pieces), by simp⟩
      · exact (ih h).trans (List.suffix_append _ _).isInfix

theorem exists_piece_of_readBareList? {cs : List Char} {items : List Value}
    (h : readBareList? cs = some items) {v : Value} (hv : v ∈ items) :
    ∃ piece, piece <:+: cs ∧ readItem? piece = some v := by
  unfold readBareList? at h
  split at h
  · next first second rest hsplit =>
    obtain ⟨_, _, -, hjoin, -⟩ := uncut_of_splitAt hsplit
    have hall := (mapM_readItem?_iff _ items).mp h
    obtain ⟨i, hi, rfl⟩ := List.mem_iff_getElem.mp hv
    have hi' : i < (first :: second :: rest).length := hall.length_eq ▸ hi
    exact ⟨_, hjoin ▸ infix_intercalate [','] (List.getElem_mem hi'), hall.get hi' hi⟩
  · simp at h

theorem holdsObject_of_readItem? {piece : List Char} {v : Value} (h : readItem? piece = some v)
    {entries : List (String × Value)} (hmem : .map entries ∈ v.parts) :
    HoldsObject piece entries := by
  obtain ⟨before, after, -, -, -, heq⟩ := Text.exists_trimmed Text.isBlank piece
  unfold readItem? at h
  simp only at h
  split at h
  · next w hread =>
    obtain rfl := Option.some.inj h
    have hpart : Text.trimBlank piece <:+: piece :=
      ⟨before, after, by simpa [Text.trimBlank] using heq.symm⟩
    exact (holdsObject_of_read hread hmem).mono hpart
  · simp only [Option.ite_none_right_eq_some, Option.some.injEq] at h
    simp [← h.2, Value.parts] at hmem

theorem holdsObject_of_readList? {cs : List Char} {items : List Value}
    (h : readList? cs = some items) {entries : List (String × Value)}
    (hmem : .map entries ∈ Value.itemParts items) : HoldsObject cs entries := by
  unfold readList? at h
  split at h
  · next items' hwrapped =>
    obtain rfl := Option.some.inj h
    have hspells := (readWrapped?_eq_some_iff cs items').mp hwrapped
    exact holdsObject_of_spells hspells (by decide) hmem
  · obtain ⟨v, hv, hinside⟩ := (Value.mem_itemParts _ _).mp hmem
    obtain ⟨piece, hpiece, hread⟩ := exists_piece_of_readBareList? h hv
    exact (holdsObject_of_readItem? hread hinside).mono hpiece

/-! ## One key, spelled in two ways -/

theorem spells_repeated (depth : Nat) :
    Spells depth "\"k\":true,\"n\":null,\"\\u006b\":false".toList
      (.members [("k", .bool true), ("n", .null), ("k", .bool false)]) := by
  have hplain {c : Char} (h : c = 'k' ∨ c = 'n') : Json.SpellsChars [c] [c] := by
    rcases h with rfl | rfl <;> exact .plain (by decide) (by decide) (by decide) .nil
  have hcode : Json.SpellsChars "\\u006b".toList ['k'] :=
    .code (n := 0x6b) (by decide) (by decide) (by decide) .nil
  have hkey (key : String) {body : List Char} (h : Json.SpellsChars body key.toList) :
      Json.SpellsKey ('"' :: (body ++ ['"', ':'])) key :=
    ⟨[], '"' :: (body ++ ['"']), [], Json.spaces_nil, ⟨body, rfl, h⟩, Json.spaces_nil, by simp⟩
  have hlast := Spells.lastMember (hkey "k" hcode) Json.spaces_nil (@Spells.no depth)
    Json.spaces_nil
  have hmiddle := Spells.nextMember (hkey "n" (hplain (.inr rfl))) Json.spaces_nil .null
    Json.spaces_nil hlast
  exact .nextMember (hkey "k" (hplain (.inl rfl))) Json.spaces_nil .yes Json.spaces_nil hmiddle

theorem coerce_repeated :
    coerce (some "x,[\x7b\"k\":true,\"n\":null,\"\\u006b\":false\x7d]") =
      .list [.text "x", .list [.map [("k", .bool false), ("n", .null)]]] := by
  have hmap : Value.ofMembers [("k", .bool true), ("n", .null), ("k", .bool false)] =
      .map [("k", .bool false), ("n", .null)] := by
    simp [Value.ofMembers, Value.putEntry]
  have hword : readItem? ['x'] = some (.text "x") := by cbv
  have hobject : readItem? "[\x7b\"k\":true,\"n\":null,\"\\u006b\":false\x7d]".toList =
      some (.list [.map [("k", .bool false), ("n", .null)]]) := by
    have hlist := Spells.list
      (.lastItem Json.spaces_nil (.map (spells_repeated 125)) Json.spaces_nil)
    rw [← hmap]
    exact readItem?_of_padded hlist.padded
  have hitems := (mapM_readItem?_iff _ _).mpr (.cons hword (.cons hobject .nil))
  have hlist : readList? "x,[\x7b\"k\":true,\"n\":null,\"\\u006b\":false\x7d]".toList =
      some [.text "x", .list [.map [("k", .bool false), ("n", .null)]]] :=
    (readList?_of_cut (by decide) (by decide)).trans hitems
  rw [coerce, ofChars_of_list (by decide) (by cbv) hlist]

/-! ## The rules -/

theorem holdsObject_ofChars {cs : List Char} {entries : List (String × Value)}
    (hmem : .map entries ∈ (ofChars cs).parts) : HoldsObject cs entries := by
  unfold ofChars at hmem
  split at hmem
  · simp [Value.parts] at hmem
  split at hmem
  · next v hliteral =>
    exact holdsObject_of_read ((readLiteral?_eq_some_iff cs v).mp hliteral).1 hmem
  split at hmem
  · next items hlist =>
    exact holdsObject_of_readList? hlist (by simpa [Value.parts] using hmem)
  · simp [Value.parts] at hmem

/-- Every map in the value of a text merges the members of an object that stands in the text: each
key is there once, in the order of the text, with the value of the last member that has it. -/
theorem maps_merge_members (text : String) (entries : List (String × Value))
    (h : .map entries ∈ (coerce (some text)).parts) :
    ∃ body members, ('\x7b' :: (body ++ ['\x7d'])) <:+: text.toList ∧
      Spells maxDepth body (.members members) ∧ Value.Merges members entries := by
  obtain ⟨body, members, hobject, hspells, heq⟩ := holdsObject_ofChars h
  exact ⟨body, members, hobject, hspells, Value.merges_ofMembers heq⟩

theorem maps_merge_members_nested :
    ∃ body members, ('\x7b' :: (body ++ ['\x7d'])) <:+:
        "x,[\x7b\"k\":true,\"n\":null,\"\\u006b\":false\x7d]".toList ∧
      Spells maxDepth body (.members members) ∧
      Value.Merges members [("k", .bool false), ("n", .null)] := by
  apply maps_merge_members
  rw [coerce_repeated]
  simp [Value.parts, Value.itemParts, Value.entryParts]

end DocAnnotations.Coercion
