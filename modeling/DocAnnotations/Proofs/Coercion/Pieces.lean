import DocAnnotations.Proofs.Coercion.Split
import Mathlib.Data.List.Induction

/-!
# Pieces of a text

Splitting at commas and joining with commas undo each other.
-/

namespace DocAnnotations.Coercion

/-! ## Cutting and joining -/

theorem uncut_of_splitAt {p : Place} {cs : List Char} {pieces : List (List Char)}
    (h : splitAt p cs = some pieces) :
    ∃ first rest, pieces = first :: rest ∧ [','].intercalate pieces = cs ∧
      Uncut p first (.bare 0) ∧ ∀ piece ∈ rest, Uncut (.bare 0) piece (.bare 0) := by
  -- The first piece goes on from the place where the text starts; the others start anew.
  induction cs generalizing p pieces with
  | nil =>
    simp only [splitAt, Option.ite_none_right_eq_some, Option.some.injEq] at h
    obtain ⟨rfl, rfl⟩ := h
    exact ⟨[], [], rfl, rfl, .nil, by simp⟩
  | cons c cs ih =>
    rw [splitAt] at h
    split at h
    · simp at h
    · next q hnext =>
      split at h
      · simp at h
      · next pieces' hsplit =>
        obtain ⟨first, rest, rfl, hjoin, hfirst, hrest⟩ := ih hsplit
        split at h
        · next hcut =>
          obtain ⟨rfl, rfl⟩ := hcut
          obtain rfl : .bare 0 = q := by simpa [Place.next?] using hnext
          obtain rfl := Option.some.inj h
          refine ⟨[], _, rfl, ?_, .nil, List.forall_mem_cons.mpr ⟨hfirst, hrest⟩⟩
          simp [hjoin]
        · next hcut =>
          obtain rfl := Option.some.inj h
          refine ⟨c :: first, rest, rfl, ?_, .cons hnext hcut hfirst, hrest⟩
          cases rest with
          | nil => simpa [consFirst] using hjoin
          | cons piece rest => simpa [consFirst] using hjoin

theorem splitTopLevel_self_iff (piece : List Char) :
    splitTopLevel piece = some [piece] ↔ Uncut (.bare 0) piece (.bare 0) := by
  refine ⟨fun h => ?_, splitTopLevel_of_uncut⟩
  obtain ⟨first, rest, hpieces, -, hfirst, -⟩ := uncut_of_splitAt h
  obtain ⟨rfl, -⟩ := List.cons.inj hpieces
  exact hfirst

theorem splitTopLevel_intercalate {pieces : List (List Char)} (hne : pieces ≠ [])
    (h : ∀ piece ∈ pieces, Uncut (.bare 0) piece (.bare 0)) :
    splitTopLevel ([','].intercalate pieces) = some pieces := by
  induction pieces with
  | nil => exact absurd rfl hne
  | cons piece pieces ih =>
    obtain ⟨hpiece, hpieces⟩ := List.forall_mem_cons.mp h
    cases pieces with
    | nil => simpa using splitTopLevel_of_uncut hpiece
    | cons next pieces =>
      simpa using splitTopLevel_comma hpiece (ih (by simp) hpieces)

/-! ## Brackets -/

/-- The characters of a text outside its strings, and whether a string is open at the end. The flag
says whether one is open at the start. In a string a backslash takes the next character with it. -/
def outside : Bool → List Char → List Char × Bool
  | inside, [] => ([], inside)
  | false, c :: cs =>
    if c = '"' then outside true cs else (c :: (outside false cs).1, (outside false cs).2)
  | true, '\\' :: _ :: cs => outside true cs
  | true, c :: cs => outside (c != '"') cs

def isOpener (c : Char) : Bool := c == '[' || c == '\x7b'

def isCloser (c : Char) : Bool := c == ']' || c == '\x7d'

/-- How many brackets are open after a character. A bracket that closes needs an open one. -/
def openBehind? (d : Nat) (c : Char) : Option Nat :=
  if isOpener c then some (d + 1)
  else if isCloser c then
    match d with
    | 0 => none
    | d + 1 => some d
  else some d

theorem next?_bare (d : Nat) {c : Char} (hc : c ≠ '"') :
    (Place.bare d).next? c = (openBehind? d c).map .bare := by
  simp only [Place.next?, if_neg hc, openBehind?, isOpener, isCloser, Bool.or_eq_true, beq_iff_eq]
  split_ifs
  · rfl
  · cases d <;> rfl
  · rfl

theorem isSome_splitAt_cons (p : Place) (c : Char) (cs : List Char) :
    (splitAt p (c :: cs)).isSome ↔ ∃ q, p.next? c = some q ∧ (splitAt q cs).isSome := by
  rw [splitAt]
  cases hnext : p.next? c with
  | none => simp
  | some q => cases hsplit : splitAt q cs <;> simp [hsplit]

theorem isSome_splitAt_iff (inside : Bool) (cs : List Char) (d : Nat) :
    (splitAt (if inside then .quoted d else .bare d) cs).isSome ↔
      (outside inside cs).2 = false ∧ (outside inside cs).1.foldlM openBehind? d = some 0 := by
  -- The brackets are counted over what stands outside of strings.
  fun_induction outside inside cs generalizing d with
  | case1 inside => cases inside <;> simp [splitAt]
  | case2 cs ih => simpa [isSome_splitAt_cons, Place.next?] using ih d
  | case3 c cs hc ih =>
    simp only [Bool.false_eq_true, if_false] at ih ⊢
    rw [isSome_splitAt_cons, next?_bare d hc, List.foldlM_cons]
    cases hopen : openBehind? d c with
    | none => simp
    | some e => simpa using ih e
  | case4 c cs ih => simpa [isSome_splitAt_cons, Place.next?] using ih d
  | case5 c cs hc ih =>
    rw [if_pos rfl, isSome_splitAt_cons]
    by_cases hslash : c = '\\'
    · obtain rfl : cs = [] := by
        cases cs with
        | nil => rfl
        | cons e cs => exact absurd rfl (hc e cs hslash)
      simp [hslash, Place.next?, splitAt, outside]
    · have := ih d
      by_cases hquote : c = '"' <;> simpa [Place.next?, hslash, hquote] using this

theorem isCloser_of_isOpener {c : Char} (h : isOpener c = true) : isCloser c = false := by
  simp only [isOpener, Bool.or_eq_true, beq_iff_eq] at h
  rcases h with rfl | rfl <;> rfl

theorem openBehind?_eq_none_iff (d : Nat) (c : Char) :
    openBehind? d c = none ↔ isCloser c = true ∧ d = 0 := by
  unfold openBehind?
  split_ifs with hopen hclose
  · simp [isCloser_of_isOpener hopen]
  · cases d <;> simp [hclose]
  · simp [hclose]

theorem count_of_foldlM {d e : Nat} {cs : List Char} (h : cs.foldlM openBehind? d = some e) :
    d + cs.countP isOpener = e + cs.countP isCloser := by
  induction cs generalizing d with
  | nil => simpa using h
  | cons c cs ih =>
    obtain ⟨d', hd, h⟩ := Option.bind_eq_some_iff.mp h
    have hrest := ih h
    unfold openBehind? at hd
    split_ifs at hd with hopen hclose
    · obtain rfl := Option.some.inj hd
      simp only [List.countP_cons, hopen, isCloser_of_isOpener hopen, if_true, Bool.false_eq_true,
        if_false]
      omega
    · cases d with
      | zero => simp at hd
      | succ d =>
        obtain rfl := Option.some.inj hd
        simp only [List.countP_cons, hopen, hclose, if_true, Bool.false_eq_true, if_false]
        omega
    · obtain rfl := Option.some.inj hd
      simpa [List.countP_cons, hopen, hclose] using hrest

/-- Every bracket that closes finds one that is open. -/
def EachCloses (d : Nat) (cs : List Char) : Prop :=
  ∀ before c after, cs = before ++ c :: after → isCloser c = true →
    before.countP isCloser < d + before.countP isOpener

theorem eachCloses_concat (d : Nat) (cs : List Char) (c : Char) :
    EachCloses d (cs ++ [c]) ↔
      EachCloses d cs ∧ (isCloser c = true → cs.countP isCloser < d + cs.countP isOpener) := by
  constructor
  · intro h
    refine ⟨fun before x after heq => h before x (after ++ [c]) (by simp [heq]), h cs c [] rfl⟩
  · rintro ⟨hbefore, hlast⟩ before x after heq hx
    rcases List.eq_nil_or_concat after with rfl | ⟨after, y, rfl⟩
    · obtain ⟨rfl, hend⟩ := List.append_inj' heq rfl
      obtain ⟨rfl, -⟩ := List.cons.inj hend
      exact hlast hx
    · rw [List.concat_eq_append, ← List.cons_append, ← List.append_assoc] at heq
      exact hbefore before x after (List.append_inj' heq rfl).1 hx

theorem exists_foldlM_iff (d : Nat) (cs : List Char) :
    (∃ e, cs.foldlM openBehind? d = some e) ↔ EachCloses d cs := by
  induction cs using List.reverseRecOn with
  | nil => simp [EachCloses]
  | append_singleton cs c ih =>
    rw [eachCloses_concat, ← ih]
    simp only [List.foldlM_append, List.foldlM_cons, List.foldlM_nil, bind_pure]
    cases h : cs.foldlM openBehind? d with
    | none => simp
    | some e =>
      have hcount := count_of_foldlM h
      have hstep := openBehind?_eq_none_iff e c
      simp only [Option.bind_eq_bind, Option.bind_some, Option.some.injEq, exists_eq', true_and]
      rw [← Option.isSome_iff_exists, Option.isSome_iff_ne_none, ne_eq, hstep]
      constructor
      · intro hne hc
        have : e ≠ 0 := fun he => hne ⟨hc, he⟩
        omega
      · rintro hlt ⟨hc, rfl⟩
        have := hlt hc
        omega

/-- Read from the left with its strings passed over, the text has a bracket that closes nothing, or
a bracket or a string is left open. -/
def Unbalanced (cs : List Char) : Prop :=
  (∃ before c after, (outside false cs).1 = before ++ c :: after ∧ isCloser c = true ∧
    before.countP isOpener ≤ before.countP isCloser) ∨
  (outside false cs).1.countP isCloser < (outside false cs).1.countP isOpener ∨
  (outside false cs).2 = true

theorem splitTopLevel_eq_none_iff (cs : List Char) :
    splitTopLevel cs = none ↔ Unbalanced cs := by
  have hsome := isSome_splitAt_iff false cs 0
  rw [← not_iff_not, ← ne_eq, ← Option.isSome_iff_ne_none, splitTopLevel]
  refine hsome.trans ?_
  have hcount := exists_foldlM_iff 0 (outside false cs).1
  simp only [Unbalanced, not_or, not_exists, not_and, Nat.not_le, Nat.not_lt, Bool.not_eq_true]
  constructor
  · rintro ⟨hclosed, hfold⟩
    have heach := hcount.mp ⟨0, hfold⟩
    have := count_of_foldlM hfold
    refine ⟨fun before c after heq hc => ?_, by omega, hclosed⟩
    have := heach before c after heq hc
    omega
  · rintro ⟨heach, hle, hclosed⟩
    have heach' : EachCloses 0 (outside false cs).1 := by
      intro before c after heq hc
      have := heach before c after heq hc
      omega
    obtain ⟨e, he⟩ := hcount.mpr heach'
    have := count_of_foldlM he
    obtain rfl : e = 0 := by omega
    exact ⟨hclosed, he⟩

/-! ## Bounds -/

/-- The same split in one pass over the bytes: where each piece starts and where it ends. -/
def boundsFrom (p : Place) (start here : Nat) : List Char → Option (List (Nat × Nat))
  | [] => if p = .bare 0 then some [(start, here)] else none
  | c :: cs =>
    match p.next? c with
    | none => none
    | some q =>
      if p = .bare 0 ∧ c = ',' then
        (boundsFrom q (here + 1) (here + c.utf8Size) cs).map ((start, here) :: ·)
      else boundsFrom q start (here + c.utf8Size) cs

/-- Both bounds lie between two characters, and the bytes between them are those of the piece. -/
structure Slices (text : String) (bounds : Nat × Nat) (piece : List Char) : Prop where
  start : String.Pos.Raw.IsValid text ⟨bounds.1⟩
  stop : String.Pos.Raw.IsValid text ⟨bounds.2⟩
  bytes : text.toUTF8.extract bounds.1 bounds.2 = (String.ofList piece).toUTF8

def byteCount (cs : List Char) : Nat := (String.ofList cs).utf8ByteSize

theorem byteCount_append (cs ds : List Char) :
    byteCount (cs ++ ds) = byteCount cs + byteCount ds := by
  simp [byteCount, String.ofList_append, String.utf8ByteSize_append]

theorem byteCount_singleton (c : Char) : byteCount [c] = c.utf8Size := by
  simp [byteCount]

theorem isValid_byteCount (before after : List Char) :
    String.Pos.Raw.IsValid (String.ofList (before ++ after)) ⟨byteCount before⟩ :=
  String.Pos.Raw.isValid_iff_exists_append.mpr
    ⟨String.ofList before, String.ofList after, String.ofList_append, rfl⟩

theorem slices_append (before piece after : List Char) :
    Slices (String.ofList (before ++ (piece ++ after)))
      (byteCount before, byteCount (before ++ piece)) piece where
  start := isValid_byteCount before _
  stop := by
    rw [← List.append_assoc]
    exact isValid_byteCount (before ++ piece) after
  bytes := by
    have hsize : ∀ cs, byteCount cs = (String.ofList cs).toByteArray.size := fun cs => rfl
    simp only [String.toUTF8_eq_toByteArray, String.ofList_append, String.toByteArray_append]
    rw [byteCount_append, hsize before, hsize piece]
    exact (ByteArray.extract_append_size_add (i := 0)).trans
      (ByteArray.extract_append_eq_left rfl)

theorem boundsFrom_eq_none {p : Place} {cs : List Char} (h : splitAt p cs = none)
    (start here : Nat) : boundsFrom p start here cs = none := by
  induction cs generalizing p start here with
  | nil =>
    simp only [splitAt] at h
    split_ifs at h with hp
    simp [boundsFrom, hp]
  | cons c cs ih =>
    rw [splitAt] at h
    rw [boundsFrom]
    cases hnext : p.next? c with
    | none => rfl
    | some q =>
      simp only [hnext] at h
      have hq : splitAt q cs = none := by
        cases hsplit : splitAt q cs with
        | none => rfl
        | some pieces => simp [hsplit] at h
      simp [ih hq]

/-- The pieces stand between the bounds. The piece at hand started with what was read since the last
comma. -/
theorem slices_boundsFrom {p : Place} {cs first : List Char} {rest : List (List Char)}
    (h : splitAt p cs = some (first :: rest)) (before read : List Char) :
    ∃ bounds, boundsFrom p (byteCount before) (byteCount (before ++ read)) cs = some bounds ∧
      List.Forall₂ (Slices (String.ofList (before ++ (read ++ cs)))) bounds
        ((read ++ first) :: rest) := by
  -- `before` ends where the piece at hand starts, and `read` is what has been read of it.
  induction cs generalizing p first rest before read with
  | nil =>
    simp only [splitAt, Option.ite_none_right_eq_some, Option.some.injEq, List.cons.injEq] at h
    obtain ⟨rfl, rfl, rfl⟩ := h
    exact ⟨_, rfl, .cons (by simpa using slices_append before read []) .nil⟩
  | cons c cs ih =>
    cases hnext : p.next? c with
    | none => simp [splitAt, hnext] at h
    | some q =>
    cases hsplit : splitAt q cs with
    | none => simp [splitAt, hnext, hsplit] at h
    | some pieces =>
    obtain ⟨first', rest', rfl, -⟩ := uncut_of_splitAt hsplit
    simp only [splitAt, hnext, hsplit] at h
    simp only [boundsFrom, hnext]
    split at h
    · next hcut =>
      rw [if_pos hcut]
      obtain ⟨rfl, rfl⟩ := hcut
      obtain ⟨rfl, rfl⟩ := List.cons.inj (Option.some.inj h)
      have hcomma : byteCount (before ++ read) + 1 = byteCount (before ++ (read ++ [','])) := by
        rw [← List.append_assoc, byteCount_append _ [','], byteCount_singleton]
        rfl
      obtain ⟨bounds, hbounds, hslices⟩ := ih hsplit (before ++ (read ++ [','])) []
      have hsize : ','.utf8Size = 1 := rfl
      rw [hsize, hcomma]
      simp only [List.append_nil] at hbounds
      refine ⟨_ :: bounds, by rw [hbounds]; rfl, ?_⟩
      simp only [List.append_nil, List.append_assoc, List.nil_append, List.singleton_append]
        at hslices ⊢
      exact .cons (slices_append before read (',' :: cs)) hslices
    · next hcut =>
      rw [if_neg hcut]
      obtain ⟨rfl, rfl⟩ := List.cons.inj (Option.some.inj h)
      obtain ⟨bounds, hbounds, hslices⟩ := ih hsplit before (read ++ [c])
      rw [← byteCount_singleton, ← byteCount_append, List.append_assoc]
      exact ⟨bounds, hbounds, by simpa using hslices⟩

/-! ## The whole text -/

/-- Splitting and joining with commas undo each other: a text is cut into one or more pieces that
are not cut any further, and no other such pieces join to it. It is not cut at all if a bracket or a
string in it is not balanced. In one pass over the bytes the same pieces are found, between bounds
that cut no character. -/
theorem pieces_unique (text : String) :
    (∀ pieces, splitTopLevel text.toList = some pieces →
      pieces ≠ [] ∧ [','].intercalate pieces = text.toList ∧
        ∀ piece ∈ pieces, splitTopLevel piece = some [piece]) ∧
    (∀ pieces, pieces ≠ [] → (∀ piece ∈ pieces, splitTopLevel piece = some [piece]) →
      splitTopLevel ([','].intercalate pieces) = some pieces) ∧
    (splitTopLevel text.toList = none ↔ Unbalanced text.toList) ∧
    (splitTopLevel text.toList = none → boundsFrom (.bare 0) 0 0 text.toList = none) ∧
    (∀ pieces, splitTopLevel text.toList = some pieces →
      ∃ bounds, boundsFrom (.bare 0) 0 0 text.toList = some bounds ∧
        List.Forall₂ (Slices text) bounds pieces) := by
  refine ⟨?_, ?_, splitTopLevel_eq_none_iff _, fun h => boundsFrom_eq_none h 0 0, ?_⟩
  · intro pieces h
    obtain ⟨first, rest, rfl, hjoin, hfirst, hrest⟩ := uncut_of_splitAt h
    simp only [splitTopLevel_self_iff]
    exact ⟨by simp, hjoin, List.forall_mem_cons.mpr ⟨hfirst, hrest⟩⟩
  · intro pieces hne h
    simp only [splitTopLevel_self_iff] at h
    exact splitTopLevel_intercalate hne h
  · intro pieces h
    obtain ⟨first, rest, rfl, -⟩ := uncut_of_splitAt h
    have hstart : byteCount [] = 0 := rfl
    simpa [hstart] using slices_boundsFrom h [] []

theorem pieces_unique_nested :
    let pieces := ["é".toList, "[1,\",]\"]".toList, []]
    splitTopLevel "é,[1,\",]\"],".toList = some pieces ∧
    (∀ piece ∈ pieces, splitTopLevel piece = some [piece]) ∧
    splitTopLevel ([','].intercalate pieces) = some pieces ∧
    List.Forall₂ (Slices "é,[1,\",]\"],") [(0, 2), (3, 11), (12, 12)] pieces := by
  intro pieces
  obtain ⟨hcut, hjoined, -, -, hbounds⟩ := pieces_unique "é,[1,\",]\"],"
  have hsplit : splitTopLevel "é,[1,\",]\"],".toList = some pieces := by decide
  obtain ⟨hne, -, hpieces⟩ := hcut pieces hsplit
  obtain ⟨bounds, hbounds, hslices⟩ := hbounds pieces hsplit
  have hpass : boundsFrom (.bare 0) 0 0 "é,[1,\",]\"],".toList =
      some [(0, 2), (3, 11), (12, 12)] := by decide
  obtain rfl : bounds = _ := Option.some.inj (hbounds.symm.trans hpass)
  exact ⟨hsplit, hpieces, hjoined pieces hne hpieces, hslices⟩

end DocAnnotations.Coercion
