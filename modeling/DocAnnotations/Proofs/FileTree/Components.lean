import DocAnnotations.Proofs.FileTree.Walk
import DocAnnotations.Proofs.Text.Cut

/-! # Components and extensions -/

namespace DocAnnotations.Path

/-- Nothing, or a text up to a slash. -/
def EndsPart (before : List Char) : Prop := before = [] ∨ before.getLast? = some '/'

/-- Nothing, or a text from a slash on. -/
def StartsPart (after : List Char) : Prop := after = [] ∨ after.head? = some '/'

/-- A component of a path: what stands between two slashes, or the slash at the start. A single dot
is one only at the start. -/
def IsComponent (path name : String) : Prop :=
  (name = "/" ∧ path.toList.head? = some '/') ∨
    (name ≠ "" ∧ '/' ∉ name.toList ∧ ∃ before after, path.toList = before ++ name.toList ++ after ∧
      EndsPart before ∧ StartsPart after ∧ (name = "." → before = []))

/-- What stands behind the last slash has the extension: a dot, behind something, and no dot after
it. -/
def HasExtension (path ext : String) : Prop :=
  ∃ folder stem, path.toList = folder ++ (stem ++ '.' :: ext.toList) ∧ EndsPart folder ∧
    '/' ∉ stem ++ ext.toList ∧ stem ≠ [] ∧ '.' ∉ ext.toList

/-- The path of what is reached from a path through some names. -/
def below (root : String) : List String → String
  | [] => root
  | names => join root (String.ofList (['/'].intercalate (names.map String.toList)))

/-! ## Between the slashes -/

theorem split_of_not_mem {cs : List Char} (h : '/' ∉ cs) : split cs = [cs] :=
  List.splitOn_eq_singleton h

theorem split_slash (cs ds : List Char) : split (cs ++ '/' :: ds) = split cs ++ split ds :=
  List.splitOn_append_cons_self cs ds

theorem exists_split (cs : List Char) : ∃ first rest, split cs = first :: rest :=
  List.exists_cons_of_ne_nil fun h => List.splitOn_ne_nil _ _ h

theorem split_cases (cs : List Char) :
    ('/' ∉ cs ∧ split cs = [cs]) ∨
      ∃ first tail, cs = first ++ '/' :: tail ∧ '/' ∉ first ∧ split cs = first :: split tail := by
  by_cases h : '/' ∈ cs
  · obtain ⟨first, tail, rfl, hfirst⟩ := List.eq_append_cons_of_mem h
    refine .inr ⟨first, tail, rfl, hfirst, ?_⟩
    rw [split_slash, split_of_not_mem hfirst]
    rfl
  · exact .inl ⟨h, split_of_not_mem h⟩

theorem split_part {part after : List Char} (h : '/' ∉ part) (hafter : StartsPart after) :
    ∃ rest, split (part ++ after) = part :: rest := by
  rcases hafter with rfl | hslash
  · exact ⟨[], by rw [List.append_nil, split_of_not_mem h]⟩
  · obtain ⟨after, rfl⟩ := List.head?_eq_some_iff.mp hslash
    exact ⟨split after, by rw [split_slash, split_of_not_mem h]; rfl⟩

theorem EndsPart.getLast? {before : List Char} (h : EndsPart before) (first : List Char) :
    (first ++ '/' :: before).getLast? = some '/' := by
  rcases h with rfl | hlast
  · simp
  · obtain ⟨before, rfl⟩ := List.getLast?_eq_some_iff.mp hlast
    rw [← List.cons_append, ← List.append_assoc, List.getLast?_concat]

theorem head?_split_iff (cs part : List Char) :
    (split cs).head? = some part ↔
      '/' ∉ part ∧ ∃ after, cs = part ++ after ∧ StartsPart after := by
  constructor
  · intro h
    obtain ⟨hcs, hsplit⟩ | ⟨first, tail, rfl, hfirst, hsplit⟩ := split_cases cs
    · rw [hsplit, List.head?_cons, Option.some.injEq] at h
      subst h
      exact ⟨hcs, [], by simp, .inl rfl⟩
    · rw [hsplit, List.head?_cons, Option.some.injEq] at h
      subst h
      exact ⟨hfirst, '/' :: tail, rfl, .inr rfl⟩
  · rintro ⟨hpart, after, rfl, hafter⟩
    obtain ⟨rest, hsplit⟩ := split_part hpart hafter
    rw [hsplit, List.head?_cons]

theorem mem_split_of_part {before part after : List Char} (hpart : '/' ∉ part)
    (hbefore : before.getLast? = some '/') (hafter : StartsPart after) :
    part ∈ (split (before ++ part ++ after)).tail := by
  obtain ⟨rest, hsplit⟩ := split_part hpart hafter
  obtain ⟨before, rfl⟩ := List.getLast?_eq_some_iff.mp hbefore
  obtain ⟨first, parts, hfirst⟩ := exists_split before
  rw [List.append_assoc, List.append_assoc, List.singleton_append, split_slash, hsplit, hfirst]
  simp

theorem exists_part_of_mem_split {cs part : List Char} (h : part ∈ split cs) :
    '/' ∉ part ∧ ∃ before after, cs = before ++ part ++ after ∧ EndsPart before ∧
      StartsPart after := by
  induction hn : cs.length using Nat.strongRecOn generalizing cs with
  | ind n ih =>
    obtain ⟨hcs, hsplit⟩ | ⟨first, tail, rfl, hfirst, hsplit⟩ := split_cases cs
    · rw [hsplit, List.mem_singleton] at h
      subst h
      exact ⟨hcs, [], [], by simp, .inl rfl, .inl rfl⟩
    · rw [hsplit, List.mem_cons] at h
      rcases h with rfl | h
      · exact ⟨hfirst, [], '/' :: tail, rfl, .inl rfl, .inr rfl⟩
      · have htail : tail.length < n := by simp [← hn]; omega
        obtain ⟨hpart, before, after, rfl, hbefore, hafter⟩ := ih _ htail h rfl
        exact ⟨hpart, first ++ '/' :: before, after, by simp, .inr (hbefore.getLast? first), hafter⟩

theorem mem_tail_split_iff (cs part : List Char) :
    part ∈ (split cs).tail ↔ '/' ∉ part ∧ ∃ before after, cs = before ++ part ++ after ∧
      before.getLast? = some '/' ∧ StartsPart after := by
  constructor
  · intro h
    obtain ⟨hcs, hsplit⟩ | ⟨first, tail, rfl, hfirst, hsplit⟩ := split_cases cs
    · simp [hsplit] at h
    · rw [hsplit, List.tail_cons] at h
      obtain ⟨hpart, before, after, rfl, hbefore, hafter⟩ := exists_part_of_mem_split h
      exact ⟨hpart, first ++ '/' :: before, after, by simp, hbefore.getLast? first, hafter⟩
  · rintro ⟨hpart, before, after, rfl, hbefore, hafter⟩
    exact mem_split_of_part hpart hbefore hafter

/-! ## Components -/

theorem mem_map_ofList (parts : List (List Char)) (s : String) :
    s ∈ parts.map String.ofList ↔ s.toList ∈ parts := by
  rw [List.mem_map]
  constructor
  · rintro ⟨part, hpart, rfl⟩
    rwa [String.toList_ofList]
  · intro h
    exact ⟨s.toList, h, String.ofList_toList⟩

theorem mem_components_of_split {path name : String} {first : List Char} {rest : List (List Char)}
    (h : split path.toList = first :: rest) :
    name ∈ components path ↔ (name.toList = ['/'] ∧ first = [] ∧ rest ≠ []) ∨
      (name.toList = first ∧ first ≠ []) ∨ (name.toList ∈ rest ∧ isStay name.toList = false) := by
  simp only [components, h, mem_map_ofList, List.mem_append, List.mem_filter, Bool.not_eq_true',
    ← or_assoc]
  apply or_congr_left
  by_cases hfirst : first = []
  · cases rest <;> simp [hfirst]
  · simp [hfirst]

theorem head?_eq_slash_iff {cs first : List Char} {rest : List (List Char)}
    (h : split cs = first :: rest) : cs.head? = some '/' ↔ first = [] ∧ rest ≠ [] := by
  obtain ⟨hcs, hsplit⟩ | ⟨first', tail, rfl, hfirst, hsplit⟩ := split_cases cs
  · rw [hsplit, List.cons.injEq] at h
    obtain ⟨rfl, rfl⟩ := h
    simp only [ne_eq, not_true_eq_false, and_false, iff_false]
    exact fun hhead => hcs (List.mem_of_mem_head? hhead)
  · rw [hsplit, List.cons.injEq] at h
    obtain ⟨rfl, rfl⟩ := h
    obtain ⟨part, parts, hparts⟩ := exists_split tail
    cases first' with
    | nil => simp [hparts]
    | cons c first =>
      have hc : c ≠ '/' := by
        rintro rfl
        exact hfirst List.mem_cons_self
      simp [hc]

theorem isStay_eq_false_iff (name : String) :
    isStay name.toList = false ↔ name ≠ "" ∧ name ≠ "." := by
  have hdot : name.toList = ['.'] ↔ name = "." := by
    rw [← String.toList_inj]
    rfl
  simp [isStay, hdot]

theorem mem_components_iff (path name : String) :
    name ∈ components path ↔ IsComponent path name := by
  obtain ⟨first, rest, hsplit⟩ := exists_split path.toList
  have hslash : name.toList = ['/'] ↔ name = "/" := by
    rw [← String.toList_inj]
    rfl
  have hfirst : name.toList = first ↔ '/' ∉ name.toList ∧
      ∃ after, path.toList = name.toList ++ after ∧ StartsPart after := by
    rw [← head?_split_iff, hsplit]
    simp [eq_comm]
  have hrest := mem_tail_split_iff path.toList name.toList
  rw [hsplit, List.tail_cons] at hrest
  rw [mem_components_of_split hsplit, hslash, ← head?_eq_slash_iff hsplit, hrest,
    isStay_eq_false_iff, IsComponent]
  apply or_congr_right
  constructor
  · rintro (⟨hname, hne⟩ | ⟨⟨hname, before, after, hpath, hbefore, hafter⟩, hne, hdot⟩)
    · obtain ⟨hpart, after, hpath, hafter⟩ := hfirst.mp hname
      refine ⟨?_, hpart, [], after, hpath, .inl rfl, hafter, fun _ => rfl⟩
      rintro rfl
      exact hne hname.symm
    · exact ⟨hne, hname, before, after, hpath, .inr hbefore, hafter, fun h => absurd h hdot⟩
  · rintro ⟨hne, hname, before, after, hpath, hbefore, hafter, hdot⟩
    rcases hbefore with rfl | hlast
    · have heq := hfirst.mpr ⟨hname, after, hpath, hafter⟩
      exact .inl ⟨heq, by simpa [← heq] using hne⟩
    · refine .inr ⟨⟨hname, before, after, hpath, hlast, hafter⟩, hne, ?_⟩
      intro h
      simp [hdot h] at hlast

/-! ## Names below a path -/

theorem exists_join (path : String) :
    ∃ cs, (path.toList = cs ++ ['/'] ∨ path.toList = cs ∧ cs.getLast? ≠ some '/') ∧
      ∀ name, (join path name).toList = cs ++ '/' :: name.toList := by
  by_cases hlast : path.toList.getLast? = some '/'
  · obtain ⟨cs, hcs⟩ := List.getLast?_eq_some_iff.mp hlast
    refine ⟨cs, .inl hcs, fun name => ?_⟩
    rw [join, if_pos hlast, String.toList_append, hcs, List.append_assoc]
    rfl
  · refine ⟨path.toList, .inr ⟨rfl, hlast⟩, fun name => ?_⟩
    rw [join, if_neg hlast, String.toList_append, String.toList_append, List.append_assoc]
    rfl

theorem join_ne_empty (path name : String) : join path name ≠ "" := by
  obtain ⟨cs, -, hjoin⟩ := exists_join path
  intro h
  have hnil := hjoin name
  simp [h] at hnil

theorem components_eq {path : String} {first : List Char} {rest : List (List Char)}
    (h : split path.toList = first :: rest) (hrest : first = [] → rest ≠ []) :
    components path =
      ((if first = [] then ['/'] else first) :: rest.filter (!isStay ·)).map String.ofList := by
  by_cases hfirst : first = []
  · simp [components, h, hfirst, hrest hfirst]
  · simp [components, h, hfirst]

theorem components_join {path name : String} (hpath : path ≠ "") (hname : IsName name) :
    components (join path name) = components path ++ [name] := by
  obtain ⟨cs, hcs, hjoin⟩ := exists_join path
  obtain ⟨first, rest, hfirst⟩ := exists_split cs
  have hnew : split (join path name).toList = first :: (rest ++ [name.toList]) := by
    rw [hjoin, split_slash, hfirst, split_of_not_mem hname.noSlash]
    rfl
  rw [components_eq hnew (by simp)]
  -- A slash at the end of the path leaves an empty part, which leads nowhere.
  rcases hcs with hcs | ⟨hcs, -⟩
  · have hold : split path.toList = first :: (rest ++ [[]]) := by
      rw [hcs, split_slash, hfirst]
      rfl
    have hstay : isStay [] = true := rfl
    rw [components_eq hold (by simp)]
    simp [hname.noStay, hstay]
  · have hrest : first = [] → rest ≠ [] := by
      rintro rfl rfl
      have hnil : ['/'].intercalate (split cs) = cs := List.intercalate_splitOn '/'
      rw [hfirst, ← hcs] at hnil
      exact hpath (String.toList_eq_nil_iff.mp hnil.symm)
    rw [← hcs] at hfirst
    rw [components_eq hfirst hrest]
    simp [hname.noStay]

theorem components_foldl_join {path : String} {names : List String} (hpath : path ≠ "")
    (hnames : ∀ name ∈ names, IsName name) :
    components (names.foldl join path) = components path ++ names := by
  induction names generalizing path with
  | nil => simp
  | cons name names ih =>
    rw [List.forall_mem_cons] at hnames
    rw [List.foldl_cons, ih (join_ne_empty path name) hnames.2, components_join hpath hnames.1,
      List.append_assoc]
    rfl

theorem IsName.getLast? {name : String} (h : IsName name) (cs : List Char) :
    (cs ++ '/' :: name.toList).getLast? ≠ some '/' := by
  intro hlast
  have hne : name.toList ≠ [] := by
    intro hnil
    have hstay := h.noStay
    simp [hnil, isStay] at hstay
  rw [← List.singleton_append, ← List.append_assoc, List.getLast?_append_of_ne_nil _ hne] at hlast
  exact h.noSlash (List.mem_of_getLast? hlast)

theorem join_join {root name : String} (h : IsName name) (path : List Char) :
    join (join root name) (String.ofList path) =
      join root (String.ofList (name.toList ++ '/' :: path)) := by
  obtain ⟨cs, -, hroot⟩ := exists_join root
  obtain ⟨ds, hds, hnew⟩ := exists_join (join root name)
  rcases hds with hslash | ⟨hds, -⟩
  · have hlast := h.getLast? cs
    rw [← hroot, hslash, List.getLast?_concat] at hlast
    contradiction
  · rw [← String.toList_inj, hnew, hroot, ← hds, hroot]
    simp

theorem below_cons (root name : String) (names : List String) :
    below root (name :: names) = join root
      (String.ofList (['/'].intercalate (name.toList :: names.map String.toList))) := rfl

theorem foldl_join {root : String} {names : List String} (h : ∀ name ∈ names, IsName name) :
    names.foldl join root = below root names := by
  induction names generalizing root with
  | nil => rfl
  | cons name names ih =>
    rw [List.forall_mem_cons] at h
    rw [List.foldl_cons, ih h.2]
    cases names with
    | nil => simp [below]
    | cons next names =>
      rw [below_cons, join_join h.1, below_cons, List.map_cons, List.intercalate_cons_cons]
      simp

/-! ## Extensions -/

theorem lastPart_of_endsPart {path : String} {folder name : List Char}
    (h : path.toList = folder ++ name) (hfolder : EndsPart folder) (hname : '/' ∉ name) :
    lastPart path = name := by
  rcases hfolder with rfl | hlast
  · simp [lastPart, h, split_of_not_mem hname]
  · obtain ⟨cs, rfl⟩ := List.getLast?_eq_some_iff.mp hlast
    simp [lastPart, h, split_slash, split_of_not_mem hname]

theorem exists_lastPart (path : String) :
    ∃ folder, path.toList = folder ++ lastPart path ∧ EndsPart folder ∧ '/' ∉ lastPart path := by
  by_cases h : '/' ∈ path.toList
  · obtain ⟨name, folder, hpath, hname⟩ := List.eq_append_cons_of_mem (List.mem_reverse.mpr h)
    have hpath' : path.toList = (folder.reverse ++ ['/']) ++ name.reverse := by
      rw [← List.reverse_reverse path.toList, hpath]
      simp
    have hname' : '/' ∉ name.reverse := by simpa using hname
    have hfolder : EndsPart (folder.reverse ++ ['/']) := .inr List.getLast?_concat
    rw [lastPart_of_endsPart hpath' hfolder hname']
    exact ⟨_, hpath', hfolder, hname'⟩
  · rw [lastPart_of_endsPart (List.nil_append _).symm (.inl rfl) h]
    exact ⟨[], rfl, .inl rfl, h⟩

theorem takeWhile_dot_iff (name ending : List Char) :
    (name.reverse.takeWhile (· ≠ '.') = ending ∧ ending.length + 1 < name.length) ↔
      '.' ∉ ending ∧ ∃ stem, name = stem ++ '.' :: ending.reverse ∧ stem ≠ [] := by
  -- The text behind the last dot is found from the end on.
  constructor
  · rintro ⟨hending, hlength⟩
    have hname : ending ++ name.reverse.dropWhile (· ≠ '.') = name.reverse := by
      rw [← hending, List.takeWhile_append_dropWhile]
    have hfree : '.' ∉ ending := by
      intro h
      rw [← hending] at h
      exact absurd (List.mem_takeWhile_imp h) (by decide)
    refine ⟨hfree, ?_⟩
    cases hrest : name.reverse.dropWhile (· ≠ '.') with
    | nil =>
      rw [hrest, List.append_nil] at hname
      rw [hname, List.length_reverse] at hlength
      omega
    | cons c stem =>
      have hdot : decide (c ≠ '.') = false := Text.head?_dropWhile_eq_some (by rw [hrest]; rfl)
      have hc : c = '.' := by simpa using hdot
      have hstem : name = stem.reverse ++ '.' :: ending.reverse := by
        rw [← List.reverse_reverse name, ← hname, hrest, hc]
        simp
      refine ⟨stem.reverse, hstem, ?_⟩
      rintro hnil
      simp [hstem, hnil] at hlength
  · rintro ⟨hdot, stem, rfl, hstem⟩
    have hending : ∀ c ∈ ending, decide (c ≠ '.') = true := by
      intro c hc
      simpa using fun h : c = '.' => hdot (h ▸ hc)
    have hlength := List.length_pos_of_ne_nil hstem
    rw [List.reverse_append, List.reverse_cons, List.reverse_reverse, List.append_assoc,
      List.singleton_append, List.takeWhile_append_of_pos hending]
    simp
    omega

theorem extension?_eq_some (path ext : String) :
    extension? path = some ext ↔ (lastPart path).reverse.takeWhile (· ≠ '.') = ext.toList.reverse ∧
      ext.toList.reverse.length + 1 < (lastPart path).length := by
  have hext : ∀ cs : List Char, String.ofList cs.reverse = ext ↔ cs = ext.toList.reverse := by
    intro cs
    rw [← String.toList_inj, String.toList_ofList, List.reverse_eq_iff]
  rw [extension?]
  split
  · next hshort =>
    simp only [reduceCtorEq, false_iff, not_and]
    intro hending
    rw [← hending]
    omega
  · next hlong =>
    rw [Option.some.injEq, hext]
    refine ⟨fun hending => ⟨hending, ?_⟩, fun h => h.1⟩
    rw [← hending]
    omega

theorem extension?_eq_some_iff (path ext : String) :
    extension? path = some ext ↔ HasExtension path ext := by
  rw [extension?_eq_some, takeWhile_dot_iff, HasExtension]
  constructor
  · rintro ⟨hdot, stem, hname, hstem⟩
    obtain ⟨folder, hpath, hfolder, hslash⟩ := exists_lastPart path
    rw [List.reverse_reverse] at hname
    rw [hname] at hpath hslash
    refine ⟨folder, stem, hpath, hfolder, ?_, hstem, by simpa using hdot⟩
    simpa using hslash
  · rintro ⟨folder, stem, hpath, hfolder, hslash, hstem, hdot⟩
    have hname : '/' ∉ stem ++ '.' :: ext.toList := by simpa using hslash
    rw [lastPart_of_endsPart hpath hfolder hname]
    exact ⟨by simpa using hdot, stem, by simp, hstem⟩

theorem hasExtension_join {path name : String} (h : IsName name) (ext : String) :
    HasExtension (join path name) ext ↔ HasExtension name ext := by
  obtain ⟨cs, -, hjoin⟩ := exists_join path
  have hfolder : EndsPart (cs ++ ['/']) := .inr List.getLast?_concat
  have hlast : lastPart (join path name) = lastPart name := by
    rw [lastPart_of_endsPart (by rw [hjoin, List.append_cons]) hfolder h.noSlash,
      lastPart_of_endsPart (List.nil_append _).symm (.inl rfl) h.noSlash]
  rw [← extension?_eq_some_iff, ← extension?_eq_some_iff, extension?, hlast, extension?]

end DocAnnotations.Path
