import DocAnnotations.Proofs.Extraction.Numbering
import DocAnnotations.Proofs.Script.Place

/-! # What is recorded of a source file -/

namespace DocAnnotations

namespace Script

/-! ## Sites -/

/-- A class, by the place of its node, or one of its members. -/
structure Site where
  place : List Nat
  /-- The number of the member; `none` for the class itself. -/
  member? : Option Nat
deriving DecidableEq, Repr

/-- What a finding says, but for its comments. -/
structure Outline where
  name : String
  kind : ElementKind
  line : Nat
deriving DecidableEq, Repr

/-- A class, under the name that it has or, as a nameless default export, is given. -/
def Node.namedClass? : Node → Option (String × Class)
  | .classDeclaration name c | .classExpression (some name) c | .exportedDefault _ (some name) c =>
    some (name, c)
  | .exportedDefault _ none c => some ("default", c)
  | .classExpression none _ | .form .. | .exported .. => none

/-- A member whose name is fixed. -/
def Member.outline? (className : String) : Member → Option Outline
  | .constructor start .. => some ⟨className ++ "::" ++ "constructor", .constructor, start.line⟩
  | .method start _ (.plain name) .. => some ⟨className ++ "::" ++ name, .method, start.line⟩
  | .method start _ (.secret name) .. =>
    some ⟨className ++ "::" ++ ("#" ++ name), .method, start.line⟩
  | .property start _ (.plain name) .. => some ⟨className ++ "::" ++ name, .property, start.line⟩
  | .property start _ (.secret name) .. =>
    some ⟨className ++ "::" ++ ("#" ++ name), .property, start.line⟩
  | .method _ _ (.computed _) .. | .method _ _ .bigint .. => none
  | .property _ _ (.computed _) .. | .property _ _ .bigint .. => none
  | .accessor .. | .nameless _ => none

def Class.outline? (name : String) (c : Class) : Option Nat → Option Outline
  | none => some ⟨name, .classKind, c.start.line⟩
  | some i => c.members[i]?.bind (Member.outline? name)

/-- What stands at a site of a source file. -/
def Module.outline? (m : Module) (s : Site) : Option Outline :=
  (m.at? s.place).bind fun n => n.namedClass?.bind fun named => named.2.outline? named.1 s.member?

/-- A class and its members, those without a fixed name left out. -/
def Class.sites (place : List Nat) (name : String) (c : Class) : List Site :=
  ((none :: (List.range c.members.length).map some).filter fun i => (c.outline? name i).isSome).map
    (⟨place, ·⟩)

def Node.sites (place : List Nat) (n : Node) : List Site :=
  (n.namedClass?.map fun named => named.2.sites place named.1).getD []

def Module.sites (m : Module) : List Site := m.places.flatMap fun p => p.2.sites p.1

/-! ## The sites of a class -/

theorem Class.mem_sites (place : List Nat) (name : String) (c : Class) (s : Site) :
    s ∈ c.sites place name ↔ s.place = place ∧ (c.outline? name s.member?).isSome := by
  obtain ⟨place', member?⟩ := s
  have hlist : (c.outline? name member?).isSome →
      member? ∈ none :: (List.range c.members.length).map some := by
    intro h
    cases member? with
    | none => exact List.mem_cons_self
    | some i =>
      rw [Class.outline?, Option.isSome_bind] at h
      have hi : i < c.members.length := by
        by_contra hi
        rw [List.getElem?_eq_none (by omega)] at h
        simp at h
      simpa using hi
  simp only [Class.sites, List.mem_map, List.mem_filter, Site.mk.injEq]
  constructor
  · rintro ⟨i, ⟨-, hi⟩, rfl, rfl⟩
    exact ⟨rfl, hi⟩
  · rintro ⟨rfl, h⟩
    exact ⟨member?, ⟨hlist h, h⟩, rfl, rfl⟩

theorem Class.nodup_sites (place : List Nat) (name : String) (c : Class) :
    (c.sites place name).Nodup := by
  have hmembers : ((List.range c.members.length).map some).Nodup :=
    List.nodup_range.map fun i j h => Option.some.inj h
  have hall : (none :: (List.range c.members.length).map some).Nodup :=
    List.nodup_cons.mpr ⟨by simp, hmembers⟩
  apply (hall.filter _).map
  intro i j h
  exact (Site.mk.inj h).2

/-! ## All sites -/

theorem Node.mem_sites (place : List Nat) (n : Node) (s : Site) :
    s ∈ n.sites place ↔ s.place = place ∧
      (n.namedClass?.bind fun named => named.2.outline? named.1 s.member?).isSome := by
  rw [Node.sites]
  cases n.namedClass? with
  | none => simp
  | some named => exact named.2.mem_sites place named.1 s

theorem Module.mem_sites (m : Module) (s : Site) : s ∈ m.sites ↔ (m.outline? s).isSome := by
  simp only [Module.sites, List.mem_flatMap, Prod.exists, m.mem_places, Node.mem_sites,
    Module.outline?]
  cases h : m.at? s.place with
  | none =>
    simp only [Option.bind_none, Option.isSome_none, Bool.false_eq_true, iff_false]
    rintro ⟨place, n, hn, rfl, -⟩
    simp [h] at hn
  | some n =>
    constructor
    · rintro ⟨place, n', hn', rfl, hs⟩
      rw [h, Option.some.injEq] at hn'
      exact hn' ▸ hs
    · intro hs
      exact ⟨s.place, n, h, rfl, hs⟩

theorem Module.nodup_sites (m : Module) : m.sites.Nodup := by
  rw [Module.sites, List.nodup_flatMap]
  constructor
  · rintro ⟨place, n⟩ -
    rw [Node.sites]
    cases n.namedClass? with
    | none => exact List.nodup_nil
    | some named => exact named.2.nodup_sites place named.1
  · have hplaces : m.places.Pairwise fun p q => p.1 ≠ q.1 :=
      List.pairwise_map.mp (nodup_placesFrom 0 m.items)
    apply hplaces.imp
    rintro ⟨a, n⟩ ⟨b, n'⟩ hne s hs hs'
    exact hne (((n.mem_sites a s).mp hs).1.symm.trans ((n'.mem_sites b s).mp hs').1)

theorem Module.sites_cut (m : Module) (place : List Nat) (n : Node) (h : m.at? place = some n) :
    ∃ before inside after, m.sites = before ++ (n.sites place ++ (inside ++ after)) ∧
      ∀ s, s ∈ inside ↔ s ∈ m.sites ∧ ∃ rest, rest ≠ [] ∧ s.place = place ++ rest := by
  have hplace : place ≠ [] := by
    rintro rfl
    simp [Module.at?] at h
  obtain ⟨before, after, hcut⟩ := placesFrom_cut 0 m.items place n ((m.mem_places place n).mpr h)
  refine ⟨before.flatMap fun p => p.2.sites p.1,
    ((placesFrom 0 n.parts).map fun p => (place ++ p.1, p.2)).flatMap fun p => p.2.sites p.1,
    after.flatMap fun p => p.2.sites p.1, ?_, ?_⟩
  · rw [Module.sites, Module.places, hcut]
    simp only [List.flatMap_append, List.flatMap_cons, List.append_assoc]
  · intro s
    have hinside : ∀ rest inner, (rest, inner) ∈ placesFrom 0 n.parts ↔
        rest ≠ [] ∧ m.at? (place ++ rest) = some inner := by
      intro rest inner
      rw [m.at?_append place rest hplace, h, Option.bind_some, mem_placesFrom]
      cases rest with
      | nil => simp
      | cons i rest => simp [Node.at?, Option.bind_eq_some_iff]
    simp only [List.mem_flatMap, List.mem_map, Prod.exists, Prod.mk.injEq, hinside, Node.mem_sites,
      Module.mem_sites, Module.outline?]
    constructor
    · rintro ⟨_, _, ⟨rest, inner, ⟨hrest, hat⟩, rfl, rfl⟩, hs, hsome⟩
      refine ⟨?_, rest, hrest, hs⟩
      rw [hs, hat]
      exact hsome
    · rintro ⟨hsome, rest, hrest, hs⟩
      rw [hs] at hsome
      obtain ⟨inner, hat⟩ : ∃ inner, m.at? (place ++ rest) = some inner := by
        cases hat : m.at? (place ++ rest) with
        | none => simp [hat] at hsome
        | some inner => exact ⟨inner, rfl⟩
      rw [hat] at hsome
      exact ⟨_, _, ⟨rest, inner, ⟨hrest, hat⟩, rfl, rfl⟩, hs, hsome⟩

/-! ## The search -/

def Finding.outline (f : Finding) : Outline := ⟨f.name, f.kind, f.line⟩

theorem Member.outline_finding? (className : String) (m : Member) :
    (m.finding? className).map Finding.outline = m.outline? className := by
  cases m with
  | constructor | accessor | nameless => rfl
  | method start keyStart key | property start keyStart key => cases key <;> rfl

theorem filterMap_range_getElem? {α β : Type} (f : α → Option β) (l : List α) :
    (List.range l.length).filterMap (fun i => l[i]?.bind f) = l.filterMap f := by
  have hget : (List.range l.length).map (fun i => l[i]?) = l.map some := by
    apply List.ext_getElem
    · simp
    · intro i hi hi'
      simp
  calc (List.range l.length).filterMap (fun i => l[i]?.bind f)
      = ((List.range l.length).map fun i => l[i]?).filterMap (·.bind f) := by
        rw [List.filterMap_map]
        rfl
    _ = (l.map some).filterMap (·.bind f) := by rw [hget]
    _ = l.filterMap f := by
        rw [List.filterMap_map]
        rfl

theorem map_eq_map_some_filterMap {α β : Type} {f : α → Option β} (l : List α)
    (h : ∀ a ∈ l, (f a).isSome) : l.map f = (l.filterMap f).map some := by
  induction l with
  | nil => rfl
  | cons a l ih =>
    obtain ⟨b, hb⟩ := Option.isSome_iff_exists.mp (h a List.mem_cons_self)
    rw [List.map_cons, List.filterMap_cons_some hb, List.map_cons, hb,
      ih fun a' ha' => h a' (List.mem_cons_of_mem a ha')]

theorem Class.outlines_sites (keywords : List Mark) (place : List Nat) (name : String) (c : Class) :
    (c.sites place name).filterMap (fun s => c.outline? name s.member?) =
      (c.findings keywords name).map Finding.outline := by
  have hfilter : ∀ l : List (Option Nat),
      (l.filter fun i => (c.outline? name i).isSome).filterMap (c.outline? name) =
        l.filterMap (c.outline? name) := by
    intro l
    rw [List.filterMap_filter]
    apply List.filterMap_congr
    intro i _
    cases c.outline? name i <;> rfl
  have hmembers : ((List.range c.members.length).map some).filterMap (c.outline? name) =
      c.members.filterMap (Member.outline? name) := by
    rw [List.filterMap_map]
    exact filterMap_range_getElem? _ _
  have hself : c.outline? name none = some ⟨name, .classKind, c.start.line⟩ := rfl
  rw [Class.sites, List.filterMap_map]
  refine (hfilter _).trans ?_
  rw [List.filterMap_cons_some hself, hmembers, findings, List.map_cons, List.map_filterMap]
  simp only [Member.outline_finding?]
  rfl

/-- The outlines of a node itself, without its parts. -/
def Node.outlines (n : Node) : List Outline :=
  (n.namedClass?.map fun named => (named.2.findings [] named.1).map Finding.outline).getD []

theorem Node.outlines_search (n : Node) :
    n.search.map Finding.outline = n.outlines ++ (searchNodes n.parts).map Finding.outline := by
  -- The keyword of an export is looked at when its class is searched, not when the export is.
  have hclass : ∀ keywords name, ∀ c : Class,
      (c.findings keywords name ++ c.inside).map Finding.outline =
        (c.findings [] name).map Finding.outline ++ (searchNodes c.parts).map Finding.outline := by
    intro keywords name c
    rw [List.map_append, c.inside_eq]
    rfl
  cases n with
  | form f parts => rfl
  | classDeclaration name c => exact hclass [] name c
  | classExpression name c =>
    cases name with
    | none =>
      rw [search, c.inside_eq]
      rfl
    | some name => exact hclass [] name c
  | exported keyword declaration =>
    have hparts : (searchNodes [declaration]).map Finding.outline =
        declaration.search.map Finding.outline := by
      simp [searchNodes]
    rw [parts, hparts]
    cases declaration with
    | classDeclaration name c => exact (hclass [keyword] name c).trans (hclass [] name c).symm
    | form | classExpression | exported | exportedDefault => rfl
  | exportedDefault keyword name c =>
    cases name with
    | none => exact hclass [keyword] defaultName c
    | some name => exact hclass [keyword] name c

theorem outlines_searchNodes (i : Nat) (ns : List Node) :
    (searchNodes ns).map Finding.outline = (placesFrom i ns).flatMap fun p => p.2.outlines := by
  induction i, ns using placesFrom.induct with
  | case1 i => simp [placesFrom, searchNodes]
  | case2 i n rest ihparts ihrest =>
    rw [searchNodes, List.map_append, n.outlines_search, ihparts, ihrest, placesFrom]
    simp [List.flatMap_map]

theorem Node.outlines_sites (m : Module) (place : List Nat) (n : Node) (h : m.at? place = some n) :
    (n.sites place).filterMap m.outline? = n.outlines := by
  have hsite : ∀ s ∈ n.sites place, m.outline? s =
      n.namedClass?.bind fun named => named.2.outline? named.1 s.member? := by
    intro s hs
    rw [Module.outline?, ((n.mem_sites place s).mp hs).1, h, Option.bind_some]
  rw [List.filterMap_congr hsite, Node.sites, Node.outlines]
  cases n.namedClass? with
  | none => rfl
  | some named => exact named.2.outlines_sites [] place named.1

theorem Module.outlines_sites (m : Module) :
    m.sites.filterMap m.outline? = m.findings.map Finding.outline := by
  have hplace : ∀ p ∈ m.places, (p.2.sites p.1).filterMap m.outline? = p.2.outlines :=
    fun p hp => p.2.outlines_sites m p.1 ((m.mem_places p.1 p.2).mp hp)
  rw [Module.findings, outlines_searchNodes 0, Module.sites, List.filterMap_flatMap,
    List.flatMap_def, List.flatMap_def, List.map_congr_left hplace]
  rfl

end Script

/-! ## Elements -/

namespace Element

theorem map_kind_line_ofFindings (path : String) (fs : List Script.Finding) :
    (ofFindings path fs).map (fun e => (e.kind, e.line)) = fs.map fun f => (f.kind, f.line) := by
  have hlen : fs.length ≤ (numberNames [] (fs.map (·.name))).length := by
    simp [length_numberNames]
  rw [ofFindings_eq_map, List.map_map]
  calc ((numberNames [] (fs.map (·.name))).zip fs).map (fun p => (p.2.kind, p.2.line))
      = (((numberNames [] (fs.map (·.name))).zip fs).map Prod.snd).map fun f =>
          (f.kind, f.line) := by
        rw [List.map_map]
        rfl
    _ = fs.map fun f => (f.kind, f.line) := by rw [List.map_snd_zip hlen]

open Script in
/-- The elements of a tree belong to its sites one by one: the classes with names, wherever they
stand, and their members with fixed names. A class and its members follow each other, and they are
followed by what stands inside the class. -/
theorem recorded_once (path : String) (m : Module) :
    (∀ source, Module.ofSource? (.ofFile path) source = some m →
      extract path source = .ok (ofFindings path m.findings)) ∧
    ∃ (sites : List Site) (outlines : List Outline),
      sites.Nodup ∧
      (∀ s, s ∈ sites ↔ (m.outline? s).isSome) ∧
      sites.map m.outline? = outlines.map some ∧
      (ofFindings path m.findings).map (fun e => (e.kind, e.line)) =
        outlines.map (fun o => (o.kind, o.line)) ∧
      (ofFindings path m.findings).map (·.qualifiedName) =
        numberNames [] (outlines.map (·.name)) ∧
      (∀ place n name c, m.at? place = some n → n.namedClass? = some (name, c) →
        ∃ before inside after,
          sites = before ++ (c.sites place name ++ (inside ++ after)) ∧
          ∀ s, s ∈ inside ↔ s ∈ sites ∧ ∃ rest, rest ≠ [] ∧ s.place = place ++ rest) ∧
      ∀ place c, m.at? place = some (.classExpression none c) → ∀ s ∈ sites, s.place ≠ place := by
  refine ⟨fun source h => extract_eq_ok_iff.mpr ⟨m, h, rfl⟩, m.sites,
    m.findings.map Finding.outline, m.nodup_sites, m.mem_sites, ?_, ?_, ?_, ?_, ?_⟩
  · rw [← m.outlines_sites]
    exact map_eq_map_some_filterMap m.sites fun s hs => (m.mem_sites s).mp hs
  · rw [map_kind_line_ofFindings, List.map_map]
    rfl
  · rw [qualifiedNames_ofFindings, List.map_map]
    rfl
  · intro place n name c hn hc
    have hsites : n.sites place = c.sites place name := by simp [Node.sites, hc]
    rw [← hsites]
    exact m.sites_cut place n hn
  · rintro place c hc s hs rfl
    have hsome := (m.mem_sites s).mp hs
    simp [Module.outline?, hc, Node.namedClass?] at hsome

end Element

end DocAnnotations
