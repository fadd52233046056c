import DocAnnotations.Script.Finding
import DocAnnotations.Script.Grammar.Pattern
import Mathlib.Algebra.BigOperators.Group.List.Basic
import Mathlib.Algebra.GroupWithZero.Nat
import Mathlib.Data.List.Basic
import Mathlib.Data.List.Nodup

/-!
# Places in a tree

A node is found by the number of a part, then of a part of that part, and so on.
-/

namespace DocAnnotations.Script

/-! ## Parts -/

def Member.parts : Member → List Node
  | .constructor _ _ params body => params ++ body
  | .method _ _ key ds params body => key.parts ++ params ++ ds.map (·.expression) ++ body
  | .property _ _ key ds value | .accessor key ds value =>
    key.parts ++ value ++ ds.map (·.expression)
  | .nameless parts => parts

def Class.parts (c : Class) : List Node :=
  c.decorators.map (·.expression) ++ c.members.flatMap Member.parts ++ c.heritage

/-- The nodes right below a node. -/
def Node.parts : Node → List Node
  | .form _ parts => parts
  | .classDeclaration _ c | .classExpression _ c | .exportedDefault _ _ c => c.parts
  | .exported _ declaration => [declaration]

/-! ## Places -/

/-- The node at a place below a node, if the place is there. -/
def Node.at? (n : Node) : List Nat → Option Node
  | [] => some n
  | i :: rest => n.parts[i]?.bind fun part => part.at? rest

/-- The node at a place of a source file. -/
def Module.at? (m : Module) : List Nat → Option Node
  | [] => none
  | i :: rest => m.items[i]?.bind fun item => item.at? rest

theorem Node.at?_append (n : Node) (a b : List Nat) :
    n.at? (a ++ b) = (n.at? a).bind fun inner => inner.at? b := by
  induction a generalizing n with
  | nil => rfl
  | cons i a ih =>
    rw [List.cons_append, Node.at?, Node.at?]
    cases n.parts[i]? with
    | none => rfl
    | some part => exact ih part

theorem Module.at?_append (m : Module) (a b : List Nat) (ha : a ≠ []) :
    m.at? (a ++ b) = (m.at? a).bind fun inner => inner.at? b := by
  obtain ⟨i, a, rfl⟩ := List.exists_cons_of_ne_nil ha
  rw [List.cons_append, Module.at?, Module.at?]
  cases m.items[i]? with
  | none => rfl
  | some item => exact item.at?_append a b

/-! ## The size of the parts -/

theorem sum_sizeOf_le (ns : List Node) : (ns.map sizeOf).sum ≤ sizeOf ns := by
  induction ns with
  | nil => simp
  | cons n ns ih =>
    simp only [List.map_cons, List.sum_cons, List.cons.sizeOf_spec]
    omega

theorem sum_sizeOf_expressions (ds : List Decorator) :
    ((ds.map (·.expression)).map sizeOf).sum ≤ sizeOf ds := by
  induction ds with
  | nil => simp
  | cons d ds ih =>
    obtain ⟨start, e⟩ := d
    simp only [List.map_cons, List.sum_cons, List.cons.sizeOf_spec, Decorator.mk.sizeOf_spec]
    omega

theorem Key.sum_sizeOf_parts (k : Key) : (k.parts.map sizeOf).sum ≤ sizeOf k := by
  cases k <;> simp [Key.parts]

theorem Member.sum_sizeOf_parts (m : Member) : (m.parts.map sizeOf).sum ≤ sizeOf m := by
  cases m with
  | constructor start key params body =>
    have hparams := sum_sizeOf_le params
    have hbody := sum_sizeOf_le body
    simp only [parts, List.map_append, List.sum_append, constructor.sizeOf_spec]
    omega
  | method start keyStart key ds params body =>
    have hkey := key.sum_sizeOf_parts
    have hparams := sum_sizeOf_le params
    have hds := sum_sizeOf_expressions ds
    have hbody := sum_sizeOf_le body
    simp only [parts, List.map_append, List.sum_append, method.sizeOf_spec]
    omega
  | property start keyStart key ds value | accessor key ds value =>
    have hkey := key.sum_sizeOf_parts
    have hvalue := sum_sizeOf_le value
    have hds := sum_sizeOf_expressions ds
    simp only [parts, List.map_append, List.sum_append, property.sizeOf_spec,
      accessor.sizeOf_spec]
    omega
  | nameless parts =>
    have hparts := sum_sizeOf_le parts
    simp only [Member.parts, nameless.sizeOf_spec]
    omega

theorem sum_sizeOf_memberParts (ms : List Member) :
    ((ms.flatMap Member.parts).map sizeOf).sum ≤ sizeOf ms := by
  induction ms with
  | nil => simp
  | cons m ms ih =>
    have hm := m.sum_sizeOf_parts
    simp only [List.flatMap_cons, List.map_append, List.sum_append, List.cons.sizeOf_spec]
    omega

theorem Class.sum_sizeOf_parts (c : Class) : (c.parts.map sizeOf).sum < sizeOf c := by
  obtain ⟨start, ds, members, heritage⟩ := c
  have hds := sum_sizeOf_expressions ds
  have hmembers := sum_sizeOf_memberParts members
  have hheritage := sum_sizeOf_le heritage
  simp only [parts, List.map_append, List.sum_append, mk.sizeOf_spec]
  omega

theorem Node.sum_sizeOf_parts (n : Node) : (n.parts.map sizeOf).sum < sizeOf n := by
  cases n with
  | form f parts =>
    have hparts := sum_sizeOf_le parts
    simp only [Node.parts, form.sizeOf_spec]
    omega
  | classDeclaration name c | classExpression name c | exportedDefault keyword name c =>
    have hc := c.sum_sizeOf_parts
    simp only [parts, classDeclaration.sizeOf_spec, classExpression.sizeOf_spec,
      exportedDefault.sizeOf_spec]
    omega
  | exported keyword declaration =>
    simp only [parts, List.map_cons, List.map_nil, List.sum_cons, List.sum_nil,
      exported.sizeOf_spec]
    omega

/-! ## All places -/

/-- Every place below some nodes with the node there, the nodes being counted from `i`. -/
def placesFrom (i : Nat) : List Node → List (List Nat × Node)
  | [] => []
  | n :: rest =>
    ([i], n) :: ((placesFrom 0 n.parts).map fun p => (i :: p.1, p.2)) ++ placesFrom (i + 1) rest
termination_by ns => (ns.map sizeOf).sum
decreasing_by
  · have hn := n.sum_sizeOf_parts
    simp only [List.map_cons, List.sum_cons]
    omega
  · have hn := n.sum_sizeOf_parts
    simp only [List.map_cons, List.sum_cons]
    omega

def Module.places (m : Module) : List (List Nat × Node) := placesFrom 0 m.items

theorem Node.at?_eq_some_iff (n inner : Node) (a : List Nat) :
    n.at? a = some inner ↔ (a = [] ∧ n = inner) ∨
      ∃ i b part, a = i :: b ∧ n.parts[i]? = some part ∧ part.at? b = some inner := by
  cases a with
  | nil => simp [Node.at?]
  | cons i b => simp [Node.at?, Option.bind_eq_some_iff]

theorem mem_placesFrom (i : Nat) (ns : List Node) (a : List Nat) (inner : Node) :
    (a, inner) ∈ placesFrom i ns ↔
      ∃ j b n, a = (i + j) :: b ∧ ns[j]? = some n ∧ n.at? b = some inner := by
  induction i, ns using placesFrom.induct generalizing a inner with
  | case1 i => simp [placesFrom]
  | case2 i n rest ihparts ihrest =>
    have hparts : (∃ p ∈ placesFrom 0 n.parts, (i :: p.1, p.2) = (a, inner)) ↔
        ∃ j b part, a = i :: j :: b ∧ n.parts[j]? = some part ∧ part.at? b = some inner := by
      constructor
      · rintro ⟨⟨b, inner'⟩, hp, heq⟩
        rw [Prod.mk.injEq] at heq
        obtain ⟨rfl, rfl⟩ := heq
        obtain ⟨j, b', part, rfl, hpart, hat⟩ := (ihparts _ _).mp hp
        exact ⟨j, b', part, by simp, hpart, hat⟩
      · rintro ⟨j, b, part, rfl, hpart, hat⟩
        exact ⟨(j :: b, inner), (ihparts _ _).mpr ⟨j, b, part, by simp, hpart, hat⟩, rfl⟩
    rw [placesFrom, List.cons_append, List.mem_cons, List.mem_append, List.mem_map, hparts, ihrest]
    constructor
    · rintro (heq | ⟨j, b, part, rfl, hpart, hat⟩ | ⟨j, b, m, rfl, hm, hat⟩)
      · rw [Prod.mk.injEq] at heq
        obtain ⟨rfl, rfl⟩ := heq
        exact ⟨0, [], inner, by simp, by simp, rfl⟩
      · refine ⟨0, j :: b, n, by simp, by simp, ?_⟩
        rw [Node.at?, hpart]
        exact hat
      · exact ⟨j + 1, b, m, by simp; omega, by simpa using hm, hat⟩
    · rintro ⟨j, b, m, rfl, hm, hat⟩
      cases j with
      | zero =>
        simp only [List.getElem?_cons_zero, Option.some.injEq] at hm
        subst hm
        rcases (n.at?_eq_some_iff inner b).mp hat with
          ⟨rfl, rfl⟩ | ⟨k, b', part, rfl, hpart, hat'⟩
        · exact .inl rfl
        · exact .inr (.inl ⟨k, b', part, rfl, hpart, hat'⟩)
      | succ j => exact .inr (.inr ⟨j, b, m, by simp; omega, by simpa using hm, hat⟩)

theorem Module.mem_places (m : Module) (a : List Nat) (n : Node) :
    (a, n) ∈ m.places ↔ m.at? a = some n := by
  rw [Module.places, mem_placesFrom]
  cases a with
  | nil => simp [Module.at?]
  | cons i b => simp [Module.at?, Option.bind_eq_some_iff]

theorem nodup_placesFrom (i : Nat) (ns : List Node) : ((placesFrom i ns).map (·.1)).Nodup := by
  induction i, ns using placesFrom.induct with
  | case1 i => simp [placesFrom]
  | case2 i n rest ihparts ihrest =>
    have hinside : (((placesFrom 0 n.parts).map fun p => (i :: p.1, p.2)).map (·.1)).Nodup := by
      rw [List.map_map]
      have hcons : ((placesFrom 0 n.parts).map ((·.1) ∘ fun p => (i :: p.1, p.2))) =
          ((placesFrom 0 n.parts).map (·.1)).map (i :: ·) := by
        rw [List.map_map]
        rfl
      rw [hcons]
      exact ihparts.map (List.cons_injective)
    rw [placesFrom, List.map_append, List.map_cons, List.nodup_append, List.nodup_cons]
    refine ⟨⟨?_, hinside⟩, ihrest, ?_⟩
    · intro hmem
      simp only [List.map_map, List.mem_map, Function.comp_apply] at hmem
      obtain ⟨⟨b, inner⟩, hp, heq⟩ := hmem
      obtain ⟨j, b', part, rfl, -, -⟩ := (mem_placesFrom _ _ _ _).mp hp
      simp at heq
    · intro a ha b hb heq
      have hhead : a.head? = some i := by
        simp only [List.map_map, List.mem_cons, List.mem_map, Function.comp_apply] at ha
        rcases ha with rfl | ⟨p, -, rfl⟩ <;> rfl
      obtain ⟨⟨b', inner⟩, hp, rfl⟩ := List.mem_map.mp hb
      obtain ⟨j, b'', part, rfl, -, -⟩ := (mem_placesFrom _ _ _ _).mp hp
      subst heq
      simp at hhead
      omega

theorem placesFrom_cut (i : Nat) (ns : List Node) (a : List Nat) (inner : Node)
    (h : (a, inner) ∈ placesFrom i ns) : ∃ before after, placesFrom i ns =
      before ++ (a, inner) :: ((placesFrom 0 inner.parts).map fun p => (a ++ p.1, p.2)) ++
        after := by
  induction i, ns using placesFrom.induct generalizing a with
  | case1 i => simp [placesFrom] at h
  | case2 i n rest ihparts ihrest =>
    rw [placesFrom, List.cons_append, List.mem_cons, List.mem_append, List.mem_map] at h
    rw [placesFrom]
    -- The place is that of the first node, or inside it, or in the rest.
    rcases h with heq | ⟨⟨b, inner'⟩, hp, heq⟩ | hrest
    · rw [Prod.mk.injEq] at heq
      obtain ⟨rfl, rfl⟩ := heq
      exact ⟨[], placesFrom (i + 1) rest, rfl⟩
    · rw [Prod.mk.injEq] at heq
      obtain ⟨rfl, rfl⟩ := heq
      obtain ⟨before, after, hcut⟩ := ihparts b hp
      refine ⟨([i], n) :: before.map (fun p => (i :: p.1, p.2)),
        after.map (fun p => (i :: p.1, p.2)) ++ placesFrom (i + 1) rest, ?_⟩
      simp [hcut]
    · obtain ⟨before, after, hcut⟩ := ihrest a hrest
      refine ⟨([i], n) :: (placesFrom 0 n.parts).map (fun p => (i :: p.1, p.2)) ++ before, after,
        ?_⟩
      simp [hcut]

/-! ## The search -/

theorem searchNodes_append (ns ms : List Node) :
    searchNodes (ns ++ ms) = searchNodes ns ++ searchNodes ms := by
  induction ns with
  | nil => rfl
  | cons n ns ih => simp [searchNodes, ih]

theorem searchDecorators_eq (ds : List Decorator) :
    searchDecorators ds = searchNodes (ds.map (·.expression)) := by
  induction ds with
  | nil => rfl
  | cons d ds ih =>
    obtain ⟨start, e⟩ := d
    simp [searchDecorators, searchNodes, Decorator.search, ih]

theorem Key.search_eq (k : Key) : k.search = searchNodes k.parts := by
  cases k <;> simp [Key.search, Key.parts, searchNodes]

theorem Member.search_eq (m : Member) : m.search = searchNodes m.parts := by
  cases m <;>
    simp [Member.search, Member.parts, searchNodes_append, searchDecorators_eq, Key.search_eq]

theorem searchMembers_eq (ms : List Member) :
    searchMembers ms = searchNodes (ms.flatMap Member.parts) := by
  induction ms with
  | nil => rfl
  | cons m ms ih => simp [searchMembers, searchNodes_append, Member.search_eq, ih]

theorem Class.inside_eq (c : Class) : c.inside = searchNodes c.parts := by
  obtain ⟨start, ds, members, heritage⟩ := c
  simp [Class.inside, Class.parts, searchNodes_append, searchDecorators_eq, searchMembers_eq]

end DocAnnotations.Script
