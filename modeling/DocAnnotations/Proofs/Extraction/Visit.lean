import DocAnnotations.Proofs.Extraction.Sites

/-!
# A visit with a waiting keyword

The search looks at a class from the export that it is in. The visit goes with the
keyword of the last export in hand and lets the next class take it. Both find the
same.
-/

namespace DocAnnotations.Script

/-! ## The visit -/

/-- A class or member as it is recorded. -/
structure Record where
  site : Site
  /-- The keyword that waited when the class or member was come to. -/
  waiting : Option Mark
  finding : Finding
deriving DecidableEq, Repr

/-- What comes of a visit: the keyword that is left waiting, and what was recorded. -/
structure Visit where
  waiting : Option Mark
  records : List Record
deriving DecidableEq, Repr

/-- A site as it is seen from the node around it. -/
def Site.below (i : Nat) (s : Site) : Site := { s with place := i :: s.place }

def Record.below (i : Nat) (r : Record) : Record := { r with site := r.site.below i }

/-- A class takes the keyword that waits, so that there is none when its members are come to. -/
def Class.visit (waiting : Option Mark) (place : List Nat) (name : String) (c : Class) : Visit :=
  let anchors := waiting.toList ++ c.decorators.map (·.start) ++ [c.start]
  let left : Option Mark := none
  let member (i : Nat) : Option Record :=
    (c.members[i]?.bind (Member.finding? name)).map fun f => ⟨⟨place, some i⟩, left, f⟩
  ⟨left, ⟨⟨place, none⟩, waiting, ⟨name, .classKind, c.start.line, anchors⟩⟩ ::
    (List.range c.members.length).filterMap member⟩

/-- What happens at a node before its parts are visited. -/
def Node.enter (waiting : Option Mark) (place : List Nat) : Node → Visit
  | .classDeclaration name c | .classExpression (some name) c => c.visit waiting place name
  | .exported keyword (.classDeclaration ..) => ⟨some keyword, []⟩
  | .exportedDefault keyword name c => c.visit (some keyword) place (name.getD defaultName)
  | .form .. | .classExpression none _ | .exported .. => ⟨waiting, []⟩

/-- What waits when a node is left. -/
def Node.leave (waiting : Option Mark) : Node → Option Mark
  | .exported .. | .exportedDefault .. => none
  | .form .. | .classDeclaration .. | .classExpression .. => waiting

/-- Visits some nodes, which are counted from `i`. -/
def visitFrom (waiting : Option Mark) (i : Nat) : List Node → Visit
  | [] => ⟨waiting, []⟩
  | n :: rest =>
    let own := n.enter waiting [i]
    let inside := visitFrom own.waiting 0 n.parts
    let behind := visitFrom (n.leave inside.waiting) (i + 1) rest
    ⟨behind.waiting, own.records ++ inside.records.map (Record.below i) ++ behind.records⟩
termination_by ns => (ns.map sizeOf).sum
decreasing_by
  · have hn := n.sum_sizeOf_parts
    simp only [List.map_cons, List.sum_cons]
    omega
  · have hn := n.sum_sizeOf_parts
    simp only [List.map_cons, List.sum_cons]
    omega

def Module.visit (m : Module) : Visit := visitFrom none 0 m.items

/-! ## What is left waiting -/

theorem Node.leave_eq_none (i : Nat) (n : Node) (h : (visitFrom none 0 n.parts).waiting = none) :
    n.leave (visitFrom (n.enter none [i]).waiting 0 n.parts).waiting = none := by
  cases n with
  | form | classDeclaration => exact h
  | classExpression name c => cases name <;> exact h
  | exported | exportedDefault => rfl

theorem waiting_visitFrom (i : Nat) (ns : List Node) : (visitFrom none i ns).waiting = none := by
  induction i, ns using placesFrom.induct with
  | case1 i => rw [visitFrom]
  | case2 i n rest ihparts ihrest =>
    rw [visitFrom]
    simp only [n.leave_eq_none i ihparts]
    exact ihrest

theorem records_visitFrom_cons (i : Nat) (n : Node) (rest : List Node) :
    (visitFrom none i (n :: rest)).records = (n.enter none [i]).records ++
      (visitFrom (n.enter none [i]).waiting 0 n.parts).records.map (Record.below i) ++
      (visitFrom none (i + 1) rest).records := by
  rw [visitFrom]
  simp only [n.leave_eq_none i (waiting_visitFrom 0 n.parts)]

theorem waiting_visitFrom_exported (waiting : Option Mark) (i : Nat) (keyword : Mark)
    (declaration : Node) :
    (visitFrom waiting i [.exported keyword declaration]).waiting = none := by
  rw [visitFrom, visitFrom]
  rfl

theorem waiting_visitFrom_exportedDefault (waiting : Option Mark) (i : Nat) (keyword : Mark)
    (name : Option String) (c : Class) :
    (visitFrom waiting i [.exportedDefault keyword name c]).waiting = none := by
  rw [visitFrom, visitFrom]
  rfl

/-! ## The sites of the records -/

theorem filterMap_map_const {α β γ : Type} (f : α → Option β) (g : α → γ) (l : List α) :
    l.filterMap (fun a => (f a).map fun _ => g a) = (l.filter fun a => (f a).isSome).map g := by
  rw [← List.filterMap_eq_map, List.filterMap_filter]
  apply List.filterMap_congr
  intro a _
  cases f a <;> rfl

theorem Class.outline?_member (name : String) (c : Class) (i : Nat) :
    c.outline? name (some i) =
      (c.members[i]?.bind (Member.finding? name)).map Finding.outline := by
  rw [outline?, Option.map_bind]
  congr 1
  funext m
  exact (m.outline_finding? name).symm

theorem Class.sites_visit (waiting : Option Mark) (place : List Nat) (name : String) (c : Class) :
    (c.visit waiting place name).records.map (·.site) = c.sites place name := by
  have hself : (fun i => (c.outline? name i).isSome) none = true := rfl
  rw [sites, List.filter_cons_of_pos (p := fun i => (c.outline? name i).isSome) hself,
    List.filter_map, List.map_cons, List.map_map]
  simp only [visit, List.map_cons, List.map_filterMap, Option.map_map, Function.comp_def,
    filterMap_map_const, Class.outline?_member, Option.isSome_map]

theorem Node.sites_enter (waiting : Option Mark) (place : List Nat) (n : Node) :
    (n.enter waiting place).records.map (·.site) = n.sites place := by
  cases n with
  | form => rfl
  | classDeclaration name c => exact c.sites_visit waiting place name
  | classExpression name c =>
    cases name with
    | none => rfl
    | some name => exact c.sites_visit waiting place name
  | exported keyword declaration => cases declaration <;> rfl
  | exportedDefault keyword name c =>
    cases name with
    | none => exact c.sites_visit (some keyword) place defaultName
    | some name => exact c.sites_visit (some keyword) place name

theorem Node.sites_cons (i : Nat) (place : List Nat) (n : Node) :
    n.sites (i :: place) = (n.sites place).map (Site.below i) := by
  rw [sites, sites]
  cases n.namedClass? with
  | none => rfl
  | some named => simp [Class.sites, Site.below]

theorem sites_visitFrom (waiting : Option Mark) (i : Nat) (ns : List Node) :
    (visitFrom waiting i ns).records.map (·.site) =
      (placesFrom i ns).flatMap fun p => p.2.sites p.1 := by
  induction i, ns using placesFrom.induct generalizing waiting with
  | case1 i => simp [visitFrom, placesFrom]
  | case2 i n rest ihparts ihrest =>
    have hinside : ∀ w, ((visitFrom w 0 n.parts).records.map (Record.below i)).map (·.site) =
        ((placesFrom 0 n.parts).map fun p => (i :: p.1, p.2)).flatMap fun p => p.2.sites p.1 := by
      intro w
      have hbelow : Site.below i ∘ (·.site) = (·.site) ∘ Record.below i := rfl
      simp only [List.map_map, ← hbelow, List.flatMap_map, Node.sites_cons]
      rw [← List.map_map, ihparts, List.map_flatMap]
    rw [visitFrom, placesFrom]
    simp only [List.map_append, List.flatMap_append, List.flatMap_cons, n.sites_enter, hinside,
      ihrest]

/-! ## What is found -/

theorem Class.findings_visit (waiting : Option Mark) (place : List Nat) (name : String)
    (c : Class) :
    (c.visit waiting place name).records.map (·.finding) = c.findings waiting.toList name := by
  have hmembers := filterMap_range_getElem? (Member.finding? name) c.members
  simp only [visit, findings, List.map_cons, List.map_filterMap, Option.map_map,
    Function.comp_def, Option.map_id_fun', id_eq, hmembers]

theorem records_visitFrom_classDeclaration (waiting : Option Mark) (i : Nat) (name : String)
    (c : Class) : (visitFrom waiting i [.classDeclaration name c]).records =
      (c.visit waiting [i] name).records ++
        (visitFrom none 0 c.parts).records.map (Record.below i) := by
  rw [visitFrom, visitFrom, List.append_nil]
  rfl

theorem findings_below (i : Nat) (rs : List Record) :
    (rs.map (Record.below i)).map (·.finding) = rs.map (·.finding) := by
  rw [List.map_map]
  rfl

theorem Class.findings_visit_inside {c : Class}
    (h : (visitFrom none 0 c.parts).records.map (·.finding) = searchNodes c.parts)
    (waiting : Option Mark) (place : List Nat) (name : String) :
    (c.visit waiting place name).records.map (·.finding) ++
      (visitFrom none 0 c.parts).records.map (·.finding) =
        c.findings waiting.toList name ++ c.inside := by
  rw [c.findings_visit, h, c.inside_eq]

theorem Node.findings_visit (i : Nat) (n : Node)
    (h : (visitFrom none 0 n.parts).records.map (·.finding) = searchNodes n.parts) :
    (n.enter none [i]).records.map (·.finding) ++
      (visitFrom (n.enter none [i]).waiting 0 n.parts).records.map (·.finding) = n.search := by
  cases n with
  | form f parts => exact h
  | classDeclaration name c => exact Class.findings_visit_inside h none [i] name
  | classExpression name c =>
    cases name with
    | none => exact h.trans c.inside_eq.symm
    | some name => exact Class.findings_visit_inside h none [i] name
  | exported keyword declaration =>
    rw [parts, searchNodes, searchNodes, List.append_nil] at h
    cases declaration with
    | classDeclaration name c =>
      -- The class takes the keyword, and inside it nothing waits as if there had been none.
      rw [records_visitFrom_classDeclaration, List.map_append, findings_below,
        c.findings_visit] at h
      have hinside := (List.append_cancel_left h).trans c.inside_eq
      refine Eq.trans ?_ (Class.findings_visit_inside hinside (some keyword) [0] name)
      rw [enter, parts, records_visitFrom_classDeclaration, List.map_append, findings_below]
      rfl
    | form | classExpression | exported | exportedDefault => exact h
  | exportedDefault keyword name c => exact Class.findings_visit_inside h (some keyword) [i] _

theorem findings_visitFrom (i : Nat) (ns : List Node) :
    (visitFrom none i ns).records.map (·.finding) = searchNodes ns := by
  -- The visit hands a keyword on where the search looks at the export around.
  induction i, ns using placesFrom.induct with
  | case1 i => rw [visitFrom, searchNodes, List.map_nil]
  | case2 i n rest ihparts ihrest =>
    rw [records_visitFrom_cons, searchNodes, List.map_append, List.map_append, findings_below,
      n.findings_visit i ihparts, ihrest]

/-! ## Exports of classes -/

/-- The keyword of a class that is exported right away, and the class. -/
def Node.export? (place : List Nat) : Node → Option (Mark × Site)
  | .exported keyword (.classDeclaration ..) => some (keyword, ⟨place ++ [0], none⟩)
  | .exportedDefault keyword .. => some (keyword, ⟨place, none⟩)
  | .form .. | .classDeclaration .. | .classExpression .. | .exported .. => none

/-- Every keyword of a class below some nodes, which are counted from `i`, and the class. -/
def exportsFrom (i : Nat) (ns : List Node) : List (Mark × Site) :=
  (placesFrom i ns).filterMap fun p => p.2.export? p.1

/-- The keyword that waited for what was recorded, and what that was. -/
def Record.export? (r : Record) : Option (Mark × Site) := r.waiting.map (·, r.site)

theorem Class.exports_visit (waiting : Option Mark) (place : List Nat) (name : String)
    (c : Class) : (c.visit waiting place name).records.filterMap Record.export? =
      (waiting.map (·, ⟨place, none⟩)).toList := by
  have hmembers : ∀ l : List Nat,
      (l.filterMap fun i => (c.members[i]?.bind (Member.finding? name)).map fun f =>
        (⟨⟨place, some i⟩, none, f⟩ : Record)).filterMap Record.export? = [] := by
    intro l
    rw [List.filterMap_filterMap, List.filterMap_eq_nil_iff]
    intro i _
    cases c.members[i]?.bind (Member.finding? name) <;> rfl
  cases waiting with
  | none => exact hmembers _
  | some keyword => exact congrArg ((keyword, ⟨place, none⟩) :: ·) (hmembers _)

theorem Node.export?_cons (i : Nat) (place : List Nat) (n : Node) :
    n.export? (i :: place) = (n.export? place).map (Prod.map id (Site.below i)) := by
  cases n with
  | exported keyword declaration => cases declaration <;> rfl
  | form | classDeclaration | classExpression | exportedDefault => rfl

theorem exports_below (i : Nat) (rs : List Record) :
    (rs.map (Record.below i)).filterMap Record.export? =
      (rs.filterMap Record.export?).map (Prod.map id (Site.below i)) := by
  rw [List.filterMap_map, List.map_filterMap]
  apply List.filterMap_congr
  intro r _
  obtain ⟨site, waiting, finding⟩ := r
  cases waiting <;> rfl

theorem exportsFrom_cons (i : Nat) (n : Node) (rest : List Node) :
    exportsFrom i (n :: rest) = (n.export? [i]).toList ++
      (exportsFrom 0 n.parts).map (Prod.map id (Site.below i)) ++ exportsFrom (i + 1) rest := by
  have hinside :
      ((placesFrom 0 n.parts).map fun p => (i :: p.1, p.2)).filterMap (fun p => p.2.export? p.1) =
        (exportsFrom 0 n.parts).map (Prod.map id (Site.below i)) := by
    rw [List.filterMap_map, exportsFrom, List.map_filterMap]
    simp only [Function.comp_def, Node.export?_cons]
  rw [exportsFrom, placesFrom, List.filterMap_append, List.filterMap_cons, hinside]
  cases n.export? [i] <;> rfl

theorem Node.exports_visit (i : Nat) (n : Node)
    (h : (visitFrom none 0 n.parts).records.filterMap Record.export? = exportsFrom 0 n.parts) :
    (n.enter none [i]).records.filterMap Record.export? ++
      ((visitFrom (n.enter none [i]).waiting 0 n.parts).records.filterMap Record.export?).map
        (Prod.map id (Site.below i)) =
      (n.export? [i]).toList ++ (exportsFrom 0 n.parts).map (Prod.map id (Site.below i)) := by
  have hbelow := congrArg (List.map (Prod.map id (Site.below i))) h
  cases n with
  | form f parts => exact hbelow
  | classDeclaration name c =>
    rw [enter, c.exports_visit]
    exact hbelow
  | classExpression name c =>
    cases name with
    | none => exact hbelow
    | some name =>
      rw [enter, c.exports_visit]
      exact hbelow
  | exported keyword declaration =>
    cases declaration with
    | classDeclaration name c =>
      rw [parts, records_visitFrom_classDeclaration, List.filterMap_append, c.exports_visit] at h
      rw [enter, parts, records_visitFrom_classDeclaration, List.filterMap_append,
        c.exports_visit, ← h]
      rfl
    | form | classExpression | exported | exportedDefault => exact hbelow
  | exportedDefault keyword name c =>
    rw [enter, c.exports_visit]
    exact congrArg ((keyword, ⟨[i], none⟩) :: ·) hbelow

/-- A keyword waits when its class is recorded, and at no other time. -/
theorem exports_visitFrom (i : Nat) (ns : List Node) :
    (visitFrom none i ns).records.filterMap Record.export? = exportsFrom i ns := by
  induction i, ns using placesFrom.induct with
  | case1 i => simp [visitFrom, exportsFrom, placesFrom]
  | case2 i n rest ihparts ihrest =>
    rw [records_visitFrom_cons, exportsFrom_cons, List.filterMap_append, List.filterMap_append,
      exports_below, n.exports_visit i ihparts, ihrest]

/-! ## The class of a record -/

theorem Class.records_visit_cons (waiting : Option Mark) (i : Nat) (place : List Nat)
    (name : String) (c : Class) : (c.visit waiting (i :: place) name).records =
      (c.visit waiting place name).records.map (Record.below i) := by
  simp only [visit, List.map_cons, List.map_filterMap, Option.map_map]
  rfl

theorem Node.exists_class_of_mem_enter {waiting : Option Mark} {place : List Nat} {n : Node}
    {r : Record} (hr : r ∈ (n.enter waiting place).records) : ∃ name c taken,
      n.namedClass? = some (name, c) ∧ r ∈ (c.visit taken place name).records := by
  cases n with
  | form => cases hr
  | classDeclaration name c => exact ⟨name, c, waiting, rfl, hr⟩
  | classExpression name c =>
    cases name with
    | none => cases hr
    | some name => exact ⟨name, c, waiting, rfl, hr⟩
  | exported keyword declaration => cases declaration <;> cases hr
  | exportedDefault keyword name c =>
    cases name with
    | none => exact ⟨defaultName, c, some keyword, rfl, hr⟩
    | some name => exact ⟨name, c, some keyword, rfl, hr⟩

theorem exists_class_of_mem_visitFrom {waiting : Option Mark} {i : Nat} {ns : List Node}
    {r : Record} (hr : r ∈ (visitFrom waiting i ns).records) : ∃ place n name c taken,
      (place, n) ∈ placesFrom i ns ∧ n.namedClass? = some (name, c) ∧
        r ∈ (c.visit taken place name).records := by
  induction i, ns using placesFrom.induct generalizing waiting r with
  | case1 i =>
    rw [visitFrom] at hr
    cases hr
  | case2 i n rest ihparts ihrest =>
    rw [visitFrom] at hr
    simp only [List.mem_append, List.mem_map] at hr
    simp only [placesFrom, List.cons_append, List.mem_cons, List.mem_append, List.mem_map]
    rcases hr with (hown | ⟨r, hinside, rfl⟩) | hbehind
    · obtain ⟨name, c, taken, hc, hr⟩ := n.exists_class_of_mem_enter hown
      exact ⟨[i], n, name, c, taken, .inl rfl, hc, hr⟩
    · obtain ⟨place, inner, name, c, taken, hplace, hc, hr⟩ := ihparts hinside
      refine ⟨i :: place, inner, name, c, taken, .inr (.inl ⟨_, hplace, rfl⟩), hc, ?_⟩
      rw [c.records_visit_cons]
      exact List.mem_map_of_mem hr
    · obtain ⟨place, inner, name, c, taken, hplace, hc, hr⟩ := ihrest hbehind
      exact ⟨place, inner, name, c, taken, .inr (.inr hplace), hc, hr⟩

end DocAnnotations.Script
