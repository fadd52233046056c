import DocAnnotations.Proofs.Extraction.Visit
import Mathlib.Data.List.Forall2

/-!
# What documents an element

A keyword is asked for the one class that is exported with it, and for nothing
else.
-/

namespace DocAnnotations

namespace Script

/-! ## Doc comments -/

/-- A comment between stars whose text starts with a star of its own. -/
def Remark.IsDoc (c : Remark) : Prop := c.isBlock = true ∧ ∃ rest, c.text = "*" ++ rest

theorem Remark.isDoc_iff (c : Remark) : c.isDoc = true ↔ c.IsDoc := by
  have htext : c.text.toList.head? = some '*' ↔ ∃ rest, c.text = "*" ++ rest := by
    constructor
    · intro h
      obtain ⟨rest, hrest⟩ := List.head?_eq_some_iff.mp h
      refine ⟨String.ofList rest, String.toList_inj.mp ?_⟩
      simpa using hrest
    · rintro ⟨rest, hrest⟩
      simp [hrest]
  simp [isDoc, IsDoc, htext]

/-- That no doc comment stands in front of a token. -/
def Mark.Undocumented (a : Mark) : Prop := ∀ c ∈ a.leading, ¬ c.IsDoc

/-- The last doc comment in front of a token. -/
def Mark.LastDoc (a : Mark) (c : Remark) : Prop :=
  ∃ before behind, a.leading = before ++ c :: behind ∧ c.IsDoc ∧ ∀ c' ∈ behind, ¬ c'.IsDoc

/-- What is written as the last doc comment of the first token that has one. -/
def FirstDoc (anchors : List Mark) (doc : String) : Prop :=
  ∃ before a behind c, anchors = before ++ a :: behind ∧ (∀ b ∈ before, b.Undocumented) ∧
    a.LastDoc c ∧ "/*" ++ c.text ++ "*/" = doc

theorem Mark.lastDoc_iff (a : Mark) (c : Remark) :
    a.leading.reverse.find? Remark.isDoc = some c ↔ a.LastDoc c := by
  simp only [List.find?_eq_some_iff_append, Remark.isDoc_iff, LastDoc]
  constructor
  · rintro ⟨hc, behind, before, hcut, hbehind⟩
    refine ⟨before.reverse, behind.reverse, ?_, hc, ?_⟩
    · rw [List.reverse_eq_iff] at hcut
      simpa using hcut
    · intro c' hc'
      have hplain := hbehind c' (List.mem_reverse.mp hc')
      simpa [← Remark.isDoc_iff] using hplain
  · rintro ⟨before, behind, hcut, hc, hbehind⟩
    refine ⟨hc, behind.reverse, before.reverse, by simp [hcut], ?_⟩
    intro c' hc'
    have hplain := hbehind c' (List.mem_reverse.mp hc')
    simpa [← Remark.isDoc_iff] using hplain

theorem Mark.docComment?_eq_none_iff (a : Mark) : a.docComment? = none ↔ a.Undocumented := by
  simp [docComment?, Undocumented, ← Remark.isDoc_iff]

theorem Mark.docComment?_eq_some_iff (a : Mark) (doc : String) :
    a.docComment? = some doc ↔ ∃ c, a.LastDoc c ∧ "/*" ++ c.text ++ "*/" = doc := by
  simp only [docComment?, Option.map_eq_some_iff, a.lastDoc_iff]

theorem Finding.docComment?_eq_none_iff (f : Finding) :
    f.docComment? = none ↔ ∀ a ∈ f.anchors, a.Undocumented := by
  simp only [docComment?, List.findSome?_eq_none_iff, Mark.docComment?_eq_none_iff]

theorem Finding.docComment?_eq_some_iff (f : Finding) (doc : String) :
    f.docComment? = some doc ↔ FirstDoc f.anchors doc := by
  simp only [docComment?, List.findSome?_eq_some_iff, Mark.docComment?_eq_none_iff,
    Mark.docComment?_eq_some_iff, FirstDoc]
  constructor
  · rintro ⟨before, a, behind, hcut, ⟨c, hc, hdoc⟩, hbefore⟩
    exact ⟨before, a, behind, c, hcut, hbefore, hc, hdoc⟩
  · rintro ⟨before, a, behind, c, hcut, hbefore, hc, hdoc⟩
    exact ⟨before, a, behind, hcut, ⟨c, hc, hdoc⟩, hbefore⟩

/-! ## Anchors -/

/-- The tokens of a member that may have its comment: its decorators, its start and its key. -/
def Member.anchors : Member → List Mark
  | .constructor start key .. => [start, key]
  | .method start keyStart _ ds .. | .property start keyStart _ ds _ =>
    ds.map (·.start) ++ [start, keyStart]
  | .accessor .. | .nameless _ => []

/-- The tokens of a class, or of the member with the given number. -/
def Class.anchors? (c : Class) : Option Nat → Option (List Mark)
  | none => some (c.decorators.map (·.start) ++ [c.start])
  | some i => c.members[i]?.map Member.anchors

/-- The tokens of what stands at a site, the keyword of an export left out. -/
def Module.anchors? (m : Module) (s : Site) : Option (List Mark) :=
  (m.at? s.place).bind fun n => n.namedClass?.bind fun named => named.2.anchors? s.member?

theorem Member.anchors_finding {className : String} {m : Member} {f : Finding}
    (h : m.finding? className = some f) : f.anchors = m.anchors := by
  cases m with
  | constructor =>
    cases h
    rfl
  | method start keyStart key | property start keyStart key =>
    obtain ⟨name, -, rfl⟩ := Option.map_eq_some_iff.mp h
    rfl
  | accessor | nameless => cases h

theorem Class.record_visit {waiting : Option Mark} {place : List Nat} {name : String} {c : Class}
    {r : Record} (hr : r ∈ (c.visit waiting place name).records) :
    r.site.place = place ∧ c.outline? name r.site.member? = some r.finding.outline ∧
      ∃ own, c.anchors? r.site.member? = some own ∧
        r.finding.anchors = r.waiting.toList ++ own := by
  simp only [visit, List.mem_cons, List.mem_filterMap, Option.map_eq_some_iff] at hr
  rcases hr with rfl | ⟨i, -, f, hf, rfl⟩
  · exact ⟨rfl, rfl, _, rfl, List.append_assoc ..⟩
  · obtain ⟨member, hmember, hfinding⟩ := Option.bind_eq_some_iff.mp hf
    refine ⟨rfl, ?_, member.anchors, ?_, Member.anchors_finding hfinding⟩
    · rw [c.outline?_member, hf, Option.map_some]
    · rw [anchors?, hmember, Option.map_some]

theorem Module.record_visit {m : Module} {r : Record} (hr : r ∈ m.visit.records) :
    m.outline? r.site = some r.finding.outline ∧ ∃ own, m.anchors? r.site = some own ∧
      r.finding.anchors = r.waiting.toList ++ own := by
  obtain ⟨place, n, name, c, taken, hplace, hc, hr⟩ := exists_class_of_mem_visitFrom hr
  obtain ⟨rfl, houtline, own, hown, hanchors⟩ := Class.record_visit hr
  have hat : m.at? r.site.place = some n := (m.mem_places _ n).mp hplace
  refine ⟨?_, own, ?_, hanchors⟩
  · rw [outline?, hat, Option.bind_some, hc]
    exact houtline
  · rw [anchors?, hat, Option.bind_some, hc]
    exact hown

/-! ## Exports -/

/-- That at a place there is an export with a keyword of the class at a site. -/
def Module.Exports (m : Module) (place : List Nat) (keyword : Mark) (s : Site) : Prop :=
  ∃ n, m.at? place = some n ∧ n.export? place = some (keyword, s)

theorem Module.exists_exports_iff (m : Module) (keyword : Mark) (s : Site) :
    (∃ place, m.Exports place keyword s) ↔
      ∃ r ∈ m.visit.records, r.waiting = some keyword ∧ r.site = s := by
  have hlist := exports_visitFrom 0 m.items
  have hmem : (keyword, s) ∈ exportsFrom 0 m.items ↔ ∃ place, m.Exports place keyword s := by
    simp only [exportsFrom, List.mem_filterMap, Prod.exists, Exports]
    exact exists_congr fun place => exists_congr fun n =>
      and_congr_left' (m.mem_places place n)
  rw [← hmem, ← hlist, List.mem_filterMap]
  simp [visit, Record.export?]

theorem Module.Exports.cases {m : Module} {place : List Nat} {keyword : Mark} {s : Site}
    (h : m.Exports place keyword s) :
    (s = ⟨place, none⟩ ∧ ∃ name c, m.at? place = some (.exportedDefault keyword name c)) ∨
    (s = ⟨place ++ [0], none⟩ ∧
      ∃ name c, m.at? (place ++ [0]) = some (.classDeclaration name c)) := by
  obtain ⟨n, hn, hexport⟩ := h
  cases n with
  | form | classDeclaration | classExpression => cases hexport
  | exported keyword' declaration =>
    cases declaration with
    | classDeclaration name c =>
      cases hexport
      have hplace : place ≠ [] := by
        rintro rfl
        cases hn
      refine .inr ⟨rfl, name, c, ?_⟩
      rw [m.at?_append place [0] hplace, hn]
      rfl
    | form | classExpression | exported | exportedDefault => cases hexport
  | exportedDefault keyword' name c =>
    cases hexport
    exact .inl ⟨rfl, name, c, hn⟩

theorem Module.Exports.place_eq_iff {m : Module} {place place' : List Nat}
    {keyword keyword' : Mark} {s s' : Site} (h : m.Exports place keyword s)
    (h' : m.Exports place' keyword' s') : place' = place ↔ s' = s := by
  constructor
  · rintro rfl
    obtain ⟨n, hn, hexport⟩ := h
    obtain ⟨n', hn', hexport'⟩ := h'
    cases hn.symm.trans hn'
    cases hexport.symm.trans hexport'
    rfl
  · rintro rfl
    -- At the site stands the export itself or the class below it, but not both.
    rcases h.cases with ⟨rfl, _, _, hat⟩ | ⟨rfl, _, _, hat⟩ <;>
      rcases h'.cases with ⟨hsite, _, _, hat'⟩ | ⟨hsite, _, _, hat'⟩ <;>
      simp only [Site.mk.injEq, and_true] at hsite
    · exact hsite.symm
    · rw [← hsite, hat] at hat'
      cases hat'
    · rw [← hsite, hat] at hat'
      cases hat'
    · exact (List.append_cancel_right hsite).symm

/-! ## Records -/

theorem Module.nodup_records (m : Module) : (m.visit.records.map (·.site)).Nodup := by
  rw [visit, sites_visitFrom]
  exact m.nodup_sites

theorem Module.mem_sites_visit (m : Module) (s : Site) :
    s ∈ m.visit.records.map (·.site) ↔ (m.outline? s).isSome := by
  rw [visit, sites_visitFrom]
  exact m.mem_sites s

theorem Module.waiting_iff {m : Module} {r : Record} (hr : r ∈ m.visit.records) (keyword : Mark) :
    r.waiting = some keyword ↔ ∃ place, m.Exports place keyword r.site := by
  rw [m.exists_exports_iff]
  constructor
  · intro h
    exact ⟨r, hr, h, rfl⟩
  · rintro ⟨r', hr', h, hsite⟩
    rw [← h, List.inj_on_of_nodup_map m.nodup_records hr' hr hsite]

end Script

namespace Element

open Script

theorem forall₂_ofFindings (path : String) (fs : List Finding) :
    List.Forall₂ (fun f e => e.kind = f.kind ∧ e.line = f.line ∧ e.docComment = f.docComment?)
      fs (ofFindings path fs) := by
  have hlen : fs.length ≤ (numberNames [] (fs.map (·.name))).length := by
    simp [length_numberNames]
  rw [ofFindings_eq_map]
  nth_rewrite 1 [← List.map_snd_zip hlen]
  rw [List.forall₂_map_left_iff, List.forall₂_map_right_iff, List.forall₂_same]
  intro p _
  exact ⟨rfl, rfl, rfl⟩

/-- The keyword of an export documents the class that is exported right away, and no other class
and no member: it waits when that class is come to and at no other time. An element has the last
doc comment of the first of its tokens that has one. -/
theorem documented_by_anchors (path : String) (m : Module) :
    (∀ source, Module.ofSource? (.ofFile path) source = some m →
      extract path source = .ok (ofFindings path (m.visit.records.map (·.finding)))) ∧
    ((m.visit.records.map (·.site)).Nodup ∧
      ∀ s, s ∈ m.visit.records.map (·.site) ↔ (m.outline? s).isSome) ∧
    ((∀ i ns, (visitFrom none i ns).waiting = none) ∧
      (∀ waiting i keyword declaration,
        (visitFrom waiting i [.exported keyword declaration]).waiting = none) ∧
      ∀ waiting i keyword name c,
        (visitFrom waiting i [.exportedDefault keyword name c]).waiting = none) ∧
    (∀ r ∈ m.visit.records, ∀ keyword,
      r.waiting = some keyword ↔ ∃ place, m.Exports place keyword r.site) ∧
    (∀ place keyword s, m.Exports place keyword s →
      (∃ r ∈ m.visit.records, r.waiting = some keyword ∧ r.site = s) ∧
      ∀ place' keyword' s', m.Exports place' keyword' s' → (place' = place ↔ s' = s)) ∧
    List.Forall₂ (fun r e => ∃ o own, m.outline? r.site = some o ∧ e.kind = o.kind ∧
        e.line = o.line ∧ m.anchors? r.site = some own ∧
        (∀ doc, e.docComment = some doc ↔ FirstDoc (r.waiting.toList ++ own) doc) ∧
        (e.docComment = none ↔ ∀ a ∈ r.waiting.toList ++ own, a.Undocumented))
      m.visit.records (ofFindings path (m.visit.records.map (·.finding))) := by
  refine ⟨?_, ⟨m.nodup_records, m.mem_sites_visit⟩,
    ⟨waiting_visitFrom, waiting_visitFrom_exported, waiting_visitFrom_exportedDefault⟩,
    fun r hr => m.waiting_iff hr, ?_, ?_⟩
  · intro source h
    rw [Module.visit, findings_visitFrom]
    exact extract_eq_ok_iff.mpr ⟨m, h, rfl⟩
  · intro place keyword s h
    exact ⟨(m.exists_exports_iff keyword s).mp ⟨place, h⟩, fun _ _ _ h' => h.place_eq_iff h'⟩
  · have helements := List.forall₂_map_left_iff.mp
      (forall₂_ofFindings path (m.visit.records.map (·.finding)))
    refine ((List.forall₂_and_left _ _).mpr ⟨fun r hr => Module.record_visit hr, helements⟩).imp ?_
    rintro r e ⟨⟨houtline, own, hown, hanchors⟩, hkind, hline, hdoc⟩
    refine ⟨r.finding.outline, own, houtline, hkind, hline, hown, ?_, ?_⟩
    · intro doc
      rw [hdoc, ← hanchors]
      exact r.finding.docComment?_eq_some_iff doc
    · rw [hdoc, ← hanchors]
      exact r.finding.docComment?_eq_none_iff

example : (extract "a.js"
    "/** of A */\nexport class A \x7b m() \x7b class B \x7b\x7d \x7d \x7d\nclass C \x7b\x7d").map
      (·.map fun e => (e.qualifiedName, e.docComment)) =
    .ok [("A", some "/** of A */"), ("A::m", none), ("B", none), ("C", none)] := by
  decide +kernel

end Element

end DocAnnotations
