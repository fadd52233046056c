import DocAnnotations.Proofs.Script.Order

/-!
# What a parser finds in a window of a source

That nodes are in order and marks lie in the lines that were read are classes, so
that of a value both are found by the way in which it is built.
-/

namespace DocAnnotations.Script

/-! ## Windows -/

/-- The lines of a source from one of them to the one that has been reached. -/
structure Window where
  first : Nat
  reached : Nat
  first_le : first ≤ reached

namespace Window

/-- The window when so many more lines have been reached. -/
def on (w : Window) (n : Nat) : Window :=
  ⟨w.first, w.reached + n, Nat.le_add_right_of_le w.first_le⟩

def last (w : Window) : Window := ⟨w.reached, w.reached, Nat.le_refl _⟩

def since (w : Window) (m : Mark) (h : m.line ≤ w.reached) : Window := ⟨m.line, w.reached, h⟩

end Window

/-! ## Values -/

/-- A type whose values hold nodes, and marks in an order that counts. -/
class Traced (α : Type) where
  nodes : α → List Node
  marks : α → List Mark

/-- That the classes in a value are in order. -/
class InOrder {α : Type} [Traced α] (a : α) : Prop where
  all : ∀ n ∈ Traced.nodes a, n.InOrder

/-- That the marks in a value stand in a window, one after the other. -/
class Within {α : Type} [Traced α] (w : Window) (a : α) : Prop where
  ascends : Ascends (Traced.marks a)
  all : ∀ m ∈ Traced.marks a, w.first ≤ m.line ∧ m.line ≤ w.reached

/-- What a parser may give that has passed through a window. -/
structure Found (w : Window) (α : Type) [Traced α] where
  val : α
  inOrder : InOrder val
  within : Within w val

/-- A type whose values hold no marks. -/
class Markless (α : Type) [Traced α] : Prop where
  marks_eq : ∀ a : α, Traced.marks a = []

/-- A type whose values hold neither nodes nor marks. -/
class Plain (α : Type) : Prop

section

variable {α β : Type} [Traced α] [Traced β] {w : Window}

theorem Within.mono {a : α} (h : Within w a) {w' : Window} (hfirst : w'.first ≤ w.first)
    (hreached : w.reached ≤ w'.reached) : Within w' a :=
  ⟨h.ascends, fun m hm =>
    ⟨Nat.le_trans hfirst (h.all m hm).1, Nat.le_trans (h.all m hm).2 hreached⟩⟩

instance inOrder_val (a : Found w α) : InOrder a.val := a.inOrder

instance within_val (a : Found w α) : Within w a.val := a.within

instance (priority := low) within_on (a : α) [h : Within w a] (n : Nat) : Within (w.on n) a :=
  h.mono (Nat.le_refl _) (Nat.le_add_right _ _)

instance within_markless [Markless α] (a : α) : Within w a :=
  ⟨by simp [Markless.marks_eq, Ascends], by simp [Markless.marks_eq]⟩

/-! ### Types -/

instance tracedPlain [Plain α] : Traced α := ⟨fun _ => [], fun _ => []⟩

instance tracedMark : Traced Mark := ⟨fun _ => [], fun m => [m]⟩

instance tracedNode : Traced Node := ⟨fun n => [n], fun _ => []⟩

instance tracedKey : Traced Key := ⟨Key.parts, fun _ => []⟩

instance tracedDecorator : Traced Decorator := ⟨fun d => [d.expression], fun _ => []⟩

instance tracedMember : Traced Member := ⟨Member.parts, fun m => m.start?.toList⟩

instance tracedClass : Traced Class := ⟨fun c => [.classExpression none c], fun _ => []⟩

instance tracedList : Traced (List α) := ⟨(·.flatMap Traced.nodes), (·.flatMap Traced.marks)⟩

instance tracedOption : Traced (Option α) :=
  ⟨(·.toList.flatMap Traced.nodes), (·.toList.flatMap Traced.marks)⟩

instance tracedProd : Traced (α × β) :=
  ⟨fun p => Traced.nodes p.1 ++ Traced.nodes p.2, fun p => Traced.marks p.1 ++ Traced.marks p.2⟩

instance tracedSum : Traced (α ⊕ β) :=
  ⟨Sum.elim Traced.nodes Traced.nodes, Sum.elim Traced.marks Traced.marks⟩

instance plain_unit : Plain Unit where

instance plain_bool : Plain Bool where

instance plain_string : Plain String where

instance plain_token : Plain Token where

-- The mark of a token counts only if it has been reached, as `forward_current_bind` says of the
-- current one.
instance plain_lexeme : Plain Lexeme where

instance plain_state : Plain State where

instance plain_context : Plain Context where

instance markless_plain {γ : Type} [Plain γ] : Markless γ := ⟨fun _ => rfl⟩

instance markless_node : Markless Node := ⟨fun _ => rfl⟩

instance markless_key : Markless Key := ⟨fun _ => rfl⟩

instance markless_decorator : Markless Decorator := ⟨fun _ => rfl⟩

instance markless_class : Markless Class := ⟨fun _ => rfl⟩

instance markless_list [Markless α] : Markless (List α) :=
  ⟨fun l => by simp [Traced.marks, Markless.marks_eq]⟩

instance markless_option [Markless α] : Markless (Option α) :=
  ⟨fun o => by simp [Traced.marks, Markless.marks_eq]⟩

instance markless_prod [Markless α] [Markless β] : Markless (α × β) :=
  ⟨fun p => by simp [Traced.marks, Markless.marks_eq]⟩

instance markless_sum [Markless α] [Markless β] : Markless (α ⊕ β) :=
  ⟨fun x => by cases x <;> simp [Traced.marks, Markless.marks_eq]⟩

/-! ### Plain values and choices -/

instance inOrder_ite (b : Prop) [Decidable b] (a a' : α) [ha : InOrder a] [ha' : InOrder a'] :
    InOrder (if b then a else a') := by
  split
  · exact ha
  · exact ha'

instance inOrder_plain {γ : Type} [Plain γ] (a : γ) : InOrder a := ⟨by simp [Traced.nodes]⟩

/-! ### Lists and options -/

theorem inOrder_list_iff {l : List α} : InOrder l ↔ ∀ a ∈ l, InOrder a := by
  constructor
  · exact fun h a ha => ⟨fun n hn => h.all n (List.mem_flatMap.mpr ⟨a, ha, hn⟩)⟩
  · intro h
    refine ⟨fun n hn => ?_⟩
    obtain ⟨a, ha, hn⟩ := List.mem_flatMap.mp hn
    exact (h a ha).all n hn

theorem inOrder_option_iff {o : Option α} : InOrder o ↔ ∀ a ∈ o, InOrder a := by
  cases o with
  | none => exact ⟨by simp, fun _ => ⟨by simp [Traced.nodes]⟩⟩
  | some a =>
    constructor
    · rintro h _ ⟨⟩
      exact ⟨fun n hn => h.all n (by simpa [Traced.nodes] using hn)⟩
    · exact fun h => ⟨fun n hn => (h a rfl).all n (by simpa [Traced.nodes] using hn)⟩

instance inOrder_nil : InOrder ([] : List α) := inOrder_list_iff.mpr (by simp)

instance inOrder_option_plain {γ : Type} [Plain γ] (o : Option γ) : InOrder o :=
  inOrder_option_iff.mpr fun _ _ => inferInstance

theorem inOrder_cons_iff {a : α} {l : List α} : InOrder (a :: l) ↔ InOrder a ∧ InOrder l := by
  simp [inOrder_list_iff]

instance inOrder_cons (a : α) (l : List α) [ha : InOrder a] [hl : InOrder l] : InOrder (a :: l) :=
  inOrder_cons_iff.mpr ⟨ha, hl⟩

theorem inOrder_append_iff {l l' : List α} : InOrder (l ++ l') ↔ InOrder l ∧ InOrder l' := by
  simp [inOrder_list_iff, or_imp, forall_and]

instance inOrder_append (l l' : List α) [hl : InOrder l] [hl' : InOrder l'] : InOrder (l ++ l') :=
  inOrder_append_iff.mpr ⟨hl, hl'⟩

instance inOrder_reverse (l : List α) [hl : InOrder l] : InOrder l.reverse := by
  rw [inOrder_list_iff] at *
  simpa using hl

instance inOrder_flatten (ls : List (List α)) [hls : InOrder ls] : InOrder ls.flatten := by
  simp only [inOrder_list_iff, List.mem_flatten] at *
  rintro a ⟨l, hl, ha⟩
  exact hls l hl a ha

theorem inOrder_map {l : List α} {f : α → β} (hl : InOrder l)
    (hf : ∀ a, InOrder a → InOrder (f a)) : InOrder (l.map f) := by
  simp only [inOrder_list_iff, List.mem_map] at *
  rintro _ ⟨a, ha, rfl⟩
  exact hf a (hl a ha)

instance inOrder_none : InOrder (none : Option α) := inOrder_option_iff.mpr (by simp)

instance inOrder_some (a : α) [ha : InOrder a] : InOrder (some a) :=
  inOrder_option_iff.mpr (by simpa using ha)

instance inOrder_toList (o : Option α) [ho : InOrder o] : InOrder o.toList := by
  rw [inOrder_list_iff]
  simpa [Option.mem_toList] using inOrder_option_iff.mp ho

instance inOrder_getD (o : Option α) (a : α) [ho : InOrder o] [ha : InOrder a] :
    InOrder (o.getD a) := by
  cases o with
  | none => exact ha
  | some b => exact inOrder_option_iff.mp ho b rfl

instance inOrder_orElse (o o' : Option α) [ho : InOrder o] [ho' : InOrder o'] :
    InOrder (o <|> o') := by
  cases o with
  | none => exact ho'
  | some a => exact ho

instance inOrder_prod (a : α) (b : β) [ha : InOrder a] [hb : InOrder b] : InOrder (a, b) :=
  ⟨by simpa [Traced.nodes, or_imp, forall_and] using ⟨ha.all, hb.all⟩⟩

theorem InOrder.fst {p : α × β} (h : InOrder p) : InOrder p.1 :=
  ⟨fun n hn => h.all n (List.mem_append_left _ hn)⟩

theorem InOrder.snd {p : α × β} (h : InOrder p) : InOrder p.2 :=
  ⟨fun n hn => h.all n (List.mem_append_right _ hn)⟩

theorem Within.fst {p : α × β} (h : Within w p) : Within w p.1 :=
  ⟨(List.pairwise_append.mp h.ascends).1, fun m hm => h.all m (List.mem_append_left _ hm)⟩

theorem Within.snd {p : α × β} (h : Within w p) : Within w p.2 :=
  ⟨(List.pairwise_append.mp h.ascends).2.1, fun m hm => h.all m (List.mem_append_right _ hm)⟩

instance inOrder_inl (a : α) [ha : InOrder a] : InOrder (.inl a : α ⊕ β) := ⟨ha.all⟩

instance inOrder_inr (b : β) [hb : InOrder b] : InOrder (.inr b : α ⊕ β) := ⟨hb.all⟩

theorem within_nil : Within w ([] : List α) := ⟨List.Pairwise.nil, by simp [Traced.marks]⟩

instance within_none : Within w (none : Option α) := ⟨List.Pairwise.nil, by simp [Traced.marks]⟩

theorem within_some_iff {a : α} : Within w (some a) ↔ Within w a := by
  have hmarks : Traced.marks (some a) = Traced.marks a := by simp [Traced.marks]
  exact ⟨fun h => ⟨hmarks ▸ h.ascends, hmarks ▸ h.all⟩,
    fun h => ⟨hmarks ▸ h.ascends, hmarks ▸ h.all⟩⟩

instance within_some (a : α) [h : Within w a] : Within w (some a) := within_some_iff.mpr h

/-! ### Nodes -/

theorem inOrder_node_iff {n : Node} : InOrder n ↔ n.InOrder :=
  ⟨fun h => h.all n List.mem_cons_self, fun h => ⟨by simpa [Traced.nodes] using h⟩⟩

theorem inOrder_nodes_iff {ns : List Node} : InOrder ns ↔ ∀ n ∈ ns, n.InOrder := by
  simp only [inOrder_list_iff, inOrder_node_iff]

theorem inOrder_class_iff {c : Class} :
    InOrder c ↔ Ascends c.starts ∧ InOrder c.parts := by
  have hc : InOrder c ↔ (Node.classExpression none c).InOrder :=
    ⟨fun h => h.all _ List.mem_cons_self, fun h => ⟨by simpa [Traced.nodes] using h⟩⟩
  rw [hc, inOrder_nodes_iff]
  exact ⟨fun h => ⟨h.own rfl, h.parts⟩,
    fun h => .mk (by simpa [Node.class?] using h.1) (by simp [Node.className?]) h.2⟩

theorem inOrder_of_parts {n : Node} (hc : ∀ c, n.class? = some c → InOrder c)
    (hname : ∀ name, n.className? = some name → IsIdentifier name) (hparts : InOrder n.parts) :
    InOrder n :=
  inOrder_node_iff.mpr
    (.mk (fun c h => (inOrder_class_iff.mp (hc c h)).1) hname (inOrder_nodes_iff.mp hparts))

instance inOrder_form (f : Form) (parts : List Node) [h : InOrder parts] :
    InOrder (Node.form f parts) :=
  inOrder_of_parts (by simp [Node.class?]) (by simp [Node.className?]) h

instance inOrder_leaf (f : Form) : InOrder (Node.leaf f) := inOrder_form f []

/-- That a class may be called so: by an identifier or not at all. -/
class Named (name : Option String) : Prop where
  isIdentifier : ∀ n, name = some n → IsIdentifier n

instance inOrder_classDeclaration (name : String) (c : Class) [hname : Named (some name)]
    [h : InOrder c] : InOrder (Node.classDeclaration name c) :=
  inOrder_of_parts (by simpa [Node.class?] using h) (fun _ => hname.isIdentifier _)
    (inOrder_class_iff.mp h).2

instance inOrder_classExpression (name : Option String) (c : Class) [hname : Named name]
    [h : InOrder c] : InOrder (Node.classExpression name c) :=
  inOrder_of_parts (by simpa [Node.class?] using h) (fun _ => hname.isIdentifier _)
    (inOrder_class_iff.mp h).2

instance inOrder_exportedDefault (keyword : Mark) (name : Option String) (c : Class)
    [hname : Named name] [h : InOrder c] : InOrder (Node.exportedDefault keyword name c) :=
  inOrder_of_parts (by simpa [Node.class?] using h) (fun _ => hname.isIdentifier _)
    (inOrder_class_iff.mp h).2

instance inOrder_exported (keyword : Mark) (n : Node) [InOrder n] :
    InOrder (Node.exported keyword n) :=
  inOrder_of_parts (by simp [Node.class?]) (by simp [Node.className?]) (inOrder_cons n [])

theorem inOrder_form_iff {f : Form} {parts : List Node} :
    InOrder (Node.form f parts) ↔ InOrder parts :=
  ⟨fun h => inOrder_nodes_iff.mpr (inOrder_node_iff.mp h).parts, fun _ => inferInstance⟩

/-! ### Classes and their parts -/

instance inOrder_decorator (start : Mark) (e : Node) [h : InOrder e] :
    InOrder (Decorator.mk start e) :=
  ⟨h.all⟩

instance inOrder_expressions (ds : List Decorator) [h : InOrder ds] :
    InOrder (ds.map (·.expression)) :=
  inOrder_map h fun _ hd => ⟨hd.all⟩

instance inOrder_keyParts (key : Key) [h : InOrder key] : InOrder key.parts :=
  inOrder_nodes_iff.mpr h.all

instance inOrder_plainKey (name : String) : InOrder (Key.plain name) :=
  ⟨by simp [Traced.nodes, Key.parts]⟩

instance inOrder_secret (name : String) : InOrder (Key.secret name) :=
  ⟨by simp [Traced.nodes, Key.parts]⟩

instance inOrder_bigint : InOrder Key.bigint := ⟨by simp [Traced.nodes, Key.parts]⟩

instance inOrder_computed (e : Node) [h : InOrder e] : InOrder (Key.computed e) := ⟨h.all⟩

theorem inOrder_member_iff {m : Member} : InOrder m ↔ InOrder m.parts :=
  ⟨fun h => inOrder_nodes_iff.mpr h.all, fun h => ⟨inOrder_nodes_iff.mp h⟩⟩

instance inOrder_constructor (start key : Mark) (params body : List Node) [InOrder params]
    [InOrder body] : InOrder (Member.constructor start key params body) :=
  inOrder_member_iff.mpr (inOrder_append params body)

instance inOrder_method (start keyStart : Mark) (key : Key) (ds : List Decorator)
    (params body : List Node) [InOrder key] [InOrder ds] [InOrder params] [InOrder body] :
    InOrder (Member.method start keyStart key ds params body) :=
  inOrder_member_iff.mpr
    (inferInstanceAs (InOrder (key.parts ++ params ++ ds.map (·.expression) ++ body)))

instance inOrder_property (start keyStart : Mark) (key : Key) (ds : List Decorator)
    (value : List Node) [InOrder key] [InOrder ds] [InOrder value] :
    InOrder (Member.property start keyStart key ds value) :=
  inOrder_member_iff.mpr (inferInstanceAs (InOrder (key.parts ++ value ++ ds.map (·.expression))))

instance inOrder_accessor (key : Key) (ds : List Decorator) (value : List Node) [InOrder key]
    [InOrder ds] [InOrder value] : InOrder (Member.accessor key ds value) :=
  inOrder_member_iff.mpr (inferInstanceAs (InOrder (key.parts ++ value ++ ds.map (·.expression))))

instance inOrder_nameless (parts : List Node) [h : InOrder parts] :
    InOrder (Member.nameless parts) :=
  inOrder_member_iff.mpr h

theorem within_member {m : Member} (h : ∀ start ∈ m.start?, Within w start) : Within w m := by
  cases hstart : m.start? with
  | none => exact ⟨by simp [Traced.marks, hstart, Ascends], by simp [Traced.marks, hstart]⟩
  | some start =>
    have hwithin := h start hstart
    exact ⟨by simp [Traced.marks, hstart, Ascends],
      by simpa [Traced.marks, hstart] using hwithin.all⟩

instance within_constructor (start key : Mark) (params body : List Node) [h : Within w start] :
    Within w (Member.constructor start key params body) :=
  within_member (by simpa [Member.start?] using h)

instance within_method (start keyStart : Mark) (key : Key) (ds : List Decorator)
    (params body : List Node) [h : Within w start] :
    Within w (Member.method start keyStart key ds params body) :=
  within_member (by simpa [Member.start?] using h)

instance within_property (start keyStart : Mark) (key : Key) (ds : List Decorator)
    (value : List Node) [h : Within w start] :
    Within w (Member.property start keyStart key ds value) :=
  within_member (by simpa [Member.start?] using h)

instance within_accessor (key : Key) (ds : List Decorator) (value : List Node) :
    Within w (Member.accessor key ds value) :=
  within_member (by simp [Member.start?])

instance within_nameless (parts : List Node) : Within w (Member.nameless parts) :=
  within_member (by simp [Member.start?])

theorem inOrder_class {start : Mark} {ds : List Decorator} {members : List Member}
    {heritage : List Node} (hstart : start.line ≤ w.first) (hmembers : Within w members)
    [InOrder ds] [hm : InOrder members] [InOrder heritage] :
    InOrder (Class.mk start ds members heritage) := by
  have hstarts : members.filterMap Member.start? = Traced.marks members :=
    List.filterMap_eq_flatMap_toList _ _
  have hparts : InOrder (members.flatMap Member.parts) := by
    simp only [inOrder_list_iff, List.mem_flatMap] at *
    rintro n ⟨m, hm', hn⟩
    exact inOrder_list_iff.mp (inOrder_member_iff.mp (hm m hm')) n hn
  rw [inOrder_class_iff]
  refine ⟨?_, inferInstanceAs
    (InOrder (ds.map (·.expression) ++ members.flatMap Member.parts ++ heritage))⟩
  rw [Class.starts, hstarts, Ascends, List.pairwise_cons]
  exact ⟨fun m hm => Nat.le_trans hstart (hmembers.all m hm).1, hmembers.ascends⟩

end

end DocAnnotations.Script
