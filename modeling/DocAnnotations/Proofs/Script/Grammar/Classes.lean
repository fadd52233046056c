import DocAnnotations.Proofs.Script.Grammar.Names
import DocAnnotations.Script.Grammar.Class

/-! # Types, functions and classes go forward -/

namespace DocAnnotations.Script

open Script.Parser Grammar

variable {α : Type} [Traced α] {w : Window} {r : Rules} [∀ w p, Forward w (r p)]

/-! ## Templates -/

instance forward_templateItems (tagged : Bool) (item : Parser α) [∀ w, Forward w item]
    [Markless α] : Forward w (templateItems tagged item) := by
  unfold templateItems
  refine Forward.iterate (fun w found => ?_) []
  refine forward_get_bind fun s hs => ?_
  split
  · infer_instance
  · rename_i chunk _
    have hmove : Forward w (moveTo false (s.line + chunk.ends) chunk.rest) :=
      forward_moveTo _ _ (Nat.le_add_right_of_le hs.le_line)
    infer_instance

/-! ## Types -/

instance forward_qualifiers : Forward w qualifiers := by
  unfold qualifiers
  refine Forward.bind (Forward.many fun w => ?_) fun _ _ _ _ => inferInstance
  refine Forward.bind inferInstance fun n b _ _ => ?_
  split
  · refine Forward.bind inferInstance fun n t _ _ => ?_
    split <;> infer_instance
  · infer_instance

instance forward_qualifiedName : Forward w qualifiedName := by
  unfold qualifiedName
  infer_instance

instance forward_appliedTypes : Forward w (appliedTypes r) := by
  unfold appliedTypes
  infer_instance

instance forward_expectMemberEnd : Forward w expectMemberEnd := by
  unfold expectMemberEnd
  infer_instance

instance forward_atIndexSignature : Forward w atIndexSignature := by
  unfold atIndexSignature
  infer_instance

set_option synthInstance.maxSize 2048 in
instance forward_indexSignature : Forward w (indexSignature r) := by
  unfold indexSignature
  infer_instance

instance forward_signature (mark : Punct) : Forward w (signature r mark) := by
  unfold signature
  infer_instance

instance forward_typeMemberKey : Forward w (typeMemberKey r) := by
  unfold typeMemberKey
  refine Forward.bind inferInstance fun n t _ _ => ?_
  split <;> infer_instance

set_option synthInstance.maxSize 512 in
instance forward_typeAccessor : Forward w (typeAccessor r) := by
  unfold typeAccessor
  infer_instance

set_option synthInstance.maxSize 8192 in
instance forward_typeMember : Forward w (typeMember r) := by
  unfold typeMember
  refine .bind inferInstance fun n _ _ _ => .bind inferInstance fun n _ _ _ => ?_
  refine .ite inferInstance ?_
  exact .bind inferInstance fun n _ _ _ => inferInstance

instance forward_typeMembers : Forward w (typeMembers r) := by
  unfold typeMembers
  infer_instance

instance forward_atMappedType : Forward w atMappedType := by
  unfold atMappedType
  infer_instance

instance forward_mappedMark (eatMark : Parser Bool) [∀ w, Forward w eatMark] :
    Forward w (mappedMark eatMark) := by
  unfold mappedMark
  infer_instance

set_option synthInstance.maxSize 512 in
instance forward_mappedType : Forward w (mappedType r) := by
  unfold mappedType
  infer_instance

instance forward_tupleLabel : Forward w tupleLabel := by
  unfold tupleLabel
  infer_instance

instance forward_tupleItem : Forward w (tupleItem r) := by
  unfold tupleItem
  infer_instance

set_option synthInstance.maxSize 8192 in
instance forward_importType : Forward w (importType r) := by
  unfold importType
  infer_instance

instance forward_valueType : Forward w (valueType r) := by
  unfold valueType
  infer_instance

instance forward_selfType : Forward w (selfType r) := by
  unfold selfType
  infer_instance

instance forward_namedType : Forward w (namedType r) := by
  unfold namedType
  infer_instance

instance forward_wordType (name : String) (escaped : Bool) :
    Forward w (wordType r name escaped) := by
  unfold wordType
  infer_instance

instance forward_simpleType : Forward w (simpleType r) := by
  unfold simpleType
  refine Forward.bind inferInstance fun n t _ _ => ?_
  split
  case h_5 =>
    -- What stands behind a minus sign is looked at once more.
    refine Forward.bind inferInstance fun n _ _ _ => ?_
    refine Forward.bind inferInstance fun n t _ _ => ?_
    split <;> infer_instance
  all_goals infer_instance

set_option synthInstance.maxSize 2048 in
instance forward_arrayType : Forward w (arrayType r) := by
  unfold arrayType
  infer_instance

set_option synthInstance.maxSize 512 in
instance forward_joinedTypes (mark : Punct) (item : Parser Node) [∀ w, Forward w item] :
    Forward w (joinedTypes mark item) := by
  unfold joinedTypes
  infer_instance

instance forward_atFunctionType : Forward w (atFunctionType r) := by
  unfold atFunctionType
  infer_instance

set_option synthInstance.maxSize 512 in
instance forward_unconditionalType : Forward w (unconditionalType r) := by
  unfold unconditionalType
  infer_instance

set_option synthInstance.maxSize 512 in
instance forward_inferredType : Forward w (inferredType r) := by
  unfold inferredType
  infer_instance

instance forward_operatorType : Forward w (operatorType r) := by
  unfold operatorType
  infer_instance

set_option synthInstance.maxSize 512 in
instance forward_type : Forward w (type r) := by
  unfold type
  infer_instance

/-! ## Functions -/

instance tracedFunctionParts : Traced FunctionParts := ⟨FunctionParts.nodes, fun _ => []⟩

instance markless_functionParts : Markless FunctionParts := ⟨fun _ => rfl⟩

theorem inOrder_functionParts_iff {f : FunctionParts} :
    InOrder f ↔ InOrder f.parameterNodes ∧ InOrder (f.body.getD []) ∧ InOrder f.types := by
  have hf : InOrder f ↔ InOrder f.nodes :=
    ⟨fun h => inOrder_nodes_iff.mpr h.all, fun h => ⟨inOrder_nodes_iff.mp h⟩⟩
  rw [hf, FunctionParts.nodes, FunctionParts.bodyNodes, inOrder_append_iff, inOrder_append_iff]

section

variable (f : FunctionParts) [h : InOrder f]

instance inOrder_parameterNodes : InOrder f.parameterNodes := (inOrder_functionParts_iff.mp h).1

instance inOrder_body : InOrder (f.body.getD []) := (inOrder_functionParts_iff.mp h).2.1

instance inOrder_bodyNodes : InOrder f.bodyNodes :=
  inOrder_append_iff.mpr (inOrder_functionParts_iff.mp h).2

instance inOrder_nodes : InOrder f.nodes := inOrder_append f.parameterNodes f.bodyNodes

end

instance inOrder_functionParts (ps : List Parameter) (body : Option (List Node)) (types : List Node)
    [InOrder ps] [InOrder body] [InOrder types] : InOrder (FunctionParts.mk ps body types) :=
  inOrder_functionParts_iff.mpr
    ⟨inferInstanceAs (InOrder (ps.map Parameter.node)), inferInstance, inferInstance⟩

instance forward_statements : Forward w (statements r) := by
  unfold statements
  infer_instance

instance forward_block : Forward w (block r) := by
  unfold block
  infer_instance

instance forward_functionBody : Forward w (functionBody r) := by
  unfold functionBody
  infer_instance

instance forward_functionParts (isAsync isGenerator : Bool) (params : Parser (List Parameter))
    [∀ w, Forward w params] : Forward w (functionParts r isAsync isGenerator params) := by
  unfold functionParts
  infer_instance

instance forward_arrowBody (isAsync : Bool) : Forward w (arrowBody r isAsync) := by
  unfold arrowBody
  infer_instance

instance forward_functionBehindKeyword (isAsync : Bool) (name : Parser Unit) [∀ w, Forward w name] :
    Forward w (functionBehindKeyword r isAsync name) := by
  unfold functionBehindKeyword
  infer_instance

instance forward_functionExpression : Forward w (functionExpression r) := by
  unfold functionExpression
  infer_instance

instance forward_functionDeclaration (isNamed : Bool) (ds : List Decorator) [InOrder ds] :
    Forward w (functionDeclaration r isNamed ds) := by
  unfold functionDeclaration
  infer_instance

/-! ## Members -/

instance tracedMemberHead : Traced MemberHead :=
  ⟨fun head => Traced.nodes head.decorators, fun head => [head.start]⟩

section

variable (head : MemberHead)

instance inOrder_headDecorators [h : InOrder head] : InOrder head.decorators := ⟨h.all⟩

instance within_headStart [h : Within w head] : Within w head.start := ⟨h.ascends, h.all⟩

end

instance inOrder_memberHead (start : Mark) (ds : List Decorator) (isStatic isReadonly : Bool)
    [h : InOrder ds] : InOrder (MemberHead.mk start ds isStatic isReadonly) :=
  ⟨h.all⟩

instance within_memberHead (start : Mark) (ds : List Decorator) (isStatic isReadonly : Bool)
    [h : Within w start] : Within w (MemberHead.mk start ds isStatic isReadonly) :=
  ⟨h.ascends, h.all⟩

instance forward_atMethod : Forward w atMethod := by
  unfold atMethod
  infer_instance

instance forward_atProperty (ends : Parser Bool) [∀ w, Forward w ends] :
    Forward w (atProperty ends) := by
  unfold atProperty
  infer_instance

instance forward_optionalMark : Forward w optionalMark := by
  unfold optionalMark
  infer_instance

set_option synthInstance.maxSize 512 in
instance forward_propertyRest : Forward w (propertyRest r) := by
  unfold propertyRest
  infer_instance

section

variable (head : MemberHead) [InOrder head] [Within w head]

instance forward_methodRest (keyStart : Mark) (key : Key) [InOrder key]
    (isAsync isGenerator : Bool) :
    Forward w (methodRest r head keyStart key isAsync isGenerator) := by
  unfold methodRest
  infer_instance

instance forward_constructorRest (keyStart : Mark) :
    Forward w (constructorRest r head keyStart) := by
  unfold constructorRest
  infer_instance

instance forward_property (keyStart : Mark) (key : Key) [InOrder key] :
    Forward w (property r head keyStart key) := by
  unfold property
  infer_instance

set_option synthInstance.maxSize 512 in
instance forward_memberNamed? (keyStart : Mark) (key : Key) [InOrder key] (ends : Parser Bool)
    [∀ w, Forward w ends] : Forward w (memberNamed? r head keyStart key ends) := by
  unfold memberNamed?
  infer_instance

set_option synthInstance.maxSize 512 in
instance forward_memberRest : Forward w (memberRest r head) := by
  unfold memberRest
  refine @forward_current_bind _ _ _ _ fun n keyStart => ?_
  refine .bind inferInstance fun n _ _ _ => .ite inferInstance ?_
  refine .bind inferInstance fun n word _ _ => .bind inferInstance fun n key _ _ => ?_
  refine .bind inferInstance fun n _ _ _ => .bind inferInstance fun n isMethod _ _ => ?_
  refine .ite inferInstance ?_
  refine .bind inferInstance fun n _ _ _ => .bind inferInstance fun n _ _ _ => ?_
  refine .bind inferInstance fun n _ _ _ => .bind inferInstance fun n isProperty _ _ => ?_
  refine .ite inferInstance ?_
  exact .bind inferInstance fun n _ _ _ => inferInstance

instance forward_accessorRest : Forward w (accessorRest r head) := by
  unfold accessorRest
  infer_instance

end

instance forward_staticBlock : Forward w (staticBlock r) := by
  unfold staticBlock
  infer_instance

set_option synthInstance.maxSize 8192 in
instance forward_memberBehindStatic (head : MemberHead) (access : Option String) [InOrder head]
    [Within w head] : Forward w (memberBehindStatic r head access) := by
  unfold memberBehindStatic
  refine .bind inferInstance fun n marks _ _ => .bind inferInstance fun n _ _ _ => ?_
  exact .ite inferInstance inferInstance

set_option synthInstance.maxSize 8192 in
instance forward_member : Forward w (member r) := by
  unfold member
  refine @forward_current_bind _ _ _ _ fun n start => .bind inferInstance fun n ds _ _ => ?_
  refine @forward_current_bind _ _ _ _ fun n early => .bind inferInstance fun n _ _ _ => ?_
  -- `declare` may stand in front of the access modifier or behind it.
  refine .ite (.bind inferInstance fun n declares _ _ => ?_)
    (.bind inferInstance fun n declares _ _ => ?_)
  all_goals
    refine .bind inferInstance fun n access _ _ => @forward_current_bind _ _ _ _ fun n late => ?_
    refine .bind inferInstance fun n _ _ _ => ?_
    exact .ite (.bind inferInstance fun n _ _ _ => inferInstance)
      (.bind inferInstance fun n _ _ _ => inferInstance)

/-! ## The class -/

instance forward_heritageItem : Forward w (heritageItem r) := by
  unfold heritageItem
  infer_instance

instance forward_heritageItems : Forward w (heritageItems r) := by
  unfold heritageItems
  infer_instance

instance forward_superClass : Forward w (superClass r) := by
  unfold superClass
  infer_instance

instance forward_extendsClause : Forward w (extendsClause r) := by
  unfold extendsClause
  infer_instance

instance forward_implementsClause : Forward w (implementsClause r) := by
  unfold implementsClause
  infer_instance

/-- That a window starts with a mark. -/
class Opens (w : Window) (start : Mark) : Prop where
  le_first : start.line ≤ w.first

instance opens_on (start : Mark) [h : Opens w start] (n : Nat) : Opens (w.on n) start :=
  ⟨h.le_first⟩

instance opens_since (start : Mark) (h : start.line ≤ w.reached) : Opens (w.since start h) start :=
  ⟨Nat.le_refl _⟩

-- The order of a class is known where its members have been read from its own start on.
instance (priority := high) forward_pure_class [Markless α] (name : α) (start : Mark)
    (ds : List Decorator) (members : List Member) (heritage : List Node) [InOrder name]
    [hstart : Opens w start] [hmembers : Within w members] [InOrder ds] [InOrder members]
    [InOrder heritage] :
    Forward w (pure (name, Class.mk start ds members heritage) : Parser (α × Class)) := by
  have hclass : InOrder (Class.mk start ds members heritage) :=
    inOrder_class hstart.le_first hmembers
  exact forward_pure _

set_option synthInstance.maxSize 512 in
instance forward_classRest (start : Mark) (ds : List Decorator) (name : Parser α) [Markless α]
    [Within w start] [InOrder ds] [∀ w, Forward w name] :
    Forward w (classRest r start ds name) := by
  refine Forward.since start ?_
  unfold classRest
  refine .bind inferInstance fun n _ _ _ => .bind inferInstance fun n name _ _ => ?_
  refine .bind inferInstance fun n generic _ _ => .bind inferInstance fun n base _ _ => ?_
  refine .bind inferInstance fun n _ _ _ => ?_
  -- More than one class may be extended.
  refine .ite (.bind inferInstance fun n _ _ _ => ?_) ?_
  all_goals
    refine .bind inferInstance fun n _ _ _ => .bind inferInstance fun n interfaces _ _ => ?_
    exact .bind inferInstance fun n _ _ _ => .bind inferInstance fun n lateBase _ _ => inferInstance

/-! ## Names of classes -/

namespace ClassName

/-- Where classes are named, a text is traced as a class of that name. -/
scoped instance tracedName : Traced String :=
  ⟨fun name => [.classDeclaration name ⟨default, [], [], []⟩], fun _ => []⟩

scoped instance markless_name : Markless String := ⟨fun _ => rfl⟩

theorem inOrder_name_iff {name : String} : InOrder name ↔ IsIdentifier name := by
  constructor
  · intro h
    exact (h.all _ List.mem_cons_self).named rfl
  · intro h
    have hnamed : Named (some name) := ⟨fun _ hn => Option.some.inj hn ▸ h⟩
    have hclass : InOrder (Class.mk default [] [] []) :=
      inOrder_class (w := ⟨0, 0, Nat.le_refl 0⟩) (Nat.le_refl 0) within_nil
    exact ⟨(inOrder_classDeclaration name _).all⟩

scoped instance named_name (name : String) [h : InOrder name] : Named (some name) :=
  ⟨fun _ hn => Option.some.inj hn ▸ inOrder_name_iff.mp h⟩

scoped instance named_option (name : Option String) [h : InOrder name] : Named name :=
  ⟨fun n hn => inOrder_name_iff.mp (inOrder_option_iff.mp h n hn)⟩

scoped instance forward_declaredName : Forward w declaredName :=
  .declaredName fun _ => inOrder_name_iff.mpr

scoped instance forward_optionalName : Forward w optionalName :=
  .optionalName fun _ => inOrder_name_iff.mpr

end ClassName

section

open ClassName

variable (start : Mark) (ds : List Decorator) [Within w start] [InOrder ds]

instance forward_classDeclaration : Forward w (classDeclaration r start ds) := by
  unfold classDeclaration
  infer_instance

instance forward_classExpression : Forward w (classExpression r start ds) := by
  unfold classExpression
  infer_instance

end

end DocAnnotations.Script
