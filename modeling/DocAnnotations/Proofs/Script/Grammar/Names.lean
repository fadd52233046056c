import DocAnnotations.Proofs.Script.Forward
import DocAnnotations.Script.Grammar.Type

/-! # Names, patterns and types go forward -/

namespace DocAnnotations.Script

open Script.Parser Grammar

variable {α : Type} [Traced α] {w : Window}

/-! ## Names -/

section

/-! Names are looked at in two ways: as mere texts, and as names of classes. -/

variable [Traced String] [Markless String]

theorem Forward.anyName (hname : ∀ name, IsIdentifier name → InOrder name) :
    Forward w anyName := by
  unfold Grammar.anyName
  refine forward_token_bind fun t ht => ?_
  split
  · have := hname _ (ht _ _ rfl)
    infer_instance
  · infer_instance

theorem Forward.declaredName (hname : ∀ name, IsIdentifier name → InOrder name) :
    Forward w declaredName := by
  unfold Grammar.declaredName
  refine forward_token_bind fun t ht => ?_
  split
  · have := hname _ (ht _ _ rfl)
    infer_instance
  · infer_instance

theorem Forward.optionalName (hname : ∀ name, IsIdentifier name → InOrder name) :
    Forward w optionalName := by
  have hany : ∀ w, Forward w Grammar.anyName := fun _ => .anyName hname
  have hdeclared : ∀ w, Forward w Grammar.declaredName := fun _ => .declaredName hname
  unfold Grammar.optionalName
  infer_instance

end

instance forward_anyName : Forward w anyName := .anyName fun _ _ => inferInstance

instance forward_declaredName : Forward w declaredName := .declaredName fun _ _ => inferInstance

instance forward_plainName : Forward w plainName := by
  unfold plainName
  infer_instance

instance forward_optionalName : Forward w optionalName := .optionalName fun _ _ => inferInstance

instance forward_modifier (allowed : List String) : Forward w (modifier allowed) := by
  unfold modifier
  refine Forward.bind inferInstance fun n t _ _ => ?_
  split <;> infer_instance

instance forward_modifiers (allowed : List String) : Forward w (modifiers allowed) := by
  unfold modifiers
  infer_instance

instance forward_accessModifier : Forward w accessModifier := by
  unfold accessModifier
  infer_instance

instance forward_strayModifier : Forward w strayModifier := by
  unfold strayModifier
  infer_instance

/-! ## Where types are attached -/

instance forward_eatLess : Forward w eatLess := by
  unfold eatLess
  refine forward_get_bind fun s hs => ?_
  have hmove := forward_moveTo (w := w) false (s.current.text.drop 1) hs.le_start
  infer_instance

instance forward_atLess : Forward w atLess := by
  unfold atLess
  infer_instance

instance forward_angled (item : Parser α) [∀ w, Forward w item] : Forward w (angled item) := by
  unfold angled
  infer_instance

variable {r : Rules} [∀ w p, Forward w (r p)]

instance forward_typeArguments : Forward w (typeArguments r) := by
  unfold typeArguments
  infer_instance

instance forward_typeBehind (opens : Parser Bool) [Forward w opens] :
    Forward w (typeBehind r opens) := by
  unfold typeBehind
  infer_instance

instance forward_typeParameter : Forward w (typeParameter r) := by
  unfold typeParameter
  infer_instance

instance forward_typeParameters : Forward w (typeParameters r) := by
  unfold typeParameters
  infer_instance

instance forward_typeAnnotation : Forward w <| typeAnnotation r := by
  unfold typeAnnotation
  infer_instance

-- The size that is counted doubles wherever the search drops an argument that it does not need.
set_option synthInstance.maxSize 512 in
instance forward_returnType (mark : Punct) : Forward w (returnType r mark) := by
  unfold returnType
  infer_instance

instance forward_optionalReturnType : Forward w (optionalReturnType r) := by
  unfold optionalReturnType
  infer_instance

/-! ## Arguments and decorators -/

instance forward_withIn (p : Parser α) [Forward w p] : Forward w (withIn p) := by
  unfold withIn
  infer_instance

instance forward_enclosed (p : Parser α) [Forward w p] : Forward w (enclosed p) := by
  unfold enclosed
  infer_instance

instance forward_spreadable : Forward w (spreadable r) := by
  unfold spreadable
  infer_instance

instance forward_arguments : Forward w (arguments r) := by
  unfold arguments
  infer_instance

instance forward_dottedNames : Forward w dottedNames := by
  unfold dottedNames
  infer_instance

instance forward_decoratorCallee : Forward w (decoratorCallee r) := by
  unfold decoratorCallee
  infer_instance

set_option synthInstance.maxSize 512 in
instance forward_decorator : Forward w (decorator r) := by
  unfold decorator
  infer_instance

instance forward_decorators : Forward w (decorators r) := by
  unfold decorators
  infer_instance

/-! ## Keys -/

instance inOrder_sequence (es : List Node) [h : InOrder es] : InOrder (Grammar.sequence es) := by
  unfold Grammar.sequence
  split
  · exact inOrder_list_iff.mp h _ List.mem_cons_self
  · infer_instance

set_option synthInstance.maxSize 512 in
instance forward_propertyKey : Forward w (propertyKey r) := by
  unfold propertyKey
  refine Forward.bind inferInstance fun n t _ _ => ?_
  split <;> infer_instance

instance forward_secretName : Forward w secretName := by
  unfold secretName
  infer_instance

instance forward_memberKey : Forward w (memberKey r) := by
  unfold memberKey
  infer_instance

/-! ## Patterns -/

instance forward_initializer : Forward w (initializer r) := by
  unfold initializer
  infer_instance

instance forward_patternElement : Forward w (patternElement r) := by
  unfold patternElement
  infer_instance

instance forward_arrayPatternItem : Forward w (arrayPatternItem r) := by
  unfold arrayPatternItem
  infer_instance

set_option synthInstance.maxSize 512 in
instance forward_objectPatternItem : Forward w (objectPatternItem r) := by
  unfold objectPatternItem
  infer_instance

instance forward_ambientOptional : Forward w ambientOptional := by
  unfold ambientOptional
  infer_instance

set_option synthInstance.maxSize 512 in
instance forward_pattern : Forward w (pattern r) := by
  unfold pattern
  refine Forward.bind inferInstance fun n t _ _ => ?_
  split <;> infer_instance

/-! ## Parameters -/

instance tracedParameter : Traced Parameter := ⟨fun p => [p.node], fun _ => []⟩

instance markless_parameter : Markless Parameter := ⟨fun _ => rfl⟩

instance inOrder_parameter (ds : List Decorator) (p : Node) (types default : List Node)
    [InOrder ds] [InOrder p] [InOrder types] [InOrder default] :
    InOrder (Parameter.mk ds p types default) := by
  have hnode : InOrder (Parameter.mk ds p types default).node :=
    inferInstanceAs
      (InOrder (Node.form .parameter (ds.map (·.expression) ++ p :: types ++ default)))
  exact ⟨hnode.all⟩

instance inOrder_map_node (ps : List Parameter) [h : InOrder ps] :
    InOrder (ps.map Parameter.node) :=
  inOrder_map h fun _ hp => ⟨hp.all⟩

set_option synthInstance.maxSize 512 in
instance forward_singleParameter (ds : List Decorator) [InOrder ds] :
    Forward w (singleParameter r ds) := by
  unfold singleParameter
  infer_instance

set_option synthInstance.maxSize 512 in
instance forward_restParameter (ds : List Decorator) [InOrder ds] :
    Forward w (restParameter r ds) := by
  unfold restParameter
  infer_instance

instance forward_parameter : Forward w (parameter r) := by
  unfold parameter
  infer_instance

instance forward_parameters : Forward w (parameters r) := by
  unfold parameters
  infer_instance

set_option synthInstance.maxSize 2048 in
instance forward_constructorParameter : Forward w (constructorParameter r) := by
  unfold constructorParameter
  infer_instance

instance forward_typeSignature : Forward w (typeSignature r) := by
  unfold typeSignature
  infer_instance

end DocAnnotations.Script
