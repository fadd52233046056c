import DocAnnotations.Proofs.Script.Grammar.Classes
import DocAnnotations.Script.Grammar.Jsx
import DocAnnotations.Script.Grammar.Expression

/-! # Expressions go forward -/

namespace DocAnnotations.Script

open Script.Parser Grammar

variable {α : Type} [Traced α] {w : Window} {r : Rules} [∀ w p, Forward w (r p)]

/-! ## Expressions read as patterns -/

theorem inOrder_otherPattern (isBinding : Bool) {n : Node} (h : InOrder n) :
    InOrder (otherPattern isBinding n) := by
  unfold otherPattern
  split
  · exact h
  · infer_instance

instance inOrder_pure (a : α) [InOrder a] : InOrder (pure a : Option α) := inOrder_some a

theorem inOrder_bind {β : Type} [Traced β] {o : Option α} {f : α → Option β} (ho : InOrder o)
    (hf : ∀ a, InOrder a → InOrder (f a)) : InOrder (o >>= f) := by
  cases o with
  | none => exact inOrder_none
  | some a => exact hf a (inOrder_option_iff.mp ho a rfl)

theorem inOrder_option_map {β : Type} [Traced β] {o : Option α} {f : α → β} (ho : InOrder o)
    (hf : ∀ a, InOrder a → InOrder (f a)) : InOrder (o.map f) := by
  cases o with
  | none => exact inOrder_none
  | some a =>
    have ha := hf a (inOrder_option_iff.mp ho a rfl)
    exact inOrder_some (f a)

theorem inOrder_toPattern (isBinding : Bool) (n : Node) (h : InOrder n) :
    InOrder (toPattern isBinding n) := by
  refine toPattern.induct (fun isBinding n => InOrder n → InOrder (toPattern isBinding n))
    (fun isBinding items => InOrder items → InOrder (toItems isBinding items))
    (fun isBinding props => InOrder props → InOrder (toProperties isBinding props))
    (fun isBinding keySize parts => InOrder parts → InOrder (toKeyed isBinding keySize parts))
    ?object ?array ?assignment ?other ?noItem ?spreadItem ?hole ?item ?noProperty ?boundSpread
    ?assignedSpread ?keyed ?shorthand ?method ?noPart ?value ?key isBinding n h
  case object | array =>
    intro isBinding parts ih h
    rw [toPattern]
    exact inOrder_option_map (ih (inOrder_form_iff.mp h)) fun _ _ => inferInstance
  case assignment =>
    intro isBinding parts h
    have hparts := inOrder_form_iff.mp h
    rw [toPattern]
    infer_instance
  case other =>
    intro isBinding n hobject harray hassignment h
    have hother := inOrder_otherPattern isBinding h
    rw [toPattern.eq_4 isBinding n hobject harray hassignment]
    infer_instance
  case noItem =>
    intro isBinding _
    rw [toItems]
    infer_instance
  case spreadItem =>
    intro isBinding parts rest ihparts ihrest h
    obtain ⟨hspread, hrest⟩ := inOrder_cons_iff.mp h
    rw [toItems]
    refine inOrder_bind (ihparts (inOrder_form_iff.mp hspread)) fun _ _ => ?_
    exact inOrder_bind (ihrest hrest) fun _ _ => inferInstance
  case hole =>
    intro isBinding parts rest ih h
    obtain ⟨hhole, hrest⟩ := inOrder_cons_iff.mp h
    rw [toItems]
    exact inOrder_bind (ih hrest) fun _ _ => inferInstance
  case item =>
    intro isBinding n rest hspread hhole ihn ihrest h
    obtain ⟨hn, hrest⟩ := inOrder_cons_iff.mp h
    rw [toItems.eq_4 isBinding n rest hspread hhole]
    refine inOrder_bind (ihn hn) fun _ _ => ?_
    exact inOrder_bind (ihrest hrest) fun _ _ => inferInstance
  case noProperty =>
    intro isBinding _
    rw [toProperties]
    infer_instance
  case boundSpread =>
    intro parts rest ih h
    obtain ⟨hspread, hrest⟩ := inOrder_cons_iff.mp h
    have hparts := inOrder_map (inOrder_form_iff.mp hspread) fun _ => inOrder_otherPattern true
    rw [toProperties, if_pos rfl]
    refine inOrder_bind (inOrder_some _) fun _ _ => ?_
    exact inOrder_bind (ih hrest) fun _ _ => inferInstance
  case assignedSpread =>
    intro isBinding parts rest hassigned ihrest ihparts h
    obtain ⟨hspread, hrest⟩ := inOrder_cons_iff.mp h
    rw [toProperties, if_neg hassigned]
    refine inOrder_bind (ihparts (inOrder_form_iff.mp hspread)) fun _ _ => ?_
    exact inOrder_bind (ihrest hrest) fun _ _ => inferInstance
  case keyed =>
    intro isBinding keySize parts rest ihparts ihrest h
    obtain ⟨hproperty, hrest⟩ := inOrder_cons_iff.mp h
    rw [toProperties]
    refine inOrder_bind (ihparts (inOrder_form_iff.mp hproperty)) fun _ _ => ?_
    exact inOrder_bind (ihrest hrest) fun _ _ => inferInstance
  case shorthand =>
    intro isBinding parts rest ih h
    obtain ⟨hshorthand, hrest⟩ := inOrder_cons_iff.mp h
    have hparts := inOrder_form_iff.mp hshorthand
    rw [toProperties]
    exact inOrder_bind (ih hrest) fun _ _ => inferInstance
  case method =>
    intro props isBinding hnil hspread hproperty hshorthand h
    rw [toProperties.eq_5 isBinding props hnil hspread hproperty hshorthand]
    infer_instance
  case noPart =>
    intro isBinding keySize _
    rw [toKeyed]
    infer_instance
  case value =>
    intro isBinding part rest ih h
    obtain ⟨hpart, hrest⟩ := inOrder_cons_iff.mp h
    rw [toKeyed]
    exact inOrder_bind (ih hpart) fun _ _ => inferInstance
  case key =>
    intro isBinding part rest keySize ih h
    obtain ⟨hpart, hrest⟩ := inOrder_cons_iff.mp h
    rw [toKeyed]
    exact inOrder_bind (ih hrest) fun _ _ => inferInstance

theorem inOrder_assignmentTarget {n : Node} (h : InOrder n) : InOrder (assignmentTarget n) := by
  unfold assignmentTarget
  split
  · exact inOrder_toPattern false _ h
  · exact inOrder_toPattern false _ h
  · split <;> infer_instance

/-! ## Literals and objects -/

instance forward_template (tagged : Bool) : Forward w (template r tagged) := by
  unfold template
  infer_instance

instance forward_regularExpression : Forward w regularExpression := by
  unfold regularExpression
  refine forward_get_bind fun s hs => ?_
  split
  · rename_i rest _
    have hmove := forward_moveTo (w := w) true rest hs.le_start
    infer_instance
  · infer_instance

set_option synthInstance.maxSize 512 in
instance forward_arrayLiteral : Forward w (arrayLiteral r) := by
  unfold arrayLiteral
  infer_instance

instance forward_objectMethod (key : List Node) [InOrder key] (isAsync isGenerator : Bool) :
    Forward w (objectMethod r key isAsync isGenerator) := by
  unfold objectMethod
  infer_instance

set_option synthInstance.maxSize 2048 in
instance forward_objectItem : Forward w (objectItem r) := by
  unfold objectItem
  refine .bind inferInstance fun n _ _ _ => .ite inferInstance ?_
  refine .bind inferInstance fun n _ _ _ => .ite inferInstance ?_
  refine .bind inferInstance fun n _ _ _ => .bind inferInstance fun n word _ _ => ?_
  refine .bind inferInstance fun n key _ _ => .bind inferInstance fun n _ _ _ => ?_
  refine .bind inferInstance fun n next _ _ => .ite inferInstance ?_
  exact .bind inferInstance fun n _ _ _ => .ite inferInstance inferInstance

instance forward_objectLiteral : Forward w (objectLiteral r) := by
  unfold objectLiteral
  infer_instance

/-! ## Arrow functions and parentheses -/

instance tracedParenItem : Traced ParenItem := ⟨fun item => [item.node], fun _ => []⟩

instance markless_parenItem : Markless ParenItem := ⟨fun _ => rfl⟩

instance inOrder_itemNode (item : ParenItem) [h : InOrder item] : InOrder item.node := ⟨h.all⟩

instance inOrder_value (e : Node) [h : InOrder e] : InOrder (ParenItem.value e) := ⟨h.all⟩

instance inOrder_spread (e : Node) [h : InOrder e] : InOrder (ParenItem.spread e) := ⟨h.all⟩

instance inOrder_parameterItem (p : Node) [h : InOrder p] : InOrder (ParenItem.parameter p) :=
  ⟨h.all⟩

theorem inOrder_asParameters {items : List ParenItem} (h : InOrder items) :
    InOrder (asParameters items) := by
  unfold asParameters
  induction items with
  | nil => exact inOrder_some []
  | cons item items ih =>
    obtain ⟨hitem, hitems⟩ := inOrder_cons_iff.mp h
    have hnode : InOrder item.node := inferInstance
    rw [List.mapM_cons]
    refine inOrder_bind ?_ fun p _ => inOrder_bind (ih hitems) fun ps _ => inferInstance
    cases item with
    | value e | spread e => exact inOrder_toPattern true e hnode
    | parameter p => exact @inOrder_some _ _ p hnode

instance forward_branch (awaitsColon : Bool) (p : Parser α) [Forward w p] :
    Forward w (branch awaitsColon p) := by
  unfold branch
  infer_instance

instance forward_conditionalRest (test : Node) [InOrder test] :
    Forward w (conditionalRest r test) := by
  unfold conditionalRest
  infer_instance

set_option synthInstance.maxSize 512 in
instance forward_assignmentRest (target : Node) [h : InOrder target] :
    Forward w (assignmentRest r target) := by
  unfold assignmentRest
  refine .bind inferInstance fun n b _ _ => .ite ?_ ?_
  · have htarget := inOrder_assignmentTarget h
    split
    · rename_i p hp
      have := inOrder_option_iff.mp htarget p hp
      infer_instance
    · infer_instance
  · refine forward_get_bind fun s hs => ?_
    have hmove := fun rest => forward_moveTo (w := w.on n) false rest hs.le_line
    dsimp only
    split <;> infer_instance

set_option synthInstance.maxSize 2048 in
instance forward_parenValue : Forward w (parenValue r) := by
  unfold parenValue
  infer_instance

instance forward_parenQuestion (item : ParenItem) [InOrder item] :
    Forward w (parenQuestion r item) := by
  unfold parenQuestion
  have hnode : InOrder item.node := inferInstance
  cases item with
  | value e | spread e | parameter e =>
    have he : InOrder e := hnode
    refine .bind inferInstance fun _ _ _ _ => .bind inferInstance fun _ _ _ _ => ?_
    refine .ite (.bind inferInstance fun _ _ _ _ => .ite ?_ inferInstance) inferInstance
    refine .bind inferInstance fun _ _ _ _ => ?_
    split <;> infer_instance

set_option synthInstance.maxSize 512 in
instance forward_parenItem : Forward w (parenItem r) := by
  unfold parenItem
  refine .bind inferInstance fun _ _ _ _ => .bind inferInstance fun _ value _ _ => ?_
  refine .bind inferInstance fun _ result hresult _ => ?_
  obtain ⟨item, isOptional⟩ := result
  have hitem : InOrder item := hresult.fst
  have hpattern := inOrder_toPattern true item.node inferInstance
  refine .bind inferInstance fun _ _ _ _ => .bind inferInstance fun _ _ _ _ => .ite ?_ inferInstance
  split
  · infer_instance
  · rename_i p hp
    have := inOrder_option_iff.mp hpattern p hp
    infer_instance

instance forward_parenItems : Forward w (parenItems r) := by
  unfold parenItems
  infer_instance

instance forward_arrowRest (items : List ParenItem) (types : List Node) (isAsync : Bool)
    [h : InOrder items] [InOrder types] : Forward w (arrowRest r items types isAsync) := by
  unfold arrowRest
  refine .bind inferInstance fun _ _ _ _ => ?_
  split
  · rename_i ps hps
    have := inOrder_option_iff.mp (inOrder_asParameters h) ps hps
    infer_instance
  · infer_instance

set_option synthInstance.maxSize 512 in
instance forward_arrowInBranch (items : List ParenItem) (isAsync : Bool) [InOrder items] :
    Forward w (arrowInBranch r items isAsync) := by
  unfold arrowInBranch
  infer_instance

instance forward_parenValues (items : List ParenItem) [h : InOrder items] :
    Forward w (parenValues items) := by
  unfold parenValues
  refine .mapM (fun w item _ => ?_) h
  have hnode : InOrder item.node := inferInstance
  cases item with
  | value e | spread e =>
    have he : InOrder e := hnode
    infer_instance
  | parameter p => infer_instance

instance forward_parenthesis (mayBeArrow isAsync : Bool) :
    Forward w (parenthesis r mayBeArrow isAsync) := by
  unfold parenthesis
  refine .bind inferInstance fun _ items _ _ => .bind inferInstance fun _ f hf _ => ?_
  cases f with
  | some f =>
    have := inOrder_option_iff.mp hf f rfl
    infer_instance
  | none =>
    refine .bind inferInstance fun _ _ _ _ => .bind inferInstance fun _ _ _ _ => ?_
    refine .bind inferInstance fun _ _ _ _ => .ite ?_ ?_
    all_goals
      refine .bind inferInstance fun _ result _ _ => ?_
      refine .bind inferInstance fun _ _ _ _ => .ite inferInstance ?_
      refine .bind inferInstance fun _ _ _ _ => .ite inferInstance ?_
      split <;> infer_instance

instance forward_genericAsyncArrow : Forward w (genericAsyncArrow r) := by
  unfold genericAsyncArrow
  infer_instance

set_option synthInstance.maxSize 512 in
instance forward_asyncArrow : Forward w (asyncArrow r) := by
  unfold asyncArrow
  infer_instance

set_option synthInstance.maxSize 512 in
instance forward_nameOrArrow (mayBeArrow : Bool) (name : String) :
    Forward w (nameOrArrow r mayBeArrow name) := by
  unfold nameOrArrow
  infer_instance

/-! ## Primary expressions -/

set_option synthInstance.maxSize 512 in
instance forward_asyncOperand (mayBeArrow : Bool) : Forward w (asyncOperand r mayBeArrow) := by
  unfold asyncOperand
  infer_instance

instance forward_wordOperand (mayBeArrow : Bool) (name : String) :
    Forward w (wordOperand r mayBeArrow name) := by
  unfold wordOperand
  infer_instance

instance forward_primary (mayBeArrow : Bool) : Forward w (primary r mayBeArrow) := by
  unfold primary
  refine @forward_current_bind _ _ _ _ fun n l => .bind inferInstance fun _ t _ _ => ?_
  split
  case h_13 =>
    -- What stands behind decorators is looked at once more.
    refine .bind inferInstance fun _ ds _ _ => .bind inferInstance fun _ t _ _ => ?_
    split <;> infer_instance
  all_goals infer_instance

/-! ## Calls and members -/

instance forward_instantiation : Forward w (instantiation r) := by
  unfold instantiation
  refine .bind inferInstance fun _ _ _ _ => .bind inferInstance fun _ _ _ _ => .ite ?_ inferInstance
  refine @forward_attempt _ _ _ _ ?_
  refine .bind inferInstance fun _ _ _ _ => .bind inferInstance fun _ next _ _ => ?_
  split <;> infer_instance

instance forward_memberName : Forward w memberName := by
  unfold memberName
  infer_instance

section

variable (noCall noComputed : Bool) (e : Node) [InOrder e]

set_option synthInstance.maxSize 512 in
instance forward_genericCall : Forward w (genericCall r noCall e) := by
  unfold genericCall
  infer_instance

set_option synthInstance.maxSize 2048 in
instance forward_optionalAccess : Forward w (optionalAccess r noComputed e) := by
  unfold optionalAccess
  infer_instance

set_option synthInstance.maxSize 8192 in
instance forward_access : Forward w (access r noCall noComputed e) := by
  unfold access
  refine .bind inferInstance fun n _ _ _ => .bind inferInstance fun n _ _ _ => ?_
  exact .bind inferInstance fun n _ _ _ => .ite inferInstance inferInstance

instance forward_accesses : Forward w (accesses r noCall noComputed e) := by
  unfold accesses
  infer_instance

end

instance forward_importOperand (noCall : Bool) : Forward w (importOperand r noCall) := by
  unfold importOperand
  infer_instance

set_option synthInstance.maxSize 8192 in
instance forward_construction : Forward w (construction r) := by
  unfold construction
  infer_instance

set_option synthInstance.maxSize 512 in
instance forward_callee (mayBeArrow : Bool) : Forward w (callee r mayBeArrow) := by
  unfold callee
  infer_instance

instance forward_atElement : Forward w atElement := by
  unfold atElement
  infer_instance

instance forward_element : Forward w (element r) := by
  unfold element
  infer_instance

set_option synthInstance.maxSize 8192 in
instance forward_leftHand (mayBeArrow : Bool) : Forward w (leftHand r mayBeArrow) := by
  unfold leftHand
  infer_instance

instance forward_heritage : Forward w (heritage r) := by
  unfold heritage
  infer_instance

/-! ## Operators -/

set_option synthInstance.maxSize 2048 in
instance forward_awaited : Forward w (awaited r) := by
  unfold awaited
  infer_instance

instance forward_typeAssertion : Forward w (typeAssertion r) := by
  unfold typeAssertion
  infer_instance

set_option synthInstance.maxSize 2048 in
instance forward_operand (mayBeArrow : Bool) : Forward w (operand r mayBeArrow) := by
  unfold operand
  infer_instance

instance forward_eatOperator : Forward w eatOperator := by
  unfold eatOperator
  refine forward_get_bind fun s hs => ?_
  have hmove := fun rest => forward_moveTo (w := w) false rest hs.le_line
  split <;> infer_instance

set_option synthInstance.maxSize 512 in
instance forward_typeBehindExpression : Forward w (typeBehindExpression r) := by
  unfold typeBehindExpression
  infer_instance

instance forward_operationRest (first : Node) [InOrder first] :
    Forward w (operationRest r first) := by
  unfold operationRest
  refine .iterate (fun w operands => ?_) _
  obtain ⟨⟨left, last⟩, hoperands, _⟩ := operands
  have hleft : InOrder left := hoperands.fst
  infer_instance

instance forward_operation (mayBeArrow : Bool) : Forward w (operation r mayBeArrow) := by
  unfold operation
  infer_instance

/-! ## Assignments -/

instance forward_yielded : Forward w (yielded r) := by
  unfold yielded
  infer_instance

instance forward_genericArrow : Forward w (genericArrow r) := by
  unfold genericArrow
  refine @forward_within _ _ _ _ _ (@forward_attempt _ _ _ _ ?_)
  refine .bind inferInstance fun _ _ _ _ => .bind inferInstance fun _ e he _ => ?_
  split
  · have := inOrder_form_iff.mp he
    infer_instance
  · infer_instance

instance forward_plainAssignment : Forward w (plainAssignment r) := by
  unfold plainAssignment
  refine .bind inferInstance fun _ _ _ _ => .bind inferInstance fun _ _ _ _ => .ite inferInstance ?_
  refine .bind inferInstance fun _ test _ _ => .ite inferInstance ?_
  refine .bind inferInstance fun _ _ _ _ => .ite inferInstance ?_
  split <;> infer_instance

set_option synthInstance.maxSize 512 in
instance forward_assignment : Forward w (assignment r) := by
  unfold assignment
  infer_instance

set_option synthInstance.maxSize 512 in
instance forward_expression : Forward w (expression r) := by
  unfold expression
  infer_instance

/-! ## JSX -/

instance forward_hyphenName : Forward w hyphenName := by
  unfold hyphenName
  refine forward_get_bind fun s hs => ?_
  have hmove := fun rest => forward_moveTo (w := w) true rest hs.le_start
  infer_instance

instance forward_tagNameRest : Forward w tagNameRest := by
  unfold tagNameRest
  infer_instance

instance forward_tagName : Forward w tagName := by
  unfold tagName
  infer_instance

instance forward_braced (isSpread : Bool) : Forward w (braced r isSpread) := by
  unfold braced
  infer_instance

instance forward_attributeValue : Forward w (attributeValue r) := by
  unfold attributeValue
  refine forward_get_bind fun s hs => ?_
  have hmove := fun ends rest =>
    forward_moveTo (w := w) true rest (Nat.le_add_right_of_le (k := ends) hs.le_start)
  split
  · refine .ite ?_ inferInstance
    split <;> infer_instance
  · infer_instance

set_option synthInstance.maxSize 2048 in
instance forward_tagAttribute : Forward w (tagAttribute r) := by
  unfold tagAttribute
  infer_instance

instance forward_passTagText : Forward w passTagText := by
  unfold passTagText
  refine forward_get_bind fun s hs => ?_
  have hmove := fun ends rest =>
    forward_moveTo (w := w) false rest
      (Nat.le_add_right_of_le (k := ends) hs.le_line)
  split <;> infer_instance

set_option synthInstance.maxSize 512 in
instance forward_closingTag (name : List String) : Forward w (closingTag name) := by
  unfold closingTag
  infer_instance

set_option synthInstance.maxSize 512 in
instance forward_children (name : List String) : Forward w (children r name) := by
  unfold children
  infer_instance

set_option synthInstance.maxSize 8192 in
instance forward_openElement : Forward w (openElement r) := by
  unfold openElement
  infer_instance

end DocAnnotations.Script
