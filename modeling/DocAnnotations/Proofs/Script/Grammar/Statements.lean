import DocAnnotations.Proofs.Script.Grammar.Expressions
import DocAnnotations.Script.Source

/-! # Statements go forward -/

namespace DocAnnotations.Script

open Script.Parser Grammar

variable {w : Window} {r : Rules} [∀ w p, Forward w (r p)]

/-! ## Variables -/

instance forward_atVariables : Forward w atVariables := by
  unfold atVariables
  infer_instance

instance forward_atLoopRange : Forward w atLoopRange := by
  unfold atLoopRange
  infer_instance

set_option synthInstance.maxSize 8192 in
instance forward_declarator (keyword : String) (inHead : Bool) :
    Forward w (declarator r keyword inHead) := by
  unfold declarator
  infer_instance

set_option synthInstance.maxSize 512 in
instance forward_declarators (keyword : String) (inHead : Bool) :
    Forward w (declarators r keyword inHead) := by
  unfold declarators
  infer_instance

set_option synthInstance.maxSize 512 in
instance forward_skipToEnd : Forward w skipToEnd := by
  unfold skipToEnd
  infer_instance

instance forward_atMissingVariables : Forward w (atMissingVariables r) := by
  unfold atMissingVariables
  infer_instance

set_option synthInstance.maxSize 512 in
instance forward_variableDeclaration (inHead : Bool) :
    Forward w (variableDeclaration r inHead) := by
  unfold variableDeclaration
  infer_instance

instance forward_resources : Forward w (resources r) := by
  unfold resources
  infer_instance

/-! ## Declarations -/

set_option synthInstance.maxSize 512 in
instance forward_enumMember : Forward w (enumMember r) := by
  unfold enumMember
  refine .bind inferInstance fun _ t _ _ => ?_
  dsimp only
  split <;> infer_instance

instance forward_enumeration : Forward w (enumeration r) := by
  unfold enumeration
  infer_instance

instance forward_atConstEnum : Forward w atConstEnum := by
  unfold atConstEnum
  infer_instance

instance forward_constEnum : Forward w (constEnum r) := by
  unfold constEnum
  infer_instance

set_option synthInstance.maxSize 8192 in
instance forward_interface : Forward w (interface r) := by
  unfold interface
  infer_instance

instance forward_typeAlias : Forward w (typeAlias r) := by
  unfold typeAlias
  infer_instance

instance forward_namespaceBlock : Forward w (namespaceBlock r) := by
  unfold namespaceBlock
  infer_instance

instance forward_namespaceRest : Forward w (namespaceRest r) := by
  unfold namespaceRest
  infer_instance

instance forward_ambientModule : Forward w (ambientModule r) := by
  unfold ambientModule
  refine .bind inferInstance fun _ t _ _ => ?_
  dsimp only
  split <;> infer_instance

section

variable (start : Mark) (ds : List Decorator) [Within w start] [InOrder ds]

set_option synthInstance.maxSize 2048 in
instance forward_wordDeclaration (word : String) (isAhead : Bool) :
    Forward w (wordDeclaration r start ds word isAhead) := by
  unfold wordDeclaration
  infer_instance

instance forward_ambientDeclaration : Forward w (ambientDeclaration r start ds) := by
  unfold ambientDeclaration
  refine @forward_within _ _ _ _ _ (.bind inferInstance fun _ t _ _ => ?_)
  split <;> infer_instance

end

/-! ## Imports -/

set_option synthInstance.maxSize 512 in
instance forward_attributes : Forward w (attributes r) := by
  unfold attributes
  infer_instance

instance forward_source : Forward w (source r) := by
  unfold source
  refine .bind inferInstance fun _ t _ _ => ?_
  dsimp only
  split <;> infer_instance

instance forward_fromSource : Forward w (fromSource r) := by
  unfold fromSource
  infer_instance

instance forward_exportName : Forward w exportName := by
  unfold exportName
  refine .bind inferInstance fun _ t _ _ => ?_
  split <;> infer_instance

instance forward_typeAsRest : Forward w typeAsRest := by
  unfold typeAsRest
  infer_instance

instance forward_typeMark (name : Option String) : Forward w (typeMark name) := by
  unfold typeMark
  infer_instance

instance forward_exportItem : Forward w exportItem := by
  unfold exportItem
  infer_instance

instance forward_importItem : Forward w importItem := by
  unfold importItem
  infer_instance

instance forward_nameList (item : Parser Unit) [∀ w, Forward w item] :
    Forward w (nameList item) := by
  unfold nameList
  infer_instance

set_option synthInstance.maxSize 512 in
instance forward_importAlias : Forward w importAlias := by
  unfold importAlias
  infer_instance

instance forward_importedNames : Forward w (importedNames r) := by
  unfold importedNames
  infer_instance

instance forward_namesDefault : Forward w namesDefault := by
  unfold namesDefault
  infer_instance

set_option synthInstance.maxSize 8192 in
instance forward_namedImport : Forward w (namedImport r) := by
  unfold namedImport
  infer_instance

instance forward_importStatement : Forward w (importStatement r) := by
  unfold importStatement
  refine .bind inferInstance fun _ _ _ _ => .bind inferInstance fun _ t _ _ => ?_
  split <;> infer_instance

/-! ## Exports -/

open ClassName in
instance forward_defaultClass (keyword start : Mark) (ds : List Decorator) [Within w start]
    [InOrder ds] : Forward w (defaultClass r keyword start ds) := by
  unfold defaultClass
  infer_instance

set_option synthInstance.maxSize 512 in
instance forward_exportedNames : Forward w (exportedNames r) := by
  unfold exportedNames
  infer_instance

section

variable (keyword : Mark) (ds : List Decorator) [InOrder ds]

set_option synthInstance.maxSize 8192 in
instance forward_defaultExport : Forward w (defaultExport r keyword ds) := by
  unfold defaultExport
  refine .bind inferInstance fun n late _ _ => .ite ?_ inferInstance
  refine @forward_current_bind _ _ _ _ fun n start => ?_
  exact .bind inferInstance fun n _ _ _ => inferInstance

set_option synthInstance.maxSize 2048 in
instance forward_typedExport : Forward w (typedExport r keyword ds) := by
  unfold typedExport
  refine @forward_current_bind _ _ _ _ fun n l => ?_
  refine .bind inferInstance fun _ _ _ _ => .ite (.bind inferInstance fun _ d hd _ => ?_) ?_
  · cases d with
    | some d =>
      have := inOrder_option_iff.mp hd d rfl
      infer_instance
    | none =>
      refine .bind inferInstance fun _ t _ _ => ?_
      dsimp only
      split <;> infer_instance
  · refine .bind inferInstance fun _ t _ _ => ?_
    dsimp only
    split <;> infer_instance

set_option synthInstance.maxSize 512 in
instance forward_exportedDeclaration : Forward w (exportedDeclaration r ds) := by
  unfold exportedDeclaration
  infer_instance

set_option synthInstance.maxSize 2048 in
instance forward_exportStatement : Forward w (exportStatement r ds) := by
  unfold exportStatement
  infer_instance

end

/-! ## Parts of statements -/

instance forward_condition : Forward w (condition r) := by
  unfold condition
  infer_instance

instance forward_body : Forward w (body r) := by
  unfold body
  infer_instance

instance forward_blockStatement : Forward w (blockStatement r) := by
  unfold blockStatement
  infer_instance

instance forward_statementOf (parts : Parser (List Node)) [∀ w, Forward w parts] :
    Forward w (statementOf parts) := by
  unfold statementOf
  infer_instance

instance forward_loopRange (left : Node) [InOrder left] : Forward w (loopRange r left) := by
  unfold loopRange
  infer_instance

set_option synthInstance.maxSize 2048 in
instance forward_loopTest (start : List Node) [InOrder start] : Forward w (loopTest r start) := by
  unfold loopTest
  infer_instance

set_option synthInstance.maxSize 512 in
instance forward_loopHeadRest (mustRange : Bool) (start : Node) [InOrder start] :
    Forward w (loopHeadRest r mustRange start) := by
  unfold loopHeadRest
  infer_instance

instance inOrder_loopTarget (e : Node) [h : InOrder e] : InOrder (loopTarget e) := by
  unfold loopTarget
  split
  · exact inOrder_toPattern false _ h
  · exact inOrder_toPattern false _ h
  · infer_instance

instance forward_loopHead (mustRange : Bool) : Forward w (loopHead r mustRange) := by
  unfold loopHead
  refine .bind inferInstance fun _ _ _ _ => .ite inferInstance ?_
  refine .bind inferInstance fun _ _ _ _ => .ite inferInstance ?_
  refine .bind inferInstance fun _ _ _ _ => .bind inferInstance fun _ _ _ _ => .ite inferInstance ?_
  refine .bind inferInstance fun _ e _ _ => .bind inferInstance fun _ _ _ _ => ?_
  refine .ite ?_ inferInstance
  split
  · rename_i p hp
    have := inOrder_option_iff.mp (inOrder_loopTarget e) p hp
    infer_instance
  · infer_instance

instance forward_forLoop : Forward w (forLoop r) := by
  unfold forLoop
  infer_instance

instance forward_doLoop : Forward w (doLoop r) := by
  unfold doLoop
  infer_instance

set_option synthInstance.maxSize 512 in
instance forward_ifBranches : Forward w (ifBranches r) := by
  unfold ifBranches
  infer_instance

set_option synthInstance.maxSize 2048 in
instance forward_switchCase : Forward w (switchCase r) := by
  unfold switchCase
  infer_instance

instance forward_switchCases : Forward w (switchCases r) := by
  unfold switchCases
  infer_instance

set_option synthInstance.maxSize 512 in
instance forward_catchClause : Forward w (catchClause r) := by
  unfold catchClause
  infer_instance

instance forward_finallyClause : Forward w (finallyClause r) := by
  unfold finallyClause
  infer_instance

instance forward_strayClauses : Forward w (strayClauses r) := by
  unfold strayClauses
  infer_instance

instance forward_jump : Forward w jump := by
  unfold jump
  infer_instance

instance forward_keywordStatement (word : String) : Forward w (keywordStatement r word) := by
  unfold keywordStatement
  split <;> infer_instance

/-! ## Statements -/

set_option synthInstance.maxSize 2048 in
instance forward_nameStatement (start : Mark) (ds : List Decorator) (name : String) [Within w start]
    [InOrder ds] : Forward w (nameStatement r start ds name) := by
  unfold nameStatement
  infer_instance

instance forward_expressionStatement (ds : List Decorator) [InOrder ds] :
    Forward w (expressionStatement r ds) := by
  unfold expressionStatement
  refine @forward_current_bind _ _ _ _ fun n l => .bind inferInstance fun _ e _ _ => ?_
  dsimp only
  split <;> infer_instance

instance forward_reservedDeclaration (ds : List Decorator) (word : String) [InOrder ds] :
    Forward w (reservedDeclaration r ds word) := by
  unfold reservedDeclaration
  infer_instance

instance forward_awaitedResources : Forward w (awaitedResources r) := by
  unfold awaitedResources
  infer_instance

set_option synthInstance.maxSize 2048 in
instance forward_wordStatement (isItem : Bool) (start : Mark) (ds : List Decorator) (word : String)
    [Within w start] [InOrder ds] : Forward w (wordStatement r isItem start ds word) := by
  unfold wordStatement
  infer_instance

set_option synthInstance.maxSize 512 in
instance forward_moduleItem (ds : List Decorator) [InOrder ds] : Forward w (moduleItem r ds) := by
  unfold moduleItem
  infer_instance

instance forward_statement (isItem : Bool) : Forward w (statement r isItem) := by
  unfold statement
  refine @forward_within _ _ _ _ _ (@forward_current_bind _ _ _ _ fun n l => ?_)
  refine .bind inferInstance fun _ ds _ _ => .bind inferInstance fun _ t _ _ => ?_
  split <;> infer_instance

/-! ## Files -/

theorem forward_grammar (p : Phrase) : Forward w (grammar r p) := by
  cases p <;> unfold grammar <;> infer_instance

theorem forward_rulesUpTo (depth : Nat) : ∀ w p, Forward w (rulesUpTo depth p) := by
  induction depth with
  | zero => exact fun w p => forward_fail
  | succ depth ih => exact fun w p => forward_grammar p

instance forward_fileItems (depth : Nat) : Forward w (fileItems depth) := by
  have hrules := forward_rulesUpTo depth
  unfold fileItems
  infer_instance

theorem inOrder_of_fileItems {depth : Nat} {c : Context} {cs : List Char} {found : List Node}
    {s : State} (h : fileItems depth c (.behind false true 1 cs) = .ok found s) :
    InOrder found := by
  have hfile : Forward ⟨1, 1, Nat.le_refl 1⟩ (fileItems depth) := inferInstance
  have hallows := hfile.allows c _ (State.reaches_behind false true 1 cs)
  rw [h] at hallows
  obtain ⟨-, -, hfound, -⟩ := hallows
  exact hfound

/-- Whatever is read of a source is in order. -/
theorem Module.inOrder_of_ofSource? {d : Dialect} {text : String} {m : Module}
    (h : ofSource? d text = some m) : ∀ n ∈ m.items, n.InOrder := by
  simp only [ofSource?] at h
  split at h
  · rename_i found s hfound
    cases h
    exact inOrder_nodes_iff.mp (inOrder_of_fileItems hfound)
  · cases h

end DocAnnotations.Script
