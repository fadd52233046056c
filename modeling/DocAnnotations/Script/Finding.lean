import DocAnnotations.Element
import DocAnnotations.Script.Tree

/-!
# Classes and members in a tree

A class comes first, then its members, then what is found inside it.
-/

namespace DocAnnotations.Script

/-- A class or member that was found, before it is numbered. -/
structure Finding where
  name : String
  kind : ElementKind
  line : Nat
  /-- The tokens whose comments may document it, in the order in which they are asked. -/
  anchors : List Mark
deriving DecidableEq, Repr

/-! ## Doc comments -/

/-- Whether a comment is written as a doc comment. -/
def Remark.isDoc (c : Remark) : Bool := c.isBlock && c.text.toList.head? == some '*'

/-- The last doc comment in front of a token, with its delimiters. -/
def Mark.docComment? (m : Mark) : Option String :=
  (m.leading.reverse.find? Remark.isDoc).map fun c => "/*" ++ c.text ++ "*/"

/-- The doc comment of the first token that has one. -/
def Finding.docComment? (f : Finding) : Option String := f.anchors.findSome? Mark.docComment?

/-! ## Members -/

def Key.name? : Key → Option String
  | plain name => some name
  | secret name => some ("#" ++ name)
  | bigint | computed _ => none

def Member.finding? (className : String) (m : Member) : Option Finding :=
  let named (name : String) (kind : ElementKind) (start : Mark) (anchors : List Mark) : Finding :=
    ⟨className ++ Element.separator ++ name, kind, start.line, anchors⟩
  match m with
  | .constructor start key _ _ => some (named "constructor" .constructor start [start, key])
  | .method start keyStart key ds _ _ =>
    key.name?.map fun name => named name .method start (ds.map (·.start) ++ [start, keyStart])
  | .property start keyStart key ds _ =>
    key.name?.map fun name => named name .property start (ds.map (·.start) ++ [start, keyStart])
  | .accessor .. | .nameless _ => none

/-- A class and its members. The marks in `keywords` are asked for the class first of all. -/
def Class.findings (keywords : List Mark) (name : String) (c : Class) : List Finding :=
  ⟨name, .classKind, c.start.line, keywords ++ c.decorators.map (·.start) ++ [c.start]⟩ ::
    c.members.filterMap (Member.finding? name)

/-! ## The search -/

/-- The name of a class that is exported as the default and has none. -/
def defaultName : String := "default"

mutual

def Node.search : Node → List Finding
  | .form _ parts => searchNodes parts
  | .classDeclaration name c => c.findings [] name ++ c.inside
  | .classExpression name c => (name.map (c.findings [])).getD [] ++ c.inside
  | .exported keyword (.classDeclaration name c) => c.findings [keyword] name ++ c.inside
  | .exported _ declaration => declaration.search
  | .exportedDefault keyword name c => c.findings [keyword] (name.getD defaultName) ++ c.inside

/-- What is found in the decorators of a class, then in its members, then in what it extends. -/
def Class.inside : Class → List Finding
  | ⟨_, ds, members, heritage⟩ =>
    searchDecorators ds ++ searchMembers members ++ searchNodes heritage

def Member.search : Member → List Finding
  | .constructor _ _ params body => searchNodes params ++ searchNodes body
  | .method _ _ key ds params body =>
    key.search ++ searchNodes params ++ searchDecorators ds ++ searchNodes body
  | .property _ _ key ds value => key.search ++ searchNodes value ++ searchDecorators ds
  | .accessor key ds value => key.search ++ searchNodes value ++ searchDecorators ds
  | .nameless parts => searchNodes parts

def Key.search : Key → List Finding
  | .computed e => e.search
  | _ => []

def Decorator.search : Decorator → List Finding
  | ⟨_, e⟩ => e.search

def searchNodes : List Node → List Finding
  | [] => []
  | n :: rest => n.search ++ searchNodes rest

def searchMembers : List Member → List Finding
  | [] => []
  | m :: rest => m.search ++ searchMembers rest

def searchDecorators : List Decorator → List Finding
  | [] => []
  | d :: rest => d.search ++ searchDecorators rest

end

def Module.findings (m : Module) : List Finding := searchNodes m.items

end DocAnnotations.Script
