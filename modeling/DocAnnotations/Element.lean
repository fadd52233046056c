import DocAnnotations.Cache

/-! # Elements -/

namespace DocAnnotations

inductive ElementKind where
  | classKind
  | constructor
  | method
  | property
deriving DecidableEq, Repr

def ElementKind.name : ElementKind → String
  | classKind => "class"
  | constructor => "constructor"
  | method => "method"
  | property => "property"

structure Element where
  /-- The file and the qualified name. -/
  identity : String
  /-- The class, or the class and the member, with a number where the name is repeated. -/
  qualifiedName : String
  kind : ElementKind
  filePath : String
  /-- Counted from 1. -/
  line : Nat
  /-- The doc comment with its delimiters, if there is one. -/
  docComment : Option String
deriving DecidableEq, Repr

namespace Element

/-- What stands between a file, a class and a member. -/
def separator : String := "::"

def identityOf (path qualifiedName : String) : String := path ++ separator ++ qualifiedName

/-- An element as the cache sees it: one without a doc comment has an empty one. -/
def documented (e : Element) : Documented := ⟨e.identity, e.kind.name, some (e.docComment.getD "")⟩

end Element

end DocAnnotations
