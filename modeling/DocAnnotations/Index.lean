import DocAnnotations.Extraction

/-!
# The index

The elements of a set of files, under the paths of the files. A file is replaced
as a whole.
-/

namespace DocAnnotations

structure Index where
  byFile : Std.TreeMap String (List Element)

namespace Index

def empty : Index := ⟨∅⟩

instance : Inhabited Index := ⟨empty⟩

/-! ## Adding files -/

def addSource (x : Index) (path source : String) : Except Error Index :=
  (extract path source).map fun es => ⟨x.byFile.insert path es⟩

/-- Puts the elements of a file under its path, `text` being what came of reading it. -/
def addFile (x : Index) (path : String) (text : Except ReadFault String) : Except Error Index :=
  match text with
  | .ok source => x.addSource path source
  | .error fault => .error (.unreadable path fault)

/-! ## Looking up -/

def files (x : Index) : List String := x.byFile.keys

def elementsIn (x : Index) (path : String) : List Element := (x.byFile[path]?).getD []

def elements (x : Index) : List Element := x.byFile.values.flatten

def count (x : Index) : Nat := x.elements.length

def element (x : Index) (identity : String) : Except Error Element :=
  match x.elements.find? (·.identity = identity) with
  | some e => .ok e
  | none => .error (.notIndexed identity)

def find (x : Index) (path qualifiedName : String) : Except Error Element :=
  match (x.elementsIn path).find? (·.qualifiedName = qualifiedName) with
  | some e => .ok e
  | none => .error (.notIndexed (Element.identityOf path qualifiedName))

end Index

end DocAnnotations
