import DocAnnotations.Script.Finding
import DocAnnotations.Script.Source

/-! # The elements of a source file -/

namespace DocAnnotations

/-! ## Numbers for repeated names -/

/-- A name as its use number `n` is called: the first use has no number. -/
def numbered (name : String) (n : Nat) : String :=
  if n ≤ 1 then name else name ++ "#" ++ String.ofList (Nat.toDigits 10 n)

/-- The name that each use is called by, `earlier` being the names used before. -/
def numberNames (earlier : List String) : List String → List String
  | [] => []
  | name :: rest =>
    numbered name (earlier.count name + 1) :: numberNames (name :: earlier) rest

/-! ## Elements -/

/-- A finding as an element of a file, under its final name. -/
def Element.ofFinding (path qualifiedName : String) (f : Script.Finding) : Element where
  identity := identityOf path qualifiedName
  qualifiedName := qualifiedName
  kind := f.kind
  filePath := path
  line := f.line
  docComment := f.docComment?

def Element.ofFindings (path : String) (fs : List Script.Finding) : List Element :=
  List.zipWith (ofFinding path) (numberNames [] (fs.map (·.name))) fs

/-- Every element of a source, in the order in which they are found. -/
def extract (path source : String) : Except Error (List Element) :=
  match Script.Module.ofSource? (.ofFile path) source with
  | some m => .ok (Element.ofFindings path m.findings)
  | none => .error (.unparsable path)

end DocAnnotations
