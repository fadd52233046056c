import DocAnnotations.FileTree
import DocAnnotations.Index

/-! # Projects -/

namespace DocAnnotations

/-- Which files are chosen. -/
structure Selection where
  /-- Extensions without the dot. -/
  extensions : List String
  /-- Names that no component of a path may have. -/
  skipped : List String
deriving DecidableEq, Repr

namespace Selection

def default : Selection where
  extensions := ["ts", "tsx", "js", "jsx"]
  skipped := ["node_modules", "dist", "build", ".git", "target"]

instance : Inhabited Selection := ⟨default⟩

def admits (s : Selection) (path : String) : Bool :=
  !(Path.components path).any s.skipped.contains &&
    ((Path.extension? path).map s.extensions.contains).getD false

def filesOf {m : Type → Type} [Monad m] (s : Selection) (disk : Disk m) (root : String) :
    m (List String) := do
  return ((← disk.files root).filter s.admits).mergeSort fun a b => decide (a ≤ b)

end Selection

namespace Index

/-- The index with a file added, if it can be read. -/
def tryFile (x : Index) (path : String) (text : Except ReadFault String) : Index :=
  match x.addFile path text with
  | .ok y => y
  | .error _ => x

def ofProject {m : Type → Type} [Monad m] (disk : Disk m) (s : Selection) (root : String) :
    m Index := do
  let paths ← s.filesOf disk root
  paths.foldlM (fun x path => do return x.tryFile path (← disk.read path)) empty

end Index

end DocAnnotations
