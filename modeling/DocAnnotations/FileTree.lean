import DocAnnotations.Error
import DocAnnotations.Path

/-!
# Files and folders

A tree of files with a working folder in it, and how a path leads through it.
-/

namespace DocAnnotations

/-- A file with its bytes, or a folder with its entries under their names. -/
inductive Entry where
  | file (content : ByteArray)
  | folder (entries : List (String × Entry))

instance : Inhabited Entry := ⟨.folder []⟩

namespace Entry

/-! ## Walking -/

mutual

/-- The path of every file at or below an entry that has itself the given path. -/
def filePaths (path : String) : Entry → List String
  | .file _ => [path]
  | .folder entries => entryPaths path entries

def entryPaths (path : String) : List (String × Entry) → List String
  | [] => []
  | (name, e) :: rest => filePaths (Path.join path name) e ++ entryPaths path rest

end

/-! ## Writing -/

/-- The entries with the one of a given name changed, which is an empty folder until then. -/
def update (name : String) (f : Entry → Entry) : List (String × Entry) → List (String × Entry)
  | [] => [(name, f (.folder []))]
  | (n, e) :: rest => if n == name then (n, f e) :: rest else (n, e) :: update name f rest

/-- Puts an entry where some names lead. Folders on the way are made where they are missing; an
empty folder takes nothing away from a folder that is there. -/
def put (new : Entry) : List String → Entry → Entry
  | [], old =>
    match new, old with
    | .folder [], .folder entries => .folder entries
    | _, _ => new
  | name :: names, .folder entries => .folder (update name (put new names) entries)
  | name :: names, .file _ => .folder (update name (put new names) [])

end Entry

/-! ## Following a path -/

/-- Where a path has come to: an entry, and the folders that it lies in, innermost first. -/
structure Spot where
  here : Entry
  around : List Entry

namespace Spot

def up (s : Spot) : Spot :=
  match s.around with
  | parent :: above => ⟨parent, above⟩
  | [] => s

/-- Where one more part of the path leads. -/
def enter (s : Spot) (part : List Char) : Except ReadFault Spot :=
  match s.here with
  | .file _ => .error .notDirectory
  | .folder entries =>
    if Path.isStay part then .ok s
    else if Path.isUp part then .ok s.up
    else
      match entries.lookup (String.ofList part) with
      | some inner => .ok ⟨inner, s.here :: s.around⟩
      | none => .error .notFound

end Spot

/-- All the files there are, below one root, without links among them. -/
structure FileTree where
  root : Entry
  /-- The names from the root to the working folder. -/
  working : List String

namespace FileTree

/-- The parts of a path from the root on. Where no slash stands at the start, the path goes on from
the working folder. -/
def parts (tree : FileTree) (path : String) : List (List Char) :=
  let start := if path.toList.head? = some '/' then [] else tree.working.map String.toList
  start ++ Path.split path.toList

/-- The names from the root to where a path leads, if every folder on its way is there. -/
def names (tree : FileTree) (path : String) : List String := Path.names (tree.parts path)

/-- Where a path leads. The empty path leads nowhere. -/
def spot? (tree : FileTree) (path : String) : Except ReadFault Spot :=
  if path = "" then .error .notFound else (tree.parts path).foldlM Spot.enter ⟨tree.root, []⟩

def at? (tree : FileTree) (path : String) : Except ReadFault Entry :=
  (tree.spot? path).map Spot.here

/-! ## Files at a path -/

def read (tree : FileTree) (path : String) : Except ReadFault String :=
  match tree.at? path with
  | .ok (.file content) =>
    match String.fromUTF8? content with
    | some text => .ok text
    | none => .error .invalidText
  | .ok (.folder _) => .error .isDirectory
  | .error fault => .error fault

/-- The path of every file at or below a path. There is none if the path leads nowhere. -/
def files (tree : FileTree) (path : String) : List String :=
  match tree.at? path with
  | .ok e => e.filePaths path
  | .error _ => []

/-- Writes a file; a path that ends with a slash makes a folder. -/
def write (tree : FileTree) (path : String) (content : ByteArray) : FileTree :=
  let new : Entry := if path.toList.getLast? = some '/' then .folder [] else .file content
  { tree with root := Entry.put new (tree.names path) tree.root }

end FileTree

structure Disk (m : Type → Type) where
  /-- The text of the file at a path. -/
  read : String → m (Except ReadFault String)
  /-- The path of every file at or below a path. -/
  files : String → m (List String)

def FileTree.disk (tree : FileTree) : Disk Id := ⟨tree.read, tree.files⟩

end DocAnnotations
