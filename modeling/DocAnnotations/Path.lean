/-!
# Paths

A path is taken apart as a text, without asking what lies on the disk.
-/

namespace DocAnnotations.Path

def split (path : List Char) : List (List Char) := path.splitOn '/'

/-- Whether a part of a path leads nowhere else. -/
def isStay (part : List Char) : Bool := part == [] || part == ['.']

/-- Whether a part of a path leads to the folder around. -/
def isUp (part : List Char) : Bool := part == ['.', '.']

/-- What has been passed after one more part of a path, the last part first. A part that leads to
the folder around takes the part in front of it away. -/
def pass (inner : List (List Char)) (part : List Char) : List (List Char) :=
  if isStay part then inner else if isUp part then inner.drop 1 else part :: inner

/-- The names that the parts of a path go through if every folder on the way is there. -/
def names (parts : List (List Char)) : List String :=
  (parts.foldl pass []).reverse.map String.ofList

/-- The components of a path. Parts that lead nowhere are left out, but for a single dot at the
start; a slash at the start is a component. -/
def components (path : String) : List String :=
  match split path.toList with
  | first :: rest =>
    let start :=
      if first == [] then (if rest.isEmpty then [] else [['/']]) else [first]
    (start ++ rest.filter (!isStay ·)).map String.ofList
  | [] => []

def lastPart (path : String) : List Char := ((split path.toList).getLast?).getD []

/-- What follows the last dot of a file's name; `none` if there is no dot but at its start. -/
def extension? (path : String) : Option String :=
  let name := lastPart path
  let ending := name.reverse.takeWhile (· ≠ '.')
  if name.length ≤ ending.length + 1 then none else some (String.ofList ending.reverse)

def join (path name : String) : String :=
  if path.toList.getLast? = some '/' then path ++ name else path ++ "/" ++ name

end DocAnnotations.Path
