import DocAnnotations.Command

/-! # The program -/

namespace DocAnnotations.Program

/-! ## The disk -/

/-- Why a file could not be read. A file that is opened but not read is a folder. -/
def faultOf (e : IO.Error) : ReadFault :=
  match e with
  | .noFileOrDirectory .. => .notFound
  | .inappropriateType (some _) _ _ => .notDirectory
  | .inappropriateType none _ _ => .isDirectory
  | e => .other (toString e)

def readFile (path : String) : IO (Except ReadFault String) := do
  try
    match String.fromUTF8? (← IO.FS.readBinFile path) with
    | some text => return .ok text
    | none => return .error .invalidText
  catch e => return .error (faultOf e)

/-- Whether something in a folder is a file, and whether it is a folder. Links lead to files
only. -/
def sortOf (e : IO.FS.DirEntry) : IO (Bool × Bool) := do
  match (← e.path.symlinkMetadata).type with
  | .file => return (true, false)
  | .dir => return (false, true)
  | .symlink => return ((← e.path.metadata).type == .file, false)
  | .other => return (false, false)

/-- The files below a folder, down to a depth that no path is long enough to exceed. What cannot be
looked at is left out. -/
def filesBelow : Nat → String → IO (List String)
  | 0, _ => return []
  | depth + 1, folder => do
    let entries ← try (IO.FS.DirEntry.mk folder ".").path.readDir catch _ => pure #[]
    let found ← entries.toList.mapM fun e => do
      let path := Path.join folder e.fileName
      let (isFile, isFolder) ← try sortOf e catch _ => pure (false, false)
      if isFile then return [path]
      if isFolder then return ← filesBelow depth path
      return []
    return found.flatten

def maxDepth : Nat := 4096

def filesAt (path : String) : IO (List String) := do
  if path.isEmpty then return []
  match ← readFile path with
  | .ok _ | .error .invalidText => return [path]
  | .error _ => filesBelow maxDepth path

def disk : Disk IO := ⟨readFile, filesAt⟩

/-! ## The standard streams -/

def input : IO ByteArray := do (← IO.getStdin).readBinToEnd

end DocAnnotations.Program

open DocAnnotations

def main (args : List String) : IO UInt32 := do
  let outcome ← Command.runArguments (fun comment => hash comment) Program.disk Program.input args
  IO.print outcome.output
  IO.eprint outcome.complaint
  return outcome.code
