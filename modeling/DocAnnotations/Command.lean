import DocAnnotations.Project
import DocAnnotations.Query
import DocAnnotations.Snapshot

/-! # The command line -/

namespace DocAnnotations

inductive Command where
  | version
  | scan
  | get (path qualifiedName name : String) (all : Bool)
  | dump (root : String) (extensions : List String)
deriving DecidableEq, Repr

/-! ## Reading the command line -/

namespace Command

/-- What a subcommand's arguments say, each as often as it is said. -/
structure Arguments where
  /-- Those that stand for themselves, in order. -/
  positional : List String
  /-- The options with their values, in order. -/
  options : List (String × String)
  /-- The options without values. -/
  flags : List String

/-- The options of a subcommand, under the spellings that they have. -/
structure Options where
  /-- Those with a value, each with the letter that is short for it, if there is one. -/
  valued : List (String × Option Char)
  flags : List String

/-- Whether an argument is taken for an option: it starts with a hyphen and is longer. -/
def isOption (arg : List Char) : Bool := arg.head? == some '-' && 1 < arg.length

/-- The text up to the first equals sign, and the text behind it if there is one. -/
def splitValue (arg : List Char) : String × Option String :=
  let name := arg.takeWhile (· ≠ '=')
  let rest := arg.dropWhile (· ≠ '=')
  (String.ofList name, if rest.isEmpty then none else some (String.ofList (rest.drop 1)))

/-- The option that an argument names, without its hyphens, and the value that is attached to it. -/
def Options.named? (o : Options) (arg : List Char) : Option (String × Option String) :=
  match arg with
  | '-' :: '-' :: long => some (splitValue long)
  | '-' :: letter :: rest => do
    let (name, _) ← o.valued.find? (·.2 = some letter)
    let value := if rest.head? == some '=' then rest.drop 1 else rest
    some (name, if rest.isEmpty then none else some (String.ofList value))
  | _ => none

/-- Sorts the arguments of a subcommand. A value may be attached to its option or follow it; behind
two hyphens alone, every argument stands for itself. -/
def Options.sort (o : Options) : List String → Option Arguments
  | [] => some ⟨[], [], []⟩
  | arg :: rest =>
    let cs := arg.toList
    if cs == ['-', '-'] then some ⟨rest, [], []⟩
    else if isOption cs then
      match o.named? cs with
      | none => none
      | some (name, value) =>
        if o.valued.any (·.1 = name) then
          match value with
          | some v => (o.sort rest).map fun a => { a with options := (name, v) :: a.options }
          | none =>
            match rest with
            | v :: rest =>
              if isOption v.toList then none
              else (o.sort rest).map fun a => { a with options := (name, v) :: a.options }
            | [] => none
        else if o.flags.contains name && value.isNone then
          (o.sort rest).map fun a => { a with flags := name :: a.flags }
        else none
    else (o.sort rest).map fun a => { a with positional := arg :: a.positional }

def Arguments.values (a : Arguments) (name : String) : List String :=
  (a.options.filter (·.1 = name)).map (·.2)

def getOptions : Options := ⟨[("element", some 'e'), ("name", some 'n')], ["all"]⟩

def dumpOptions : Options := ⟨[("ext", none)], []⟩

/-- The command that the arguments spell, if they spell one. Options of `get` are given once.
Requests for help (`help`, `--help` and `-h`, alone or behind a command) are left out: the option
parser answers them itself, with texts of its own, and they count as misuse here. -/
def ofArguments? : List String → Option Command
  | [] => none
  | word :: args =>
    if word == "--version" || word.toList.take 2 == ['-', 'V'] then some version
    else if word == "scan" then
      match Options.sort ⟨[], []⟩ args with
      | some ⟨[], [], []⟩ => some scan
      | _ => none
    else if word == "get" then do
      let a ← getOptions.sort args
      match a.positional, a.values "element", a.values "name" with
      | [path], [e], [n] =>
        if a.flags.length ≤ 1 then some (get path e n (!a.flags.isEmpty)) else none
      | _, _, _ => none
    else if word == "dump" then do
      let a ← dumpOptions.sort args
      match a.positional with
      | [root] => some (dump root (a.values "ext"))
      | _ => none
    else none

end Command

/-! ## Running a command -/

/-- What a run of the program leaves behind. -/
structure Outcome where
  code : UInt32
  output : String
  /-- What is said about a failure. -/
  complaint : String
deriving DecidableEq, Repr

namespace Outcome

def printed (line : String) : Outcome := ⟨0, line ++ "\n", ""⟩

def misused : Outcome := ⟨2, "", ""⟩

def failed (reason : String) : Outcome := ⟨2, "", "Error: " ++ reason ++ "\n"⟩

def absent (name identity : String) : Outcome :=
  ⟨1, "", "annotation " ++ normalizeName name ++ " not present on " ++ identity ++ "\n"⟩

end Outcome

/-- An error as the command line reports it: the cause of an unreadable file is said once more. -/
def Error.report (e : Error) : String :=
  match e with
  | unreadable _ fault => e.message ++ ": " ++ fault.message
  | e => e.message

namespace Command

variable {δ : Type} [DecidableEq δ] {m : Type → Type} [Monad m]

/-- The name and version of the program. -/
def banner : String := "docnote-core 0.1.0"

/-- What came of a run, an error reported. -/
def settle : Except Error Outcome → Outcome
  | .ok o => o
  | .error e => .failed e.report

def runScan (fingerprint : String → δ) (comment : ByteArray) : Outcome :=
  match String.fromUTF8? comment with
  | some text => settle do
    let (a, _) ← Cache.empty.annotations fingerprint (.block "<stdin>" text)
    return .printed (Json.write a.toValue)
  | none => .failed ("failed to read from STDIN: " ++ ReadFault.invalidText.message)

/-- The values of an annotation of an element of a file, `text` being what came of reading it. -/
def runGet (fingerprint : String → δ) (path qualifiedName name : String) (all : Bool)
    (text : Except ReadFault String) : Except Error Outcome := do
  let x ← Index.empty.addFile path text
  let e ← x.find path qualifiedName
  if all then
    let (vs, _) ← Cache.empty.getAll fingerprint e.documented name
    return .printed (Json.write (.list vs))
  let (v?, _) ← Cache.empty.get fingerprint e.documented name
  match v? with
  | some v => return .printed (Json.write v)
  | none => return .absent name e.identity

def runDump (fingerprint : String → δ) (x : Index) : Except Error Outcome :=
  (x.snapshot fingerprint Cache.empty).map fun (text, _) => .printed text

/-- Runs a command. `input` is what is put into the program. -/
def run (fingerprint : String → δ) (disk : Disk m) (input : m ByteArray) : Command → m Outcome
  | version => return .printed banner
  | scan => return runScan fingerprint (← input)
  | get path qualifiedName name all => do
    return settle (runGet fingerprint path qualifiedName name all (← disk.read path))
  | dump root extensions => do
    let s := { Selection.default with extensions := Selection.default.extensions ++ extensions }
    return settle (runDump fingerprint (← Index.ofProject disk s root))

def runArguments (fingerprint : String → δ) (disk : Disk m) (input : m ByteArray)
    (args : List String) : m Outcome :=
  match ofArguments? args with
  | some c => c.run fingerprint disk input
  | none => return .misused

end Command

end DocAnnotations
