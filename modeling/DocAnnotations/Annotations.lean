import Std.Data.TreeMap
import DocAnnotations.Coercion

/-!
# The annotations of a comment

Names stand in the order of their first line, the values of a name in the order of
its lines.
-/

namespace DocAnnotations

structure Annotations where
  /-- The groups, in the order in which their names came first. -/
  entries : Array (String × Array Value)
  /-- The position of each name's group. -/
  index : Std.TreeMap String Nat

/-- Puts `@` in front of a name that does not start with it. -/
def normalizeName (name : String) : String :=
  if name.toList.head? = some '@' then name else "@" ++ name

namespace Annotations

def empty : Annotations := ⟨#[], ∅⟩

instance : Inhabited Annotations := ⟨empty⟩

/-- Adds a value to the group of its name, which is opened at the end if there is none yet. -/
def push (a : Annotations) (name : String) (v : Value) : Annotations :=
  match a.index[name]? with
  | some i => { a with entries := a.entries.modify i fun e => (e.1, e.2.push v) }
  | none => ⟨a.entries.push (name, #[v]), a.index.insert name a.entries.size⟩

def parse (comment : String) : Annotations :=
  (Comment.scan comment).foldl (fun a line => a.push line.name (Coercion.coerce line.text)) empty

/-! ## Looking up -/

/-- Every value recorded under a name. The name's `@` may be left out. -/
def all (a : Annotations) (name : String) : List Value :=
  match a.index[normalizeName name]? with
  | some i => ((a.entries[i]?).map (·.2.toList)).getD []
  | none => []

def first? (a : Annotations) (name : String) : Option Value := (a.all name).head?

def contains (a : Annotations) (name : String) : Bool := a.index.contains (normalizeName name)

def names (a : Annotations) : List String := a.entries.toList.map (·.1)

def toList (a : Annotations) : List (String × List Value) :=
  a.entries.toList.map fun e => (e.1, e.2.toList)

def size (a : Annotations) : Nat := a.entries.size

def isEmpty (a : Annotations) : Bool := a.entries.isEmpty

/-- The annotations as one value: a map from each name to the list of its values. -/
def toValue (a : Annotations) : Value := .map (a.toList.map fun e => (e.1, .list e.2))

end Annotations

end DocAnnotations
