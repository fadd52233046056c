import DocAnnotations.Number.Binary64

/-! # Values -/

namespace DocAnnotations

inductive Value where
  | null
  | bool (b : Bool)
  | int (n : Int64)
  | float (x : Binary64)
  | text (s : String)
  | list (items : List Value)
  | map (entries : List (String × Value))
deriving Inhabited

namespace Value

def isNull : Value → Bool
  | null => true
  | _ => false

def asBool? : Value → Option Bool
  | bool b => some b
  | _ => none

def asInt? : Value → Option Int64
  | int n => some n
  | _ => none

/-- The number as a float. An integer becomes the float closest to it. -/
def asFloat? : Value → Option Binary64
  | float x => some x
  | int n => some (.ofInt n.toInt)
  | _ => none

def asText? : Value → Option String
  | text s => some s
  | _ => none

def asList? : Value → Option (List Value)
  | list items => some items
  | _ => none

def asMap? : Value → Option (List (String × Value))
  | map entries => some entries
  | _ => none

def get? (v : Value) (key : String) : Option Value :=
  match v with
  | map entries => (entries.find? (·.1 == key)).map (·.2)
  | _ => none

/-! ## Building maps -/

/-- Gives `key` the value `v`: in its old place if it has one, else at the end. -/
def putEntry (key : String) (v : Value) : List (String × Value) → List (String × Value)
  | [] => [(key, v)]
  | (k, old) :: rest => if k = key then (k, v) :: rest else (k, old) :: putEntry key v rest

/-- The map of a sequence of members: a key stands where it came first and has its last value. -/
def ofMembers (members : List (String × Value)) : Value :=
  map (members.foldl (fun entries m => putEntry m.1 m.2 entries) [])

end Value

end DocAnnotations
