import Std.Data.TreeMap
import DocAnnotations.Annotations
import DocAnnotations.Error

/-!
# The cache

An entry serves as long as the fingerprint of its element's comment stays the
same. The cache only compares fingerprints.
-/

namespace DocAnnotations

/-- A program element as the cache sees it. -/
structure Documented where
  identity : String
  /-- What sort of element it is. -/
  kind : String
  /-- Its doc comment, empty if it has none; `none` for sorts that carry no doc comments. -/
  comment : Option String
deriving DecidableEq, Inhabited

/-- A comment that belongs to no source file. -/
def Documented.block (identity comment : String) : Documented :=
  ⟨identity, "doc block", some comment⟩

structure CacheEntry (δ : Type) where
  fingerprint : δ
  annotations : Annotations

structure Cache (δ : Type) where
  entries : Std.TreeMap String (CacheEntry δ)
  hits : Nat
  misses : Nat

structure CacheStats where
  memoryEntries : Nat
  hits : Nat
  misses : Nat
deriving DecidableEq, Repr

namespace Cache

variable {δ : Type}

def empty : Cache δ := ⟨∅, 0, 0⟩

instance : Inhabited (Cache δ) := ⟨empty⟩

/-- The entry that still serves an element with this comment. -/
def fresh? [DecidableEq δ] (fingerprint : String → δ) (c : Cache δ) (identity comment : String) :
    Option (CacheEntry δ) :=
  match c.entries[identity]? with
  | some entry => if entry.fingerprint = fingerprint comment then some entry else none
  | none => none

/-- The annotations of an element: remembered if its comment has not changed, else parsed and
remembered. -/
def annotations [DecidableEq δ] (fingerprint : String → δ) (c : Cache δ) (e : Documented) :
    Except Error (Annotations × Cache δ) :=
  match e.comment with
  | none => .error (.unsupported e.kind e.identity)
  | some comment =>
    match c.fresh? fingerprint e.identity comment with
    | some entry => .ok (entry.annotations, { c with hits := c.hits + 1 })
    | none =>
      let a := Annotations.parse comment
      .ok (a, { c with
        entries := c.entries.insert e.identity ⟨fingerprint comment, a⟩
        misses := c.misses + 1 })

def get [DecidableEq δ] (fingerprint : String → δ) (c : Cache δ) (e : Documented) (name : String) :
    Except Error (Option Value × Cache δ) :=
  (c.annotations fingerprint e).map fun (a, c) => (a.first? name, c)

def getAll [DecidableEq δ] (fingerprint : String → δ) (c : Cache δ) (e : Documented)
    (name : String) : Except Error (List Value × Cache δ) :=
  (c.annotations fingerprint e).map fun (a, c) => (a.all name, c)

/-- Forgets every entry and starts counting anew. -/
def clear (_ : Cache δ) : Cache δ := empty

def stats (c : Cache δ) : CacheStats := ⟨c.entries.size, c.hits, c.misses⟩

end Cache

end DocAnnotations
