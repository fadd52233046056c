import DocAnnotations.Index
import DocAnnotations.Json.Writer

/-!
# Snapshots

All annotated elements of an index as one JSON text. Where one identity is used
twice in a file, the last use counts.
-/

namespace DocAnnotations.Index

variable {δ : Type} [DecidableEq δ]

def annotated (fingerprint : String → δ) (c : Cache δ) :
    List Element → Except Error (List (Element × Annotations) × Cache δ)
  | [] => .ok ([], c)
  | e :: rest => do
    let (a, c) ← c.annotations fingerprint e.documented
    let (others, c) ← annotated fingerprint c rest
    return (if a.isEmpty then others else (e, a) :: others, c)

def description (e : Element) (a : Annotations) : Value :=
  .map [("kind", .text e.kind.name), ("line", .int (Int64.ofNat e.line)),
    ("annotations", a.toValue)]

def descriptions (es : List (Element × Annotations)) : List (String × Value) :=
  (es.foldl (fun found (e, a) => found.insert e.identity (description e a))
    (∅ : Std.TreeMap String Value)).toList

/-- The snapshot of the given files. Files without annotated elements are left out. -/
def fileSnapshots (x : Index) (fingerprint : String → δ) (c : Cache δ) :
    List String → Except Error (List (String × Value) × Cache δ)
  | [] => .ok ([], c)
  | path :: rest => do
    let (es, c) ← annotated fingerprint c (x.elementsIn path)
    let (others, c) ← fileSnapshots x fingerprint c rest
    return (if es.isEmpty then others else (path, .map (descriptions es)) :: others, c)

def snapshot (x : Index) (fingerprint : String → δ) (c : Cache δ) :
    Except Error (String × Cache δ) :=
  (x.fileSnapshots fingerprint c x.files).map fun (files, c) => (Json.indent (.map files), c)

end DocAnnotations.Index
