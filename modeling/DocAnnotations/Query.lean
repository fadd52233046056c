import DocAnnotations.Extraction
import DocAnnotations.Json.Writer

/-!
# Questions about one source

Answers for those who hold a comment or a source in their hands and keep no index.
One cache serves them all.
-/

namespace DocAnnotations

/-- Why a question about a source has no answer. -/
inductive QueryError where
  /-- The source does not follow the grammar. Why is left out, as in an `Error`. -/
  | unparsable (path : String)
  | noElement (qualifiedName path : String)
  /-- The element cannot be looked up. -/
  | failed (error : Error)
deriving DecidableEq, Repr

def QueryError.message : QueryError → String
  | unparsable path => (Error.unparsable path).message
  | noElement qualifiedName path => "no element `" ++ qualifiedName ++ "` in " ++ path
  | failed error => error.message

namespace Query

variable {δ : Type} [DecidableEq δ]

def annotationsOf (comment : String) : String := Json.write (Annotations.parse comment).toValue

def elementOf (source path qualifiedName : String) : Except QueryError Element :=
  match extract path source with
  | .error _ => .error (.unparsable path)
  | .ok es =>
    match es.find? (·.qualifiedName = qualifiedName) with
    | some e => .ok e
    | none => .error (.noElement qualifiedName path)

def first (fingerprint : String → δ) (c : Cache δ) (source path qualifiedName name : String) :
    Except QueryError (Option String × Cache δ) := do
  let e ← elementOf source path qualifiedName
  match c.get fingerprint e.documented name with
  | .ok (v, c) => return (v.map Json.write, c)
  | .error err => throw (.failed err)

def all (fingerprint : String → δ) (c : Cache δ) (source path qualifiedName name : String) :
    Except QueryError (String × Cache δ) := do
  let e ← elementOf source path qualifiedName
  match c.getAll fingerprint e.documented name with
  | .ok (vs, c) => return (Json.write (.list vs), c)
  | .error err => throw (.failed err)

end Query

end DocAnnotations
