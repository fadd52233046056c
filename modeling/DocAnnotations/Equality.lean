import DocAnnotations.Annotations

/-!
# Equality

Floats are compared as numbers: the two zeros are equal, and what is not a number
equals nothing.
-/

namespace DocAnnotations

def Binary64.equals (x y : Binary64) : Bool :=
  x.magnitude ≤ infiniteMagnitude && (x = y || (x.isZero && y.isZero))

namespace Value

mutual

def equals : Value → Value → Bool
  | .null, .null => true
  | .bool a, .bool b => a == b
  | .int m, .int n => m == n
  | .float x, .float y => x.equals y
  | .text s, .text t => s == t
  | .list vs, .list ws => equalItems vs ws
  | .map es, .map fs => equalEntries es fs
  | _, _ => false

def equalItems : List Value → List Value → Bool
  | [], [] => true
  | v :: vs, w :: ws => v.equals w && equalItems vs ws
  | _, _ => false

/-- The order of the entries counts. -/
def equalEntries : List (String × Value) → List (String × Value) → Bool
  | [], [] => true
  | (k, v) :: es, (l, w) :: fs => k == l && v.equals w && equalEntries es fs
  | _, _ => false

end

instance : BEq Value := ⟨equals⟩

end Value

instance : BEq Annotations := ⟨fun a b => a.entries == b.entries && a.index == b.index⟩

end DocAnnotations
