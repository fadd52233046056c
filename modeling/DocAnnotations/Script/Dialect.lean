/-! # Dialects -/

namespace DocAnnotations.Script

structure Dialect where
  /-- Whether types may be annotated. -/
  types : Bool
  /-- Whether JSX elements are expressions. -/
  jsx : Bool
  /-- Whether the file only declares what is defined elsewhere. -/
  ambient : Bool
deriving DecidableEq, Repr

def endsWith (suffix text : List Char) : Bool := suffix.isSuffixOf text

def Dialect.ofFile (path : String) : Dialect :=
  let ends (suffix : String) := endsWith suffix.toList path.toList
  if ends ".ts" || ends ".tsx" || ends ".mts" || ends ".cts" then
    ⟨true, ends ".tsx", ends ".d.ts"⟩
  else
    ⟨false, ends ".jsx", false⟩

end DocAnnotations.Script
