import DocAnnotations.Text.Quoted

/-! # Errors -/

namespace DocAnnotations

/-- Why a file cannot be read. -/
inductive ReadFault where
  | notFound
  | isDirectory
  | notDirectory
  | invalidText
  /-- Any other reason, in the words of the system. -/
  | other (reason : String)
deriving DecidableEq, Repr

/-- The text of a fault. The numbers are those of the operating system. -/
def ReadFault.message : ReadFault → String
  | notFound => "No such file or directory (os error 2)"
  | isDirectory => "Is a directory (os error 21)"
  | notDirectory => "Not a directory (os error 20)"
  | invalidText => "stream did not contain valid UTF-8"
  | other reason => reason

inductive Error where
  /-- An element of this kind cannot carry doc comments. -/
  | unsupported (kind identity : String)
  /-- The file at this path cannot be read. -/
  | unreadable (path : String) (fault : ReadFault)
  /-- The source at this path does not follow the grammar. The words in which the parser says why
  are left out. -/
  | unparsable (path : String)
  /-- No indexed element has this identity. -/
  | notIndexed (identity : String)
deriving DecidableEq, Repr

/-- The text of an error. Behind the path of a source that does not follow the grammar, a colon and
the words of the parser are left out. -/
def Error.message : Error → String
  | unsupported kind identity =>
    "reflector of kind `" ++ kind ++ "` (" ++ identity ++ ") does not provide doc comments"
  | unreadable path fault => "failed to read " ++ Text.quoted path ++ ": " ++ fault.message
  | unparsable path => "failed to parse " ++ path
  | notIndexed identity => "no element `" ++ identity ++ "` in index"

end DocAnnotations
