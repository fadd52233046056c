import DocAnnotations.Text.Invisible

/-! # Quoted names -/

namespace DocAnnotations.Text

/-- How a character is shown inside quotes. -/
def showQuoted (c : Char) : List Char :=
  if c = '"' then ['\\', '"']
  else if c = '\\' then ['\\', '\\']
  else if c = '\x00' then ['\\', '0']
  else if c = '\t' then ['\\', 't']
  else if c = '\n' then ['\\', 'n']
  else if c = '\r' then ['\\', 'r']
  else if isInvisible c then ['\\', 'u', '\x7b'] ++ Nat.toDigits 16 c.toNat ++ ['\x7d']
  else [c]

def quoted (name : String) : String :=
  String.ofList ('"' :: (name.toList.flatMap showQuoted ++ ['"']))

end DocAnnotations.Text
