/-!
# Words for a shell

An argument becomes one word of a shell's command line.  A text of harmless characters stands
for itself.  Any other text, the empty one too, is put between single quotes; a single quote
inside closes them, stands between double quotes, and opens them again.
-/

namespace OfflineSupply.Shell

/-- Characters other than letters and digits that mean nothing to a shell. -/
def harmlessMarks : List Char :=
  ['_', '@', '%', '+', '=', ':', ',', '.', '/', '-']

/-- Whether a character stands for itself outside quotes. -/
def isHarmless (c : Char) : Bool :=
  c.isAlphanum || harmlessMarks.contains c

/-- A character between single quotes. -/
def quotedChar (c : Char) : List Char :=
  if c = '\x27' then ['\x27', '\x22', '\x27', '\x22', '\x27'] else [c]

/-- The word that stands for an argument. -/
def word (argument : List Char) : List Char :=
  if !argument.isEmpty && argument.all isHarmless then argument
  else '\x27' :: argument.flatMap quotedChar ++ ['\x27']

/-- The command line of a list of arguments. -/
def line (arguments : List String) : String :=
  " ".intercalate (arguments.map fun argument => String.ofList (word argument.toList))

end OfflineSupply.Shell
