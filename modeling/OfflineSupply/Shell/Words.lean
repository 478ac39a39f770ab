/-!
# Reading a command line

A shell splits a line at blanks into words and removes the quoting.  Between single quotes
every character stands for itself; between double quotes a backslash takes away the meaning
of the five characters that have one there; elsewhere it does so for every character.  A
backslash at the end of a physical line joins it to the next one and is no part of a word.  A
line that asks for more than words — an operator, an expansion, a comment, a quote that is
never closed — is not split.
-/

namespace OfflineSupply.Shell

/-- Where in a line the reader stands, with the reversed characters of the word it is in. -/
inductive Reading where
  | between
  /-- Behind a backslash, with no word begun. -/
  | escape
  | bare (word : List Char)
  | bareEscape (word : List Char)
  | single (word : List Char)
  | double (word : List Char)
  | doubleEscape (word : List Char)

/-- The characters that have a meaning outside quotes. -/
def bareSpecials : List Char :=
  ['|', '&', ';', '<', '>', '(', ')', '$', '\x60', '*', '?', '[', '~', '\n']

/-- The characters that a backslash makes plain between double quotes. -/
def doubleSpecials : List Char :=
  ['$', '\x60', '\x22', '\\', '\n']

/-- What a character outside quotes does to the word so far. -/
def bareStep (word : List Char) (c : Char) : Option Reading :=
  if c = '\x27' then some (.single word)
  else if c = '\x22' then some (.double word)
  else if c = '\\' then some (.bareEscape word)
  else if bareSpecials.contains c then none
  else some (.bare (c :: word))

/-- The words of a line, read on from a state. -/
def wordsFrom : Reading → List Char → Option (List (List Char))
  | .between, [] => some []
  | .bare word, [] => some [word.reverse]
  | _, [] => none
  | .between, c :: cs =>
    if c = ' ' || c = '\t' then wordsFrom .between cs
    else if c = '#' then none
    else if c = '\\' then wordsFrom .escape cs
    else (bareStep [] c).bind fun next => wordsFrom next cs
  | .escape, c :: cs =>
    if c = '\n' then wordsFrom .between cs else wordsFrom (.bare [c]) cs
  | .bare word, c :: cs =>
    if c = ' ' || c = '\t' then (wordsFrom .between cs).map (word.reverse :: ·)
    else (bareStep word c).bind fun next => wordsFrom next cs
  | .bareEscape word, c :: cs =>
    if c = '\n' then wordsFrom (.bare word) cs else wordsFrom (.bare (c :: word)) cs
  | .single word, c :: cs =>
    if c = '\x27' then wordsFrom (.bare word) cs else wordsFrom (.single (c :: word)) cs
  | .double word, c :: cs =>
    if c = '\x22' then wordsFrom (.bare word) cs
    else if c = '\\' then wordsFrom (.doubleEscape word) cs
    else if c = '$' || c = '\x60' then none
    else wordsFrom (.double (c :: word)) cs
  | .doubleEscape word, c :: cs =>
    if c = '\n' then wordsFrom (.double word) cs
    else if doubleSpecials.contains c then wordsFrom (.double (c :: word)) cs
    else wordsFrom (.double (c :: '\\' :: word)) cs

/-- The words of a command line. -/
def words? (line : String) : Option (List String) :=
  (wordsFrom .between line.toList).map fun ws => ws.map String.ofList

end OfflineSupply.Shell
