import OfflineSupply.Text.Cut

/-!
# Paths

A path is an anchor and the names below it.  Reading a path drops empty names and single
dots, keeps double dots, and tells two leading slashes from one or from three.  Writing it
puts one slash between two names; a relative path without names is a dot.
-/

namespace OfflineSupply

/-- Where a path starts. -/
inductive Anchor where
  | here
  | root
  | doubleRoot
  deriving DecidableEq, Repr

/-- A path: where it starts, and the names on the way. -/
structure Path where
  anchor : Anchor
  names : List String
  deriving DecidableEq, Repr

namespace Path

/-- The names of a text between slashes, without empty ones and single dots. -/
def namesOf (cs : List Char) : List String :=
  ((Text.pieces '/' cs).filter fun name => name ≠ [] && name ≠ ['.']).map String.ofList

/-- The path that a text spells. -/
def ofText (text : String) : Path :=
  let cs := text.toList
  let anchor := match (cs.takeWhile (· = '/')).length with
    | 0 => .here
    | 2 => .doubleRoot
    | _ => .root
  { anchor, names := namesOf cs }

/-- What a path with an anchor begins with. -/
def Anchor.text : Anchor → String
  | .here => ""
  | .root => "/"
  | .doubleRoot => "//"

/-- The text of a path. -/
def text (p : Path) : String :=
  if p.anchor = .here && p.names.isEmpty then "."
  else Anchor.text p.anchor ++ "/".intercalate p.names

/-- The working directory. -/
def here : Path := { anchor := .here, names := [] }

/-- A path below another one; an anchored path stands for itself. -/
def join (p q : Path) : Path :=
  if q.anchor = .here then { p with names := p.names ++ q.names } else q

/-- The file with a name below a path. -/
def child (p : Path) (name : String) : Path :=
  p.join (ofText name)

/-- The last name of a path. -/
def name (p : Path) : String :=
  p.names.getLast?.getD ""

/-- The path with text added to its last name. -/
def addToName (p : Path) (ending : String) : Path :=
  { p with names := p.names.dropLast ++ [p.name ++ ending] }

/-- The names of `p` below `base`, when it is there. -/
def below? (base p : Path) : Option Path :=
  if base.anchor = p.anchor && base.names.isPrefixOf p.names then
    some { anchor := .here, names := p.names.drop base.names.length }
  else none

/-- A path in a message for a working directory: an anchored path below it is shown by the
names that lead there, with a remark. -/
def shownFrom (p directory : Path) : String :=
  if p.anchor = .here then p.text
  else match below? directory p with
    | some q => q.text ++ " (abs)"
    | none => p.text

end Path

end OfflineSupply
