/-!
# Paths

A path names a file by the folders that lead to it. Repeated slashes, single dots and a slash at
the end have no part in its normal form, two dots keep their place, and exactly two slashes at the
start differ from one.
-/

namespace LabelPress.Files

/-- Where a path starts. -/
inductive Root
  | working
  | slash
  | doubleSlash
deriving DecidableEq, Repr

/-- The text of a root. -/
def Root.text : Root → String
  | working => ""
  | slash => "/"
  | doubleSlash => "//"

/-- A path in normal form. -/
structure Path where
  root : Root
  names : List String
deriving DecidableEq, Repr

/-- The parts of a text between its slashes, empty ones included. -/
def segments (cs : List Char) : List (List Char) := cs.splitOn '/'

namespace Path

/-- The root that a text starts from. -/
def rootOf (cs : List Char) : Root :=
  match (cs.takeWhile (· = '/')).length with
  | 0 => .working
  | 2 => .doubleSlash
  | _ => .slash

/-- The path that a text names. -/
def ofText (text : String) : Path where
  root := rootOf text.toList
  names := ((segments text.toList).filter fun s => s ≠ [] && s ≠ ['.']).map String.ofList

/-- The text of a path, a dot if it is empty. -/
def text (p : Path) : String :=
  if p.root = .working && p.names.isEmpty then "."
  else p.root.text ++ "/".intercalate p.names

/-- A file below the path. -/
def below (p : Path) (names : List String) : Path := { p with names := p.names ++ names }

/-- The last name, empty if there is none. -/
def name (p : Path) : List Char := (p.names.getLast?.getD "").toList

/-- The end of the last name from its last dot on, unless the dot starts or ends the name. -/
def suffix (p : Path) : String :=
  let ending := p.name.reverse.takeWhile (· ≠ '.')
  let stem := p.name.length - ending.length
  if ending.length = p.name.length ∨ ending.isEmpty ∨ stem ≤ 1 then ""
  else String.ofList ('.' :: ending.reverse)

end Path

end LabelPress.Files
