import LabelPress.Fault
import LabelPress.Files.Path
import LabelPress.Text.Cut

/-!
# The files of a run

The files and folders that a run can see, as a value. A text is followed one segment at a time, as
an operating system does: from the root if it starts with a slash, and else from the working folder.
Two dots lead to the folder above, and a file can only be the last segment.
-/

namespace LabelPress.Files

/-- What a path may lead to. -/
inductive Node
  | folder
  | file (bytes : List UInt8)
deriving DecidableEq, Repr

/-- Whether it is a file. -/
def Node.isFile : Node → Bool
  | folder => false
  | file _ => true

/-- The nodes by their places, which are the names that lead there from the root, and the place of
the working folder. Of two entries for one place the first one counts. -/
structure Tree where
  nodes : List (List String × Node)
  working : List String := []
deriving Repr

/-- What following a text comes to. -/
inductive Finding
  /-- Nothing is there, nor is there a folder for it. -/
  | missing
  /-- Nothing is there, but there is a folder for it. -/
  | vacant
  /-- A file stands in the way. -/
  | blocked
  /-- The text or a name in it is too long. -/
  | tooLong
  | node (n : Node)
deriving DecidableEq, Repr

/-- The most bytes that a name may have. -/
def nameLimit : Nat := 255

/-- The most bytes that the text of a path may have. -/
def pathLimit : Nat := 4095

namespace Tree

/-- No files. -/
def empty : Tree := { nodes := [] }

/-- The node at a place. The root, the working folder and the folders between are always there. -/
def node? (t : Tree) (names : List String) : Option Node :=
  if names.isPrefixOf t.working then some .folder
  else t.nodes.lookup names

/-- Where segments lead from a folder. Above the root is the root. -/
def follow (t : Tree) : List String → List String → Finding
  | _, [] => .node .folder
  | place, s :: rest =>
    if s = "" ∨ s = "." then follow t place rest
    else if s = ".." then follow t place.dropLast rest
    else if nameLimit < s.utf8ByteSize then .tooLong
    else match t.node? (place ++ [s]) with
      | none => if rest.isEmpty then .vacant else .missing
      | some .folder => follow t (place ++ [s]) rest
      | some (.file bytes) => if rest.isEmpty then .node (.file bytes) else .blocked

/-- Where a text is followed from: the root if a slash comes first, and else the working folder. -/
def start (t : Tree) (text : String) : List String :=
  if text.toList.head? = some '/' then [] else t.working

/-- The segments of a text. -/
def segmentsOf (text : String) : List String := (segments text.toList).map String.ofList

/-- Where a text leads. -/
def find (t : Tree) (text : String) : Finding :=
  if text.isEmpty || text.toList.contains '\x00' then .missing
  else if pathLimit < text.utf8ByteSize then .tooLong
  else follow t (t.start text) (segmentsOf text)

/-- Whether a text leads to a file. -/
def isFile (t : Tree) (text : String) : Bool :=
  match t.find text with
  | .node n => n.isFile
  | _ => false

/-- What a text leads to, if it leads anywhere. One that is too long cannot be asked about. -/
def probe (t : Tree) (text : String) : Except Fault (Option Node) :=
  match t.find text with
  | .node n => .ok (some n)
  | .tooLong => .error (.nameTooLong text)
  | .missing | .vacant | .blocked => .ok none

/-- Whether a text, about which one can ask, leads to a file. -/
def probeFile (t : Tree) (text : String) : Except Fault Bool :=
  (t.probe text).map fun n => n.any Node.isFile

/-- The bytes of the file that a text leads to. -/
def read (t : Tree) (text : String) : Except Fault (List UInt8) :=
  match t.find text with
  | .node (.file bytes) => .ok bytes
  | .node .folder => .error (.isFolder text)
  | .blocked => .error (.notFolder text)
  | .tooLong => .error (.nameTooLong text)
  | .missing | .vacant =>
    if text.toList.contains '\x00' then .error .nullInPath else .error (.noSuchFile text)

/-- Why no file can be written where a text leads, if none can: its folder must exist, and what the
text names must not be a folder, nor be written like one. -/
def writeFault? (t : Tree) (text : String) : Option Fault :=
  let named := Text.dropEndWhile (· = '/') text.toList
  if text.toList.contains '\x00' then some .nullInPath
  else if text = "" then some (.noSuchFile text)
  else if pathLimit < text.utf8ByteSize then some (.nameTooLong text)
  else if named.isEmpty then some (.isFolder text)
  else
    match t.find (String.ofList named) with
    | .missing => some (.noSuchFile text)
    | .blocked => some (.notFolder text)
    | .tooLong => some (.nameTooLong text)
    | .node .folder => some (.isFolder text)
    | .node (.file _) | .vacant =>
      if named.length < text.length then some (.isFolder text) else none

/-- The folders that lead to some names, the nearest last. -/
def foldersTo : List String → List (List String)
  | [] => []
  | [_] => []
  | name :: rest => [name] :: (foldersTo rest).map (name :: ·)

/-- The files without a node and all below it. -/
def remove (t : Tree) (names : List String) : Tree :=
  { t with nodes := t.nodes.filter fun n => !names.isPrefixOf n.1 }

/-- The files with a node in place of what was there, and with the folders that lead to it. A folder
that is there already keeps what it holds, and nothing takes the place of the working folder or of
one on the way to it. -/
def put (t : Tree) (names : List String) (n : Node) : Tree :=
  if names.isPrefixOf t.working ∨ n = .folder ∧ t.node? names = some .folder then t
  else
    let t := t.remove names
    let folders := (foldersTo names).filter fun f => (t.node? f).isNone
    { t with nodes := (names, n) :: folders.map (fun f => (f, .folder)) ++ t.nodes }

/-- The place that a segment leads to, if only folders are on the way. -/
def step (place : List String) (segment : String) : List String :=
  if segment = "" ∨ segment = "." then place
  else if segment = ".." then place.dropLast
  else place ++ [segment]

/-- The place that a text names, if only folders are on the way. -/
def placeOf (t : Tree) (text : String) : List String :=
  (segmentsOf text).foldl step (t.start text)

/-- The files with a node written where a text leads. -/
def write (t : Tree) (text : String) (n : Node) : Tree := t.put (t.placeOf text) n

/-- The files without what a text leads to. -/
def delete (t : Tree) (text : String) : Tree := t.remove (t.placeOf text)

end Tree

end LabelPress.Files
