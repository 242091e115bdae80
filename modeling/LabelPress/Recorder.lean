import LabelPress.Settings.Configuration

/-!
# The recorder of the journal

Entries go to the console and to a file that is rolled over. Once there is a handler, setting up
again changes nothing; the console always stays at warnings, and the file keeps to the level of the
recorder.
-/

namespace LabelPress.Journal

open LabelPress.Files LabelPress.Settings

/-- Where entries of a level and above go. -/
inductive Handler
  | console (level : Level)
  | rollingFile (level : Level)
deriving DecidableEq, Repr

/-- The level of a handler. -/
def Handler.level : Handler → Level
  | console l => l
  | rollingFile l => l

/-- The handler after the level was set: only the file follows it. -/
def Handler.follow (level : Level) : Handler → Handler
  | console l => console l
  | rollingFile _ => rollingFile level

/-- The capital form of a character as far as names of levels can tell: that of a plain letter, and
that of the dotless i. -/
def capital (c : Char) : Char := if c = 'ı' then 'I' else c.toUpper

/-- The level that a text names in letters of any case, or else that of information. -/
def Level.ofText (text : String) : Level :=
  let name := String.ofList (text.toList.map capital)
  (all.find? fun l => l.name = name).getD info

/-- The level that a text names. One with halves of surrogate pairs is no name. -/
def Level.ofPoints (s : Text.CodePoints) : Level := s.toString?.elim info ofText

/-- The level that a setting names. One that has no shown form names none. -/
def Level.ofValue (v : Value) : Except Fault Level :=
  match v with
  | .text s => .ok (ofPoints s)
  | v => if v.isShowable then .ok info else .error .integerTooLong

/-- A recorder: its level, its handlers, and whether it passes entries on to others. -/
structure Recorder where
  level : Level
  handlers : List Handler
  propagates : Bool
deriving DecidableEq, Repr

/-- The folder of the journal's file. -/
def folder : String := "logs"

/-- The name of the journal's file in its folder. -/
def fileName : String := "zpl_to_svg.log"

/-- The variable of the environment that names a level. -/
def levelVariable : String := "ZPL_LOG_LEVEL"

namespace Recorder

/-- The recorder before it is set up. -/
def initial : Recorder := ⟨.info, [], false⟩

/-- The place of the journal's folder, which is in the working folder. -/
def folderPlace (files : Tree) : List String := files.working ++ [folder]

/-- The place of the journal's file. -/
def filePlace (files : Tree) : List String := folderPlace files ++ [fileName]

/-- Why the journal's file cannot be opened, if it cannot: a file in place of its folder, or a
folder in its own place. -/
def fileFault? (files : Tree) : Option String :=
  match files.node? (folderPlace files) with
  | some (.file _) => some ("[Errno 17] File exists: " ++ Text.quoted folder)
  | _ =>
    match files.node? (filePlace files) with
    | some .folder => some (Fault.isFolder (folder ++ "/" ++ fileName)).message
    | _ => none

/-- The files after the journal's file was opened. -/
def openFile (files : Tree) : Tree :=
  if (files.node? (filePlace files)).isSome then files
  else files.put (filePlace files) (.file [])

/-- The report on a file that cannot be opened. -/
def fileEntry (reason : String) : Entry :=
  ⟨.warning, .program, "Не удалось инициализировать файловое логирование: " ++ reason
    ++ ". Используется только консоль."⟩

/-- What something done to a recorder leaves, its reports, and the level if it set one. -/
structure Outcome where
  recorder : Recorder
  files : Tree
  journal : List Entry := []
  result : Except Fault (Option Level) := .ok none

/-- What setting up with the level that a variable names leaves. Without its file the recorder has
only the console. -/
def setUp (r : Recorder) (files : Tree) (named : Option Text.CodePoints) : Outcome :=
  if r.handlers.isEmpty then
    let level := Level.ofPoints (named.getD Level.info.name)
    match fileFault? files with
    | some reason =>
      { recorder := ⟨level, [.console .warning], false⟩, files, journal := [fileEntry reason] }
    | none =>
      { recorder := ⟨level, [.console .warning, .rollingFile level], false⟩,
        files := openFile files }
  else { recorder := r, files }

/-- The recorder with another level. -/
def setLevel (r : Recorder) (level : Level) : Recorder :=
  { r with level, handlers := r.handlers.map (·.follow level) }

/-- The recorder without handlers. -/
def dropHandlers (r : Recorder) : Recorder := { r with handlers := [] }

/-- Something done to a recorder or to the files beside it. -/
inductive Action
  /-- Set it up with the level that a variable names. -/
  | setUp (named : Option Text.CodePoints)
  /-- Set the level that a value names. -/
  | setLevel (value : Value)
  /-- Start the program, with what the variables for the level and the folder of fonts hold. -/
  | start (named fonts : Option Text.CodePoints)
  /-- Take all handlers off. -/
  | dropHandlers
  /-- Put a file or a folder where a path leads. -/
  | write (path : String) (node : Node)

/-- What starting the program leaves: the recorder is set up, and then brought to the configured
level, unless a variable names one. -/
def start (r : Recorder) (files : Tree) (named fonts : Option Text.CodePoints) : Outcome :=
  let up := r.setUp files named
  let loaded := Configuration.load up.files fonts none
  let journal := up.journal ++ loaded.journal
  match loaded.result, named with
  | .error fault, _ => { up with journal, result := .error fault }
  | .ok _, some _ => { up with journal }
  | .ok c, none =>
    match Level.ofValue (c.valueOrDefault "log_level") with
    | .error fault => { up with journal, result := .error fault }
    | .ok level => { up with recorder := up.recorder.setLevel level, journal }

/-- What an action leaves. -/
def act (r : Recorder) (files : Tree) : Action → Outcome
  | .setUp named => r.setUp files named
  | .setLevel value =>
    match Level.ofValue value with
    | .error fault => { recorder := r, files, result := .error fault }
    | .ok level => { recorder := r.setLevel level, files, result := .ok (some level) }
  | .start named fonts => r.start files named fonts
  | .dropHandlers => { recorder := r.dropHandlers, files }
  | .write path node => { recorder := r, files := files.write path node }

/-- The recorder and the files after some actions. -/
def run (r : Recorder) (files : Tree) : List Action → Recorder × Tree
  | [] => (r, files)
  | a :: rest => run (r.act files a).recorder (r.act files a).files rest

end Recorder

/-- The name of a recorder below the root recorder: names that lie below it already stay, the main
program has a name of its own, and dots at the start are left out. -/
def qualifiedName (root requested : String) : String :=
  let start := root.toList ++ ['.']
  if requested = root ∨ start.isPrefixOf requested.toList then requested
  else if requested = "__main__" then root ++ ".main"
  else root ++ "." ++ String.ofList (requested.toList.dropWhile (· = '.'))

end LabelPress.Journal
