import LabelPress.Files.Tree
import LabelPress.Journal
import LabelPress.Text.Md5
import LabelPress.Text.Utf8

/-!
# Choosing a font

A font is chosen by the name of a preset or by the path of a TrueType file. A preset's file is
looked for only when text is drawn with it.
-/

namespace LabelPress.Font

open LabelPress.Files

/-- The presets and their files below the folder of fonts. -/
def presets : List (String × List String) :=
  [("noto", ["Noto_Sans", "NotoSans-VariableFont_wdth,wght.ttf"]),
   ("ibm-vga", ["IBM_VGA", "Px437_IBM_VGA_8x16.ttf"])]

/-- The families that every document embeds if their files are in the folder of fonts. -/
def standing : List (String × String) :=
  [("Swiss721BT-Roman", "Swiss721BT-Roman.otf"),
   ("Swiss721BT-Medium", "Swiss721BT-Medium.otf"),
   ("Swiss721BT-BoldCondensed", "Swiss721BT-BoldCondensed.otf")]

/-- What a run can see: its files, the folder of fonts that its user has set, and the folder of the
program. -/
structure Site where
  files : Tree
  fontsVariable : Option String
  home : Path
deriving Repr

/-- The folder of fonts if none is named: the one that the user has set, or the program's. -/
def Site.fontsDir (site : Site) : Path :=
  match site.fontsVariable with
  | some text => if text.isEmpty then site.home.below ["fonts"] else .ofText text
  | none => site.home.below ["fonts"]

/-- The folder of fonts that is named, or else the default one. -/
def Site.fontsDirOr (site : Site) (named : Option String) : Path :=
  match named with
  | some text => .ofText text
  | none => site.fontsDir

/-- Whether a selector is the path of a TrueType file. -/
def isTrueTypeFile (files : Tree) (selector : String) : Except Fault Bool :=
  let p := Path.ofText selector
  if p.suffix = ".ttf" then files.probeFile p.text else .ok false

/-- The path of the font that a text chooses. -/
def choose (site : Site) (fontsDir : Option String) (selector : String) :
    Except Fault (Option String) := do
  if ← isTrueTypeFile site.files selector then return some selector
  else
    return (presets.lookup selector).map fun names =>
      ((site.fontsDirOr fontsDir).below names).text

/-- The path of the font that a selector chooses. The names of all files are of characters, so a
selector that is not chooses none. -/
def resolve (site : Site) (fontsDir : Option String) (selector : Text.CodePoints) :
    Except Fault (Option String) :=
  match selector.toString? with
  | some s => choose site fontsDir s
  | none => .ok none

/-- The report on a selector that chooses no font. -/
def resolveJournal (site : Site) (fontsDir : Option String) (selector : Text.CodePoints) :
    List Journal.Entry :=
  match resolve site fontsDir selector with
  | .ok none => [⟨.warning, .fonts, "Unknown font renderer " ++ Text.quoted selector⟩]
  | _ => []

/-- The path of a font, if its file exists. -/
def require (files : Tree) (path : Option String) : Except Fault String :=
  match path with
  | some p => if p ≠ "" && files.isFile p then .ok p else .error (.fontNotFound (some p))
  | none => .error (.fontNotFound none)

/-- The path, or a word of its own for a font without a path. -/
def pathOrDefault (path : Option String) : String :=
  match path with
  | some p => if p = "" then "default" else p
  | none => "default"

/-- The name of the family that a font is embedded as. -/
def family (path : Option String) : String :=
  "CustomFont-" ++ Text.hexBytes (Text.Md5.digest (Text.utf8 (pathOrDefault path)))

/-- The media type of OpenType fonts. -/
def openType : String := "font/opentype"

/-- The media type of TrueType fonts. -/
def trueType : String := "font/truetype"

/-- The media type of a font by the end of its path. -/
def mediaType (path : String) : String :=
  if String.ofList ((Path.ofText path).suffix.toList.map Char.toLower) = ".otf" then openType
  else trueType

end LabelPress.Font
