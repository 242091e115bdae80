import LabelPress.Files.Tree
import LabelPress.Number.Reading
import LabelPress.Reported
import LabelPress.Settings.Json
import LabelPress.Text.Utf8

/-!
# The configuration

The settings of a user's file are laid over the defaults all together or not at all. The numeric
settings are then brought to their kinds, one that cannot be to its default, and a folder of fonts
from the user's environment goes before all.
-/

namespace LabelPress.Settings

open LabelPress.Number LabelPress.Files

/-- Settings in order. -/
abbrev Configuration := Entries Text.CodePoints Value

/-- The kinds of numeric settings. -/
inductive NumberKind
  | fractional
  | whole
deriving DecidableEq, Repr

/-- What bringing a value to a kind of number comes to. -/
inductive Coercion
  | number (v : Value)
  | unsuitable
  | fault (f : Fault)

/-- A result, or the fault in its place. -/
def Coercion.ofResult : Except Fault Value → Coercion
  | .ok v => number v
  | .error f => fault f

/-- The fractional number that a value stands for. -/
def toFractional : Value → Coercion
  | .int n => .ofResult ((Binary64.ofInt n).map .float)
  | .float x => .number (.float x)
  | .text s => (s.toString?.bind floatOfText?).elim .unsuitable fun x => .number (.float x)
  | _ => .unsuitable

/-- The whole number that a value stands for. A fractional one loses its places. -/
def toWhole : Value → Coercion
  | .int n => .number (.int n)
  | .float .nan => .unsuitable
  | .float x => .ofResult (x.truncate.map .int)
  | .text s => (s.toString?.bind integerOfText?).elim .unsuitable fun n => .number (.int n)
  | _ => .unsuitable

/-- The number of a kind that a value stands for. -/
def NumberKind.coerce : NumberKind → Value → Coercion
  | fractional => toFractional
  | whole => toWhole

namespace Configuration

/-- The settings that hold without a file. -/
def defaults : Configuration :=
  [("width_inches", .float (.ofRatio false 4 1)),
   ("height_inches", .float (.ofRatio false 6 1)),
   ("dpi", .int 300),
   ("font_renderer", .text "noto"),
   ("fonts_dir", .null),
   ("rasterizers", .list [.text "rsvg-convert", .text "cairosvg"]),
   ("jpeg_quality", .int 90),
   ("png_compress_level", .int 9),
   ("log_level", .text "INFO")]

/-- The numeric settings and their kinds. -/
def numericKeys : List (String × NumberKind) :=
  [("width_inches", .fractional), ("height_inches", .fractional), ("dpi", .whole),
   ("jpeg_quality", .whole), ("png_compress_level", .whole)]

/-- The value of a setting, if it is set. -/
def value? (c : Configuration) (key : String) : Option Value := c.get? (key : Text.CodePoints)

/-- The configuration with a setting set. -/
def set (c : Configuration) (key : String) (v : Value) : Configuration :=
  c.put (key : Text.CodePoints) v

/-- The value of a setting, null if it is not set. -/
def valueOf (c : Configuration) (key : String) : Value := (c.value? key).getD .null

/-- The value of a setting, that of the defaults if it is not set. -/
def valueOrDefault (c : Configuration) (key : String) : Value :=
  (c.value? key).getD (defaults.valueOf key)

/-- The report on a value that is no number of its kind. -/
def unsuitableEntry (key : String) (v : Value) : Journal.Entry :=
  ⟨.warning, .program, "Недопустимое значение " ++ key ++ "=" ++ v.shown ++ ". Используется "
    ++ (defaults.valueOf key).shown ++ "."⟩

/-- The configuration with one numeric setting brought to its kind. The report on an unsuitable
value shows it, so a value without a shown form is a fault. -/
def coerceKey (c : Configuration) (key : String) (kind : NumberKind) : Reported Configuration :=
  match kind.coerce (c.valueOf key) with
  | .number v => ⟨[], .ok (c.set key v)⟩
  | .unsuitable =>
    if (c.valueOf key).isShowable then
      ⟨[unsuitableEntry key (c.valueOf key)], .ok (c.set key (defaults.valueOf key))⟩
    else ⟨[], .error .integerTooLong⟩
  | .fault f => ⟨[], .error f⟩

/-- The configuration with some numeric settings brought to their kinds. -/
def coerceKeys (c : Configuration) : List (String × NumberKind) → Reported Configuration
  | [] => ⟨[], .ok c⟩
  | (key, kind) :: rest => (c.coerceKey key kind).andThen fun c => coerceKeys c rest

/-- The configuration with its numeric settings brought to their kinds. -/
def coerceNumbers (c : Configuration) : Reported Configuration := c.coerceKeys numericKeys

/-! ## Files -/

/-- The name of the file that is looked for if none is named. -/
def defaultFile : String := "zpl_to_svg.json"

/-- Why a file gives no settings. -/
inductive FileFault
  /-- Nothing is there. -/
  | missing
  /-- What is there cannot be opened. -/
  | unreadable (f : Fault)
  /-- The bytes are no text. -/
  | undecodable (d : Text.Utf8.Damage)
  /-- The text is no JSON, from a line and a column on. -/
  | malformed (line column : Nat)
  /-- An integer has more digits than may be read. -/
  | numeralTooLong (digits : Nat)
  /-- The value is no object but of another kind. -/
  | noObject (kind : String)
  /-- A failure for which the defaults do not make up. -/
  | fatal (f : Fault)

/-- The text with a line feed at every line's end. -/
def unixLines : List Char → List Char
  | '\r' :: '\n' :: rest => '\n' :: unixLines rest
  | '\r' :: rest => '\n' :: unixLines rest
  | c :: rest => c :: unixLines rest
  | [] => []

/-- What a list or an object is called where it lies too deep. -/
def nestedName : Json.Nested → String
  | .list => "array"
  | .object => "object"

/-- The settings that a text spells. A byte order mark at its start does not belong there. -/
def ofText (text : List Char) : Except FileFault Configuration :=
  if text.head? = some '\uFEFF' then .error (.malformed 1 1)
  else match Json.read text with
    | .error (.malformed offset) =>
      let (line, column) := Json.position text offset
      .error (.malformed line column)
    | .error (.numeralTooLong digits) => .error (.numeralTooLong digits)
    | .error (.tooDeep kind) => .error (.fatal (.nestedTooDeep (nestedName kind)))
    | .ok (.object entries) => .ok entries
    | .ok v => .error (.noObject v.kindName)

/-- The settings that a file spells. -/
def ofFile (files : Tree) (path : String) : Except FileFault Configuration :=
  match files.probe path with
  | .error f => .error (.fatal f)
  | .ok none => .error .missing
  | .ok (some _) =>
    match files.read path with
    | .error f => .error (.unreadable f)
    | .ok bytes =>
      match Text.ofUtf8 bytes with
      | .error damage => .error (.undecodable damage)
      | .ok text => ofText (unixLines text.toList)

/-- What follows a report that the defaults hold. -/
def defaultsHold : String := "Используется конфигурация по умолчанию."

/-- The report on settings whose form is wrong. -/
def formEntry (detail : String) : Journal.Entry :=
  ⟨.warning, .program, "Недопустимый формат конфигурации: " ++ detail ++ ". " ++ defaultsHold⟩

/-- The report on a file, unless a failure ends the work with it. -/
def fileJournal (path : String) : Except FileFault Configuration → List Journal.Entry
  | .ok _ => [⟨.info, .program, "Конфигурация загружена из " ++ path⟩]
  | .error .missing =>
    [⟨.info, .program, "Файл конфигурации " ++ path ++ " не найден. " ++ defaultsHold⟩]
  | .error (.unreadable f) =>
    [⟨.warning, .program, "Не удалось прочитать " ++ path ++ ": " ++ f.message ++ ". "
      ++ defaultsHold⟩]
  | .error (.malformed line column) =>
    [⟨.warning, .program, "Не удалось разобрать " ++ path ++ ": Недопустимый JSON в строке "
      ++ toString line ++ ", столбце " ++ toString column ++ ". " ++ defaultsHold⟩]
  | .error (.undecodable damage) => [formEntry damage.message]
  | .error (.numeralTooLong digits) => [formEntry (Fault.numeralTooLong digits).message]
  | .error (.noObject kind) =>
    [formEntry ("Файл конфигурации должен содержать JSON-объект, получен " ++ kind)]
  | .error (.fatal _) => []

/-- The defaults with a file's settings laid over them, if it gives any. -/
def overlaid : Except FileFault Configuration → Except Fault Configuration
  | .ok user => .ok (defaults.putAll user)
  | .error (.fatal f) => .error f
  | .error _ => .ok defaults

/-- The configuration with the folder of fonts from the user's environment, if that names one. -/
def withFontsVariable (c : Configuration) : Option Text.CodePoints → Configuration
  | some text => if text.isEmpty then c else c.set "fonts_dir" (.text text)
  | none => c

/-- The report on a whole configuration. -/
def entry (c : Configuration) : Journal.Entry :=
  ⟨.debug, .program, "Конфигурация: " ++ (Value.object c).shown⟩

/-- The configuration of a run. Its report needs no condition: what a file spells and what that is
converted to has shown forms. -/
def load (files : Tree) (fontsVariable : Option Text.CodePoints) (path : Option String) :
    Reported Configuration :=
  let path := (Path.ofText (path.getD defaultFile)).text
  let user := ofFile files path
  (⟨fileJournal path user, overlaid user⟩ : Reported Configuration).andThen fun c =>
  c.coerceNumbers.andThen fun c =>
  let c := c.withFontsVariable fontsVariable
  ⟨[c.entry], .ok c⟩

end Configuration

end LabelPress.Settings
