import LabelPress.Bitmap.Flaw
import LabelPress.Bitmap.Picture
import LabelPress.Bitmap.Saving
import LabelPress.Label.Conversion
import LabelPress.Rasterizer.Selection
import LabelPress.Settings.Configuration

/-!
# Bitmaps of labels

A label's document is rasterized, the picture is laid over white and brought to the size that was
asked for, and a file of it is written. Nothing is written before all else has succeeded. How data
are read as a picture, how a bitmap is brought to another size, and how it is encoded is the
business of a library that is left open.
-/

namespace LabelPress

open LabelPress.Bitmap LabelPress.Number LabelPress.Settings

namespace Label

variable {δ : Type}

/-- A library that turns data into pictures, bitmaps into bitmaps of a width and a height, and
bitmaps into the bytes of files. -/
structure Imaging (δ : Type) where
  read : δ → Except Unread Picture
  resize : Bitmap → (width height : Int) → Except Fault Bitmap
  encode : Saving → Bitmap → Except Fault (List UInt8)

/-- The fault of data that are no picture. -/
def unreadable : Fault := .rasterizationFailed "Rasterizer output is not a readable image"

/-- The report on a bitmap whose size is not the one that was asked for. -/
def resizeEntry (e : Extent) (width height : Int) : Journal.Entry :=
  ⟨.debug, .exporting, "Resizing (" ++ toString e.width ++ ", " ++ toString e.height ++ ") to "
    ++ integerText width ++ "x" ++ integerText height⟩

/-- The bitmap at a width and a height. -/
def fit (imaging : Imaging δ) (b : Bitmap) (width height : Int) : Reported Bitmap :=
  if (b.extent.width : Int) = width ∧ (b.extent.height : Int) = height then .of (.ok b)
  else ⟨[resizeEntry b.extent width height], imaging.resize b width height⟩

/-- The picture that data hold. -/
def pictureOf (imaging : Imaging δ) (data : δ) : Except Fault Picture :=
  match imaging.read data with
  | .ok p => .ok p
  | .error .unknown => .error unreadable
  | .error (.flawed flaw) => .error (.flawedPicture flaw)

/-- The bitmap of a document. -/
def rasterize (imaging : Imaging δ) (r : Rasterizer δ) (q : Rasterizer.Request) : Work Bitmap :=
  (r.rasterize q).andThen fun data =>
  (Work.of (pictureOf imaging data)).andThen fun p =>
  .ofReported (fit imaging p.flatten q.width q.height)

/-- The bitmap of a label. -/
def toBitmap (site : Font.Site) (imaging : Imaging δ) (r : Rasterizer δ) (source : LabelSource) :
    Work Bitmap :=
  (Work.ofReported (convert site source)).andThen fun document =>
  (Work.of source.size).andThen fun size =>
  rasterize imaging r ⟨document, size.1, size.2⟩

/-- The report on a file that was written. -/
def savedEntry (s : Saving) : Journal.Entry :=
  ⟨.info, .exporting, "Saved " ++ s.format.name ++ " " ++ s.path ++ " ("
    ++ toString s.extent.width ++ "x" ++ toString s.extent.height ++ ")"⟩

/-- The file of a bitmap. It is opened before the encoder looks at what it is asked for, and a file
that was not there before does not outlast a refusal. -/
def save (files : Files.Tree) (imaging : Imaging δ) (b : Bitmap) (s : Saving) : Work Unit :=
  match files.writeFault? s.path, imaging.encode s b with
  | some fault, _ => ⟨[.encoderAsked s], [], .error fault⟩
  | none, .error fault =>
    let emptied := [.encoderAsked s, .fileWritten s.path []]
    ⟨if files.isFile s.path then emptied else emptied ++ [.fileRemoved s.path], [], .error fault⟩
  | none, .ok bytes => ⟨[.encoderAsked s, .fileWritten s.path bytes], [savedEntry s], .ok ()⟩

/-- Where and how a bitmap is to be saved. -/
structure Target where
  path : String
  format : Format
  option : Value
  dpi : Value

/-- What the encoder is asked for to save a bitmap in a place. -/
def Target.saving (t : Target) (b : Bitmap) : Saving :=
  ⟨t.path, t.format, b.extent, t.option, t.dpi⟩

/-- The file of a label. -/
def toFile (site : Font.Site) (imaging : Imaging δ) (r : Rasterizer δ) (source : LabelSource)
    (target : Target) : Work Unit :=
  (toBitmap site imaging r source).andThen fun b =>
  save site.files imaging b (target.saving b)

/-! ## Export -/

/-- The format that the ending of a path belongs to. -/
def formatOf (p : Files.Path) : Except Fault Format :=
  match Format.ofSuffix? p.suffix with
  | some f => .ok f
  | none => .error (.unsupportedFormat p.suffix)

/-- Where and how a configuration saves a bitmap at a path. -/
def targetOf (p : Files.Path) (f : Format) (c : Configuration) : Target where
  path := p.text
  format := f
  option := (c.value? f.optionKey).getD f.standardOption
  dpi := c.valueOrDefault "dpi"

/-- The file of a label with the settings of a configuration, and its path. An ending that is not
supported is found out first, and unknown rasterizers before the label is looked at. -/
def exportAt (site : Font.Site) (imaging : Imaging δ)
    (make : (place : Nat) → Rasterizer.Known → Rasterizer δ) (markup output : String)
    (c : Configuration) : Work String :=
  let path := Files.Path.ofText output
  (Work.of (formatOf path)).andThen fun f =>
  (Work.of (Rasterizer.selectChainAt make (c.valueOf "rasterizers"))).andThen fun chain =>
  (toFile site imaging chain (.ofSettings markup c) (targetOf path f c)).andThen fun _ =>
  .of (.ok path.text)

/-- The same with rasterizers that answer alike in all places. -/
def exportWith (site : Font.Site) (imaging : Imaging δ)
    (make : Rasterizer.Known → Rasterizer δ) (markup output : String) (c : Configuration) :
    Work String :=
  exportAt site imaging (fun _ => make) markup output c

/-- The file of a label with a configuration, or else with the one of the run. -/
def exportFile (site : Font.Site) (imaging : Imaging δ) (make : Rasterizer.Known → Rasterizer δ)
    (markup output : String) (config : Option Configuration) : Work String :=
  match config with
  | some c => exportWith site imaging make markup output c
  | none =>
    let fontsVariable := site.fontsVariable.map Text.CodePoints.ofString
    (Work.ofReported (Configuration.load site.files fontsVariable none)).andThen fun c =>
    exportWith site imaging make markup output c

end Label

end LabelPress
