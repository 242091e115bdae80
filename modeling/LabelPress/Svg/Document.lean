import LabelPress.Canvas.Basic
import LabelPress.Number.Numeral
import LabelPress.Svg.Node
import LabelPress.Text.Base64

/-!
# SVG documents

A canvas becomes a tree of one root: a style sheet with the embedded fonts, a white ground, and an
element for each primitive in order. Attributes stand in the order of their names, and those with
an empty value are left out.
-/

namespace LabelPress.Svg

open LabelPress.Number

/-- A rule of the style sheet that embeds a font. -/
structure FontFace where
  family : String
  mediaType : String
  bytes : List UInt8
deriving DecidableEq, Repr

/-- The text of a rule. -/
def FontFace.rule (f : FontFace) : String :=
  "@font-face \x7b\n  font-family: '" ++ f.family ++ "';\n  src: url('data:" ++ f.mediaType
    ++ ";base64," ++ String.ofList (Text.base64 f.bytes) ++ "');\n\x7d"

/-- The rule of a standing font, if its file is in a folder. -/
def standingFace? (files : Files.Tree) (folder : Files.Path) (family file : String) :
    Except Fault (Option FontFace) := do
  let path := (folder.below [file]).text
  if ← files.probeFile path then return some ⟨family, Font.openType, ← files.read path⟩
  else return none

/-- The rules of a canvas: the fonts of its texts, then the standing fonts whose files exist. -/
def fontFaces (files : Files.Tree) (c : Canvas) : Except Fault (List FontFace) := do
  let own := c.fonts.map fun f => ⟨f.family, Font.mediaType f.path, f.bytes⟩
  let standing ← Font.standing.mapM fun s => standingFace? files c.fontsDir s.1 s.2
  return own ++ standing.filterMap id

/-- The style sheet of rules. -/
def styleSheet (faces : List FontFace) : String := "\n".intercalate (faces.map FontFace.rule)

/-- An element whose attributes with empty values are left out. -/
def element (tag : String) (attributes : List (String × String)) (content : List Node) : Node :=
  .element tag (attributes.filter fun a => a.2 ≠ "") content

/-- The content of an element that holds a text. -/
def textContent (s : String) : List Node := if s = "" then [] else [.text s]

/-- The element of a rectangle. -/
def rectElement (r : Rect) : Except Fault Node := do
  return element "rect"
    [("fill", r.fill), ("height", ← writeInteger r.height), ("stroke", r.stroke),
     ("stroke-width", ← writeInteger r.strokeWidth), ("width", ← writeInteger r.width),
     ("x", ← writeInteger r.x), ("y", ← writeInteger r.y)] []

/-- The element of a line. -/
def lineElement (l : Line) : Except Fault Node := do
  return element "line"
    [("stroke", l.stroke), ("stroke-width", ← writeInteger l.strokeWidth),
     ("x1", ← writeInteger l.x1), ("x2", ← writeInteger l.x2), ("y1", ← writeInteger l.y1),
     ("y2", ← writeInteger l.y2)] []

/-- The element of a text. -/
def textElement (t : TextLine) : Except Fault Node := do
  return element "text"
    [("fill", t.color), ("font-family", t.family), ("font-size", ← writeInteger t.size),
     ("font-weight", t.weight), ("text-anchor", t.anchor.getD ""), ("x", ← writeInteger t.x),
     ("y", ← writeInteger t.y)] (textContent t.text)

/-- The element of a primitive. -/
def primitiveElement : Primitive → Except Fault Node
  | .rect r => rectElement r
  | .line l => lineElement l
  | .text t => textElement t

/-- The ground that all else is painted on. -/
def ground : Node :=
  element "rect" [("fill", "white"), ("height", "100%"), ("width", "100%"), ("x", "0"), ("y", "0")]
    []

/-- The definitions of a document, with its style sheet. -/
def definitions (sheet : String) : Node :=
  element "defs" []
    [element "style" [("type", "text/css")] (if sheet = "" then [] else [.cdata sheet])]

/-- The root of a document of a size with elements in it. -/
def root (width height sheet : String) (elements : List Node) : Node :=
  element "svg"
    [("baseProfile", "full"), ("height", height), ("version", "1.1"),
     ("viewBox", "0 0 " ++ width ++ " " ++ height), ("width", width),
     ("xmlns", "http://www.w3.org/2000/svg"), ("xmlns:ev", "http://www.w3.org/2001/xml-events"),
     ("xmlns:xlink", "http://www.w3.org/1999/xlink")]
    (definitions sheet :: ground :: elements)

/-- The tree of a canvas. -/
def tree (files : Files.Tree) (c : Canvas) : Except Fault Node := do
  let width ← writeInteger c.width
  let height ← writeInteger c.height
  let sheet := styleSheet (← fontFaces files c)
  return root width height sheet (← c.primitives.mapM primitiveElement)

/-- The text of a tree with the line before it. -/
def write (n : Node) : String := declaration ++ String.ofList n.write

/-- The document of a canvas. -/
def render (files : Files.Tree) (c : Canvas) : Except Fault String := do
  return write (← tree files c)

/-- The report on a document that was written. -/
def renderEntry (c : Canvas) : Journal.Entry :=
  ⟨.debug, .canvas, "Serialised SVG " ++ integerText c.width ++ "x" ++ integerText c.height
    ++ " with " ++ toString c.primitives.length ++ " elements, " ++ toString c.fonts.length
    ++ " embedded fonts"⟩

end LabelPress.Svg
