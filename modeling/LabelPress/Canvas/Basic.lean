import LabelPress.Canvas.Primitive
import LabelPress.Font.Selection

/-!
# Canvases

A canvas collects primitives in the order of painting, and the fonts that its texts embed. A family
is embedded once, with the bytes that its file had then.
-/

namespace LabelPress

open LabelPress.Files

/-- A font that a document embeds. -/
structure EmbeddedFont where
  path : String
  bytes : List UInt8
deriving DecidableEq, Repr

/-- The name of an embedded font's family. -/
def EmbeddedFont.family (f : EmbeddedFont) : String := Font.family (some f.path)

/-- The primitives and fonts of a document of a size, and the folder of its standing fonts. -/
structure Canvas where
  width : Int
  height : Int
  fontsDir : Path
  primitives : List Primitive := []
  fonts : List EmbeddedFont := []
deriving Repr

namespace Canvas

/-- The canvas with primitives painted over it. -/
def paint (c : Canvas) (ps : List Primitive) : Canvas :=
  { c with primitives := c.primitives ++ ps }

/-- Whether a family is embedded. -/
def embeds (c : Canvas) (family : String) : Bool := c.fonts.any fun f => f.family = family

/-- Whether the canvas takes in the font of a path: the path leads to a file and its family is not
embedded yet. -/
def takesIn (c : Canvas) (files : Tree) (path : String) : Except Fault Bool :=
  if path = "" || c.embeds (Font.family (some path)) then .ok false
  else files.probeFile (Path.ofText path).text

/-- The canvas with the font of a path embedded, if it takes it in. -/
def embed (c : Canvas) (files : Tree) : (path : Option String) → Except Fault Canvas
  | none => .ok c
  | some path => do
    if ← c.takesIn files path then
      return { c with fonts := c.fonts ++ [⟨path, ← files.read path⟩] }
    else return c

/-- The report on embedding the font of a path. -/
def embedJournal (c : Canvas) (files : Tree) : (path : Option String) → List Journal.Entry
  | none => []
  | some path =>
    match c.takesIn files path, files.read path with
    | .ok true, .ok _ =>
      [⟨.debug, .canvas, "Registered font " ++ Font.family (some path) ++ " -> " ++ path⟩]
    | _, _ => []

@[simp] theorem primitives_paint (c : Canvas) (ps : List Primitive) :
    (c.paint ps).primitives = c.primitives ++ ps := rfl

@[simp] theorem fonts_paint (c : Canvas) (ps : List Primitive) : (c.paint ps).fonts = c.fonts := rfl

/-- Embedding a font leaves the canvas as it is or adds one to its fonts. -/
theorem embed_cases {c d : Canvas} {files : Tree} {path : Option String}
    (h : c.embed files path = .ok d) :
    d = c ∨ ∃ font, d = { c with fonts := c.fonts ++ [font] } := by
  unfold embed at h
  split at h
  · exact Or.inl (Except.ok.inj h).symm
  · simp only [bind, Except.bind, pure, Except.pure] at h
    split at h
    · cases h
    · split at h
      · split at h
        · cases h
        · exact Or.inr ⟨_, (Except.ok.inj h).symm⟩
      · exact Or.inl (Except.ok.inj h).symm

theorem primitives_embed {c d : Canvas} {files : Tree} {path : Option String}
    (h : c.embed files path = .ok d) : d.primitives = c.primitives := by
  obtain rfl | ⟨font, rfl⟩ := embed_cases h <;> rfl

end Canvas

end LabelPress
