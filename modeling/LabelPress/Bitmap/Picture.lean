import LabelPress.Bitmap.Grid

/-!
# Pictures

A picture file holds its pixels in one of several encodings. In each of them a pixel is a colour
with an opacity, and laid over white it is a colour alone. Some encodings hold colours only, of
which one may be the key: its pixels are transparent, and all others cover.
-/

namespace LabelPress

namespace Bitmap

/-- A colour. -/
structure Rgb where
  red : UInt8
  green : UInt8
  blue : UInt8
deriving DecidableEq, Repr

/-- The colour of equal channels. -/
def Rgb.grey (level : UInt8) : Rgb := ⟨level, level, level⟩

/-- A colour with an opacity. -/
structure Layer where
  color : Rgb
  opacity : UInt8
deriving DecidableEq, Repr

/-- The layer of a colour by its value in an encoding: the key is transparent, all else covers. -/
def Layer.keyed {α : Type} [DecidableEq α] (key : Option α) (value : α) (color : Rgb) : Layer :=
  ⟨color, if key = some value then 0 else 255⟩

/-- The opacities of a palette's colours: all cover, or one of them is transparent, or each of the
first has one of its own. -/
inductive Opacities
  | covering
  | transparentAt (index : Nat)
  | levels (levels : List UInt8)
deriving DecidableEq, Repr

/-- The opacity of a palette's colour. -/
def Opacities.at (o : Opacities) (index : Nat) : UInt8 :=
  match o with
  | covering => 255
  | transparentAt i => if index = i then 0 else 255
  | levels ls => ls.getD index 255

/-- The colours that indices stand for, with their opacities. -/
structure Palette where
  colors : List Rgb
  opacities : Opacities
deriving DecidableEq, Repr

/-- The colour that an index stands for; beyond the colours it is black. -/
def Palette.color (p : Palette) (index : Nat) : Rgb := p.colors.getD index (.grey 0)

/-- What an index stands for. -/
def Palette.layer (p : Palette) (index : Nat) : Layer := ⟨p.color index, p.opacities.at index⟩

/-- A picture in one of the encodings. -/
inductive Picture
  | rgb (g : Grid Rgb) (key : Option Rgb)
  | rgba (g : Grid Layer)
  | grey (g : Grid UInt8) (key : Option UInt8)
  | greyAlpha (g : Grid (UInt8 × UInt8))
  | bilevel (g : Grid Bool) (key : Option Bool)
  | indexed (palette : Palette) (g : Grid UInt8)

/-- The colours and opacities of a picture. -/
def Picture.layers : Picture → Grid Layer
  | rgb g key => g.map fun color => .keyed key color color
  | rgba g => g
  | grey g key => g.map fun level => .keyed key level (.grey level)
  | greyAlpha g => g.map fun p => ⟨.grey p.1, p.2⟩
  | bilevel g key => g.map fun white => .keyed key white (.grey (if white then 255 else 0))
  | indexed palette g => g.map fun index => palette.layer index.toNat

/-- Whether the encoding of a picture holds opacities beside the colours. A key is none. -/
def Picture.hasOpacities : Picture → Bool
  | rgba _ | greyAlpha _ => true
  | indexed palette _ => palette.opacities ≠ .covering
  | rgb .. | grey .. | bilevel .. => false

/-- A channel of an opacity laid over white: the mean, weighted by the opacity, rounded to the
nearest level. -/
def overWhite (channel opacity : UInt8) : UInt8 :=
  let t := channel.toNat * opacity.toNat + 255 * (255 - opacity.toNat) + 128
  .ofNat ((t + t / 256) / 256)

/-- The colour of a layer laid over white. -/
def Layer.flatten (l : Layer) : Rgb :=
  ⟨overWhite l.color.red l.opacity, overWhite l.color.green l.opacity,
    overWhite l.color.blue l.opacity⟩

end Bitmap

/-- A picture of colours alone. -/
abbrev Bitmap := Bitmap.Grid Bitmap.Rgb

namespace Bitmap

/-- The colours of a picture without their opacities. -/
def Picture.colors (p : Picture) : Bitmap := p.layers.map Layer.color

/-- The picture laid over white, if its encoding holds opacities, and else its colours as they are.
Those of the key stay, too. -/
def Picture.flatten (p : Picture) : Bitmap :=
  if p.hasOpacities then p.layers.map Layer.flatten else p.colors

theorem overWhite_covering (channel : UInt8) : overWhite channel 255 = channel := by
  have h : channel.toNat < 256 := channel.toNat_lt
  have e : (channel.toNat * 255 + 128 + (channel.toNat * 255 + 128) / 256) / 256
      = channel.toNat := by omega
  simp [overWhite, e]

theorem overWhite_transparent (channel : UInt8) : overWhite channel 0 = 255 := by
  simp [overWhite]

end Bitmap

end LabelPress
