import LabelPress.Bitmap.Picture

/-!
# Indexed pictures in files

A file holds the indices of a picture in as few bits as its number of colours allows, and no more
opacities than it has colours. What does not fit is lost.
-/

namespace LabelPress.Bitmap

/-- The bits that an index takes among so many colours. -/
def indexBits (colors : Nat) : Nat :=
  if colors ≤ 2 then 1 else if colors ≤ 4 then 2 else if colors ≤ 16 then 4 else 8

/-- What is left of an index: a single bit says whether it is zero, and more hold its lowest. -/
def packedIndex (colors : Nat) (index : UInt8) : UInt8 :=
  if indexBits colors = 1 then (if index = 0 then 0 else 1)
  else .ofNat (index.toNat % Nat.pow 2 (indexBits colors))

/-- What is left of the opacities of so many colours. -/
def Opacities.packed (colors : Nat) : Opacities → Opacities
  | covering => covering
  | transparentAt index => if index < colors then transparentAt index else covering
  | levels ls => levels (ls.take colors)

/-- What is left of a palette. -/
def Palette.packed (p : Palette) : Palette :=
  { p with opacities := p.opacities.packed p.colors.length }

/-- What is left of a picture. -/
def Picture.packed : Picture → Picture
  | indexed palette g => indexed palette.packed (g.map (packedIndex palette.colors.length))
  | p => p

end LabelPress.Bitmap
