/-!
# Grids

A grid holds one cell for each place of a rectangle, row by row. It has at least one row and one
column.
-/

namespace LabelPress.Bitmap

/-- A number of columns and a number of rows, neither of them zero. -/
@[ext]
structure Extent where
  width : Nat
  height : Nat
  width_pos : 0 < width
  height_pos : 0 < height
deriving DecidableEq, Repr

namespace Extent

/-- The extent of a width and a height, if both are positive. -/
def ofInts? (width height : Int) : Option Extent :=
  if h : 0 < width.toNat ∧ 0 < height.toNat then some ⟨_, _, h.1, h.2⟩ else none

/-- A width and a height are those of their extent. -/
theorem sides_of_ofInts? {width height : Int} {e : Extent} (h : ofInts? width height = some e) :
    (e.width : Int) = width ∧ (e.height : Int) = height := by
  unfold ofInts? at h
  split at h
  · obtain rfl := Option.some.inj h
    dsimp only
    omega
  · cases h

/-- The number of places. -/
def area (e : Extent) : Nat := e.width * e.height

end Extent

/-- Cells row by row. -/
structure Grid (α : Type) where
  extent : Extent
  cells : Array α
  size_cells : cells.size = extent.area

namespace Grid

variable {α β : Type}

/-- The grid with one cell everywhere. -/
def replicate (extent : Extent) (a : α) : Grid α :=
  ⟨extent, .replicate extent.area a, Array.size_replicate⟩

/-- The grid whose cells are given by their places. -/
def ofFn (extent : Extent) (f : Fin extent.area → α) : Grid α :=
  ⟨extent, Array.ofFn f, Array.size_ofFn⟩

/-- The grid with every cell replaced by a function of it. -/
def map (f : α → β) (g : Grid α) : Grid β :=
  ⟨g.extent, g.cells.map f, by simp [g.size_cells]⟩

@[simp] theorem cells_map (f : α → β) (g : Grid α) : (g.map f).cells = g.cells.map f := rfl

end Grid

end LabelPress.Bitmap
