import LabelPress.Bitmap.Picture
import Mathlib.Algebra.Order.Field.Rat
import Mathlib.Data.List.Forall2
import Mathlib.Tactic.Linarith
import Mathlib.Tactic.Ring

/-!
# Pictures laid over white

Each channel of a pixel over white becomes the level nearest to the mean of itself and white,
weighted by the opacity. An encoding without opacities takes a shorter way, on which all colours
stay, and comes to the same exactly if the key makes none but white pixels transparent.
-/

namespace LabelPress.Bitmap

/-- A channel of an opacity seen over white, before it is rounded to a level. -/
def seenOverWhite (channel opacity : UInt8) : ℚ :=
  opacity.toNat / 255 * channel.toNat + (1 - opacity.toNat / 255) * 255

/-- A colour that a layer shows over white. -/
structure Layer.ShowsAs (l : Layer) (c : Rgb) : Prop where
  red : |(c.red.toNat : ℚ) - seenOverWhite l.color.red l.opacity| ≤ 1 / 2
  green : |(c.green.toNat : ℚ) - seenOverWhite l.color.green l.opacity| ≤ 1 / 2
  blue : |(c.blue.toNat : ℚ) - seenOverWhite l.color.blue l.opacity| ≤ 1 / 2
  covering : l.opacity = 255 → c = l.color
  transparent : l.opacity = 0 → c = .grey 255

/-! ## One pixel -/

/-- The sum that a channel of an opacity and white come to, before it is divided by 255. -/
def weightedSum (channel opacity : UInt8) : Nat :=
  channel.toNat * opacity.toNat + 255 * (255 - opacity.toNat)

theorem weightedSum_le (channel opacity : UInt8) : weightedSum channel opacity ≤ 255 * 255 := by
  have hchannel : channel.toNat ≤ 255 := Nat.le_of_lt_succ channel.toNat_lt
  have hopacity : opacity.toNat ≤ 255 := Nat.le_of_lt_succ opacity.toNat_lt
  have hproduct := Nat.mul_le_mul_right opacity.toNat hchannel
  rw [weightedSum]
  omega

theorem seenOverWhite_eq (channel opacity : UInt8) :
    seenOverWhite channel opacity = weightedSum channel opacity / 255 := by
  have hopacity : opacity.toNat ≤ 255 := Nat.le_of_lt_succ opacity.toNat_lt
  rw [seenOverWhite, weightedSum]
  push_cast [Nat.cast_sub hopacity]
  ring

/-- What it is to be nearest, without a denominator. -/
theorem near_iff {level channel opacity : UInt8} :
    |(level.toNat : ℚ) - seenOverWhite channel opacity| ≤ 1 / 2 ↔
      2 * weightedSum channel opacity ≤ 2 * 255 * level.toNat + 255 ∧
        2 * 255 * level.toNat ≤ 2 * weightedSum channel opacity + 255 := by
  rw [seenOverWhite_eq, abs_le, ← @Nat.cast_le ℚ, ← @Nat.cast_le ℚ]
  push_cast
  constructor <;> rintro ⟨hbelow, habove⟩ <;> constructor <;> linarith

/-- Two divisions by 256 make the division by 255 that is off by no more than a half. There is no
tie, since 255 is odd. -/
theorem near_iff_eq_overWhite {level channel opacity : UInt8} :
    |(level.toNat : ℚ) - seenOverWhite channel opacity| ≤ 1 / 2 ↔
      level = overWhite channel opacity := by
  have hsum := weightedSum_le channel opacity
  have hlevel : (weightedSum channel opacity + 128 + (weightedSum channel opacity + 128) / 256) /
      256 < 256 := by omega
  have hvalue : (overWhite channel opacity).toNat =
      (weightedSum channel opacity + 128 + (weightedSum channel opacity + 128) / 256) / 256 :=
    UInt8.toNat_ofNat_of_lt hlevel
  rw [near_iff, ← UInt8.toNat_inj, hvalue]
  omega

theorem overWhite_near (channel opacity : UInt8) :
    |((overWhite channel opacity).toNat : ℚ) - seenOverWhite channel opacity| ≤ 1 / 2 :=
  near_iff_eq_overWhite.mpr rfl

theorem Layer.showsAs_flatten (l : Layer) : l.ShowsAs l.flatten where
  red := overWhite_near ..
  green := overWhite_near ..
  blue := overWhite_near ..
  covering h := by simp [Layer.flatten, h, overWhite_covering]
  transparent h := by simp [Layer.flatten, h, overWhite_transparent, Rgb.grey]

/-- A layer shows one colour only. -/
theorem Layer.showsAs_iff {l : Layer} {c : Rgb} : l.ShowsAs c ↔ c = l.flatten := by
  constructor
  · intro h
    rw [flatten, ← near_iff_eq_overWhite.mp h.red, ← near_iff_eq_overWhite.mp h.green,
      ← near_iff_eq_overWhite.mp h.blue]
  · rintro rfl
    exact l.showsAs_flatten

/-- A layer is transparent or covers. -/
def Layer.AllOrNothing (l : Layer) : Prop := l.opacity = 0 ∨ l.opacity = 255

/-- The layer of an encoding with a key is transparent or covers. -/
theorem Layer.allOrNothing_keyed {α : Type} [DecidableEq α] (key : Option α) (value : α)
    (color : Rgb) : (keyed key value color).AllOrNothing := by
  rw [AllOrNothing, keyed]
  split
  · exact Or.inl rfl
  · exact Or.inr rfl

/-- A layer that is transparent or covers shows its own colour, unless it is transparent and not
white. -/
theorem Layer.AllOrNothing.showsAs_color_iff {l : Layer} (h : l.AllOrNothing) :
    l.ShowsAs l.color ↔ (l.opacity = 0 → l.color = .grey 255) := by
  rcases h with hclear | hcovers
  · rw [showsAs_iff, flatten, hclear]
    simp [overWhite_transparent, Rgb.grey]
  · rw [showsAs_iff, flatten, hcovers]
    simp [overWhite_covering]

/-! ## All pixels of a picture -/

/-- What holds of all values of a function holds of the cells of a map. -/
theorem Grid.forall_mem_map {α β : Type} {f : α → β} {P : β → Prop} (h : ∀ a, P (f a))
    (g : Grid α) : ∀ b ∈ (g.map f).cells.toList, P b := by
  intro b hb
  rw [cells_map, Array.toList_map] at hb
  obtain ⟨a, -, rfl⟩ := List.mem_map.mp hb
  exact h a

/-- Where an encoding holds no opacities, a pixel is transparent or covers. -/
theorem Picture.allOrNothing_of_layers {p : Picture} (h : p.hasOpacities = false) :
    ∀ l ∈ p.layers.cells.toList, l.AllOrNothing := by
  cases p with
  | rgb g key => exact Grid.forall_mem_map (fun color => Layer.allOrNothing_keyed key color _) g
  | grey g key => exact Grid.forall_mem_map (fun level => Layer.allOrNothing_keyed key level _) g
  | bilevel g key =>
      exact Grid.forall_mem_map (fun white => Layer.allOrNothing_keyed key white _) g
  | rgba g | greyAlpha g => cases h
  | indexed palette g =>
      have hall : palette.opacities = .covering := by simpa [hasOpacities] using h
      have hlayer (index : UInt8) : (palette.layer index.toNat).AllOrNothing := by
        rw [Palette.layer, hall]
        exact Or.inr rfl
      exact Grid.forall_mem_map hlayer g

/-- The key makes a pixel transparent whose colour is not white, though the encoding holds no
opacities. -/
def Picture.KeyHidesColor (p : Picture) : Prop :=
  p.hasOpacities = false ∧ ∃ l ∈ p.layers.cells.toList, l.opacity = 0 ∧ l.color ≠ .grey 255

@[simp] theorem Picture.extent_flatten (p : Picture) : p.flatten.extent = p.layers.extent := by
  rw [flatten, colors]
  split <;> rfl

/-- Every pixel of a picture laid over white is what its layer shows there, exactly if the key hides
no colour. -/
theorem Picture.forall₂_showsAs_flatten_iff (p : Picture) :
    List.Forall₂ Layer.ShowsAs p.layers.cells.toList p.flatten.cells.toList ↔
      ¬ p.KeyHidesColor := by
  rw [flatten]
  split
  · next h =>
      rw [Grid.cells_map, Array.toList_map, List.forall₂_map_right_iff, List.forall₂_same]
      refine iff_of_true (fun l _ => l.showsAs_flatten) ?_
      rintro ⟨hnone, -⟩
      rw [h] at hnone
      cases hnone
  · next h =>
      have hnone : p.hasOpacities = false := Bool.eq_false_of_not_eq_true h
      rw [colors, Grid.cells_map, Array.toList_map, List.forall₂_map_right_iff, List.forall₂_same]
      have hshows : (∀ l ∈ p.layers.cells.toList, l.ShowsAs l.color) ↔
          ∀ l ∈ p.layers.cells.toList, l.opacity = 0 → l.color = .grey 255 :=
        forall₂_congr fun l hl => (allOrNothing_of_layers hnone l hl).showsAs_color_iff
      rw [hshows, KeyHidesColor]
      simp [hnone]

/-- A picture without opacities keeps all its colours. -/
theorem Picture.flatten_of_not_hasOpacities {p : Picture} (h : p.hasOpacities = false) :
    p.flatten = p.colors := by
  rw [flatten, h]
  rfl

end LabelPress.Bitmap
