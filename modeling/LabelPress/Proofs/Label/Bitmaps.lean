import LabelPress.Label.Export
import LabelPress.Proofs.Bitmap.Flattening
import LabelPress.Proofs.Label.Completion
import LabelPress.Proofs.Label.LineBreaks
import LabelPress.Proofs.Painting.Performed
import LabelPress.Proofs.Svg.Document

/-!
# Bitmaps and documents of one size

A label's document carries the size of the label in its root, the rasterizer is asked once and for
that size, and the bitmap has it whatever the size of the picture that comes back. A picture of that
size is laid over white, except that a key that makes pixels transparent has no effect.
-/

namespace LabelPress

open LabelPress.Bitmap LabelPress.Number

namespace Label

variable {δ : Type} {site : Font.Site} {source : LabelSource} {imaging : Imaging δ}
variable {r : Rasterizer δ} {e : Extent} {document : String}

/-! ## The document -/

/-- The canvas of a label has the size of the label. -/
theorem size_build {d : Canvas} (h : (build site source).result = .ok d) :
    source.size = .ok d.size := by
  obtain ⟨cs, fontPath, c, -, hsize, -, -, rfl⟩ := exists_paint_of_build h
  rw [hsize, paint, Canvas.size_performAll]

/-- The root of a label's document carries the size of the label. -/
theorem exists_root_of_convert (hsize : source.size = .ok (e.width, e.height))
    (h : (convert site source).result = .ok document) :
    ∃ root : Svg.Node, document = Svg.write root ∧
      root.attribute? "width" = some (integerText e.width) ∧
      root.attribute? "height" = some (integerText e.height) ∧
      root.attribute? "viewBox" =
        some ("0 0 " ++ integerText e.width ++ " " ++ integerText e.height) := by
  obtain ⟨c, hc, hrender⟩ := exists_build_of_convert h
  obtain ⟨hwidth, hheight⟩ := Prod.mk.inj (Except.ok.inj (hsize.symm.trans (size_build hc)))
  obtain ⟨faces, -, rfl⟩ := Svg.render_eq_ok hrender
  rw [← hwidth, ← hheight]
  exact ⟨_, rfl, Svg.attribute?_root (integerText_ne_empty _) (integerText_ne_empty _) ..⟩

/-! ## The bitmap -/

/-- A library brings a bitmap to a width and a height or to none. -/
def Imaging.ResizesAsAsked (imaging : Imaging δ) : Prop :=
  ∀ b width height d, imaging.resize b width height = .ok d →
    (d.extent.width : Int) = width ∧ (d.extent.height : Int) = height

/-- A library brings every bitmap to an extent. -/
def Imaging.ResizesTo (imaging : Imaging δ) (e : Extent) : Prop :=
  ∀ b, ∃ d, imaging.resize b e.width e.height = .ok d

theorem fit_of_extent {b : Bitmap} (h : b.extent = e) :
    (fit imaging b e.width e.height).result = .ok b := by
  simp [fit, h, Reported.of]

theorem fit_of_ne {b : Bitmap} (h : b.extent ≠ e) :
    (fit imaging b e.width e.height).result = imaging.resize b e.width e.height := by
  have hsize : ¬ ((b.extent.width : Int) = e.width ∧ (b.extent.height : Int) = e.height) := by
    rintro ⟨hwidth, hheight⟩
    exact h (Extent.ext (Int.ofNat.inj hwidth) (Int.ofNat.inj hheight))
  rw [fit, if_neg hsize]

/-- A bitmap that is brought to a width and a height has them. -/
theorem sides_of_fit (himaging : imaging.ResizesAsAsked) {b d : Bitmap} {width height : Int}
    (h : (fit imaging b width height).result = .ok d) :
    (d.extent.width : Int) = width ∧ (d.extent.height : Int) = height := by
  rw [fit] at h
  split at h
  · next hsame =>
      rw [← Except.ok.inj h]
      exact hsame
  · exact himaging b width height d h

theorem extent_of_fit (himaging : imaging.ResizesAsAsked) {b d : Bitmap}
    (h : (fit imaging b e.width e.height).result = .ok d) : d.extent = e := by
  obtain ⟨hwidth, hheight⟩ := sides_of_fit himaging h
  exact Extent.ext (Int.ofNat.inj hwidth) (Int.ofNat.inj hheight)

theorem exists_fit_of_resizesTo (himaging : imaging.ResizesTo e) (b : Bitmap) :
    ∃ d, (fit imaging b e.width e.height).result = .ok d := by
  by_cases hsame : b.extent = e
  · exact ⟨b, fit_of_extent hsame⟩
  · rw [fit_of_ne hsame]
    exact himaging b

/-- What a picture comes to that is wanted at an extent. If it has that extent, it comes to what its
layers show over white, exactly if its key hides no colour; without opacities it comes to its
colours as they are. Else it comes to a bitmap of that extent, if the library has one. -/
structure ComesTo (imaging : Imaging δ) (p : Picture) (e : Extent) (result : Except Fault Bitmap) :
    Prop where
  extent : ∀ b, result = .ok b → b.extent = e
  unchanged : p.layers.extent = e → ∃ b, result = .ok b ∧
    (List.Forall₂ Layer.ShowsAs p.layers.cells.toList b.cells.toList ↔ ¬ p.KeyHidesColor) ∧
    (p.hasOpacities = false → b = p.colors)
  resized : imaging.ResizesTo e → ∃ b, result = .ok b

theorem comesTo_fit (himaging : imaging.ResizesAsAsked) (p : Picture) (e : Extent) :
    ComesTo imaging p e (fit imaging p.flatten e.width e.height).result where
  extent _ := extent_of_fit himaging
  unchanged h := ⟨p.flatten, fit_of_extent (p.extent_flatten.trans h),
    p.forall₂_showsAs_flatten_iff, Picture.flatten_of_not_hasOpacities⟩
  resized h := exists_fit_of_resizesTo h p.flatten

/-- A label whose document is written comes to what its rasterizer makes of it. -/
theorem toBitmap_eq (imaging : Imaging δ) (r : Rasterizer δ)
    (hsize : source.size = .ok (e.width, e.height))
    (h : (convert site source).result = .ok document) :
    (toBitmap site imaging r source).deeds =
        (rasterize imaging r ⟨document, e.width, e.height⟩).deeds ∧
      (toBitmap site imaging r source).result =
        (rasterize imaging r ⟨document, e.width, e.height⟩).result := by
  have hconverted : (Work.ofReported (convert site source)).result = .ok document := h
  have hsized : (Work.of source.size).result = .ok ((e.width : Int), (e.height : Int)) := hsize
  constructor
  · rw [toBitmap, Work.deeds_andThen hconverted, Work.deeds_andThen hsized]
    rfl
  · rw [toBitmap, Work.result_andThen, hconverted]
    change ((Work.of source.size).andThen _).result = _
    rw [Work.result_andThen, hsized]
    rfl

/-- Nothing but the rasterizer acts outside the program. -/
theorem deeds_rasterize (imaging : Imaging δ) (r : Rasterizer δ) (q : Rasterizer.Request) :
    (rasterize imaging r q).deeds = (r.rasterize q).deeds := by
  apply Work.deeds_andThen_of_idle
  intro data
  rw [Work.deeds_andThen_of_idle fun _ => rfl]
  rfl

theorem result_rasterize_of_read {q : Rasterizer.Request} {data : δ}
    (hdata : (r.rasterize q).result = .ok data) :
    (rasterize imaging r q).result =
      (pictureOf imaging data).bind fun p =>
        (fit imaging p.flatten q.width q.height).result := by
  rw [rasterize, Work.result_andThen, hdata]
  exact Work.result_andThen ..

/-- Document and bitmap of a label agree in size. The rasterizer is asked once, for the document and
for the size that stands in its root. Whatever picture comes back, the bitmap has that size; a
picture that has it already is laid over white pixel by pixel, exactly if its key hides no colour;
and data that are no picture are a failure of the rasterizer. -/
theorem toBitmap_of_convert {imaging : Imaging δ} (himaging : imaging.ResizesAsAsked)
    (r : Rasterizer δ) (hsize : source.size = .ok (e.width, e.height))
    (h : (convert site source).result = .ok document) :
    (∃ root : Svg.Node, document = Svg.write root ∧
      root.attribute? "width" = some (integerText e.width) ∧
      root.attribute? "height" = some (integerText e.height) ∧
      root.attribute? "viewBox" =
        some ("0 0 " ++ integerText e.width ++ " " ++ integerText e.height)) ∧
    (toBitmap site imaging r source).deeds =
      (r.rasterize ⟨document, e.width, e.height⟩).deeds ∧
    ∀ data, (r.rasterize ⟨document, e.width, e.height⟩).result = .ok data →
      (∀ p, imaging.read data = .ok p →
        ComesTo imaging p e (toBitmap site imaging r source).result) ∧
      (imaging.read data = .error .unknown →
        (toBitmap site imaging r source).result = .error unreadable) := by
  obtain ⟨hdeeds, hresult⟩ := toBitmap_eq imaging r hsize h
  refine ⟨exists_root_of_convert hsize h, by rw [hdeeds, deeds_rasterize], fun data hdata => ?_⟩
  rw [hresult, result_rasterize_of_read hdata, pictureOf]
  constructor
  · intro p hread
    rw [hread]
    exact comesTo_fit himaging p e
  · intro hread
    rw [hread]
    rfl

/-! ## A label with a box -/

/-- A label of ten pixels by ten with a black box in its corner. -/
def boxLabel : LabelSource := { LabelSource.small with markup := "^FO1,1^GB4,4,4^FS" }

/-- The extent of the label. -/
def boxExtent : Extent := ⟨10, 10, by decide, by decide⟩

theorem size_boxLabel : boxLabel.size = .ok ((boxExtent.width : Int), (boxExtent.height : Int)) :=
  rfl

theorem exists_convert_boxLabel : ∃ document, (convert .small boxLabel).result = .ok document := by
  have hconverts : (convert .small boxLabel).result.isOk = true := by decide +kernel
  cases hdocument : (convert .small boxLabel).result with
  | ok document => exact ⟨document, rfl⟩
  | error fault =>
      rw [hdocument] at hconverts
      cases hconverts

/-- The bitmap of one colour that a bitmap of one colour is brought to. -/
def resizeUniform (b : Bitmap) (width height : Int) : Except Fault Bitmap :=
  match Extent.ofInts? width height with
  | some e => .ok (.replicate e (b.cells.getD 0 (.grey 255)))
  | none => .error .noExtent

theorem sides_of_resizeUniform {b d : Bitmap} {width height : Int}
    (h : resizeUniform b width height = .ok d) :
    (d.extent.width : Int) = width ∧ (d.extent.height : Int) = height := by
  unfold resizeUniform at h
  split at h
  · next e hextent =>
      obtain rfl := Except.ok.inj h
      exact Extent.sides_of_ofInts? hextent
  · cases h

/-- A library for pictures as they are, of which those of one colour can be resized. -/
def pictureImaging : Imaging Picture where
  read := .ok
  resize := resizeUniform
  encode _ _ := .ok []

/-- A rasterizer that gives a picture whatever the document is. -/
def drawing (p : Picture) : Rasterizer Picture := .answering "fake" true fun _ => .ok p

/-- A picture of the label's extent that is clear in front, then half seen, and covers at last. -/
def glassPicture : Picture :=
  .rgba (.ofFn boxExtent fun place =>
    ⟨⟨200, 0, 50⟩, if place.val < 10 then 0 else if place.val < 90 then 128 else 255⟩)

/-- A picture of two pixels of one colour, of which half is seen. -/
def smallPicture : Picture := .rgba (.replicate ⟨2, 1, by decide, by decide⟩ ⟨⟨200, 0, 50⟩, 128⟩)

theorem toBitmap_of_convert_glassPicture :
    pictureImaging.ResizesAsAsked ∧ boxLabel.size = .ok (boxExtent.width, boxExtent.height) ∧
    ∃ document, (convert .small boxLabel).result = .ok document ∧
      (toBitmap .small pictureImaging (drawing glassPicture) boxLabel).deeds =
        [.asked "fake" ⟨document, 10, 10⟩] ∧
      (∃ b, (toBitmap .small pictureImaging (drawing glassPicture) boxLabel).result = .ok b ∧
        List.Forall₂ Layer.ShowsAs glassPicture.layers.cells.toList b.cells.toList) ∧
      ∃ b, (toBitmap .small pictureImaging (drawing smallPicture) boxLabel).result = .ok b ∧
        b.extent = boxExtent := by
  have himaging : pictureImaging.ResizesAsAsked := fun _ _ _ _ => sides_of_resizeUniform
  obtain ⟨document, hdocument⟩ := exists_convert_boxLabel
  obtain ⟨-, hdeeds, hglass⟩ :=
    toBitmap_of_convert himaging (drawing glassPicture) size_boxLabel hdocument
  obtain ⟨-, -, hsmall⟩ :=
    toBitmap_of_convert himaging (drawing smallPicture) size_boxLabel hdocument
  obtain ⟨b, hb, hshows, -⟩ := ((hglass glassPicture rfl).1 _ rfl).unchanged rfl
  have hresizes : pictureImaging.ResizesTo boxExtent := fun _ => ⟨_, rfl⟩
  obtain ⟨d, hd⟩ := ((hsmall smallPicture rfl).1 _ rfl).resized hresizes
  refine ⟨himaging, size_boxLabel, document, hdocument, hdeeds, ⟨b, hb, hshows.mpr ?_⟩, d, hd,
    ((hsmall smallPicture rfl).1 _ rfl).extent d hd⟩
  rintro ⟨hnone, -⟩
  cases hnone

/-- A black picture whose key is black. -/
def hiddenPicture : Picture := .grey (.replicate boxExtent 0) (some 0)

/-- A picture of which nothing is seen over white comes to a black bitmap, since a key hides it. -/
theorem not_showsAs_hiddenPicture :
    hiddenPicture.layers.extent = boxExtent ∧
      (∀ l ∈ hiddenPicture.layers.cells.toList, l.ShowsAs (.grey 255)) ∧
      ∃ b, (toBitmap .small pictureImaging (drawing hiddenPicture) boxLabel).result = .ok b ∧
        (∀ c ∈ b.cells.toList, c = .grey 0) ∧
        ¬ List.Forall₂ Layer.ShowsAs hiddenPicture.layers.cells.toList b.cells.toList := by
  obtain ⟨document, hdocument⟩ := exists_convert_boxLabel
  have hdrawn : ((drawing hiddenPicture).rasterize
      ⟨document, boxExtent.width, boxExtent.height⟩).result = .ok hiddenPicture := rfl
  have hresult : (toBitmap .small pictureImaging (drawing hiddenPicture) boxLabel).result =
      .ok hiddenPicture.flatten := by
    rw [(toBitmap_eq pictureImaging (drawing hiddenPicture) size_boxLabel hdocument).2,
      result_rasterize_of_read hdrawn]
    exact fit_of_extent rfl
  have hhides : hiddenPicture.KeyHidesColor := by
    refine ⟨rfl, ⟨.grey 0, 0⟩, ?_, rfl, by decide⟩
    decide +kernel
  refine ⟨rfl, ?_, hiddenPicture.flatten, hresult, by decide +kernel, ?_⟩
  · simp only [Layer.showsAs_iff]
    decide +kernel
  · exact fun hshows => hiddenPicture.forall₂_showsAs_flatten_iff.mp hshows hhides

end Label

end LabelPress
