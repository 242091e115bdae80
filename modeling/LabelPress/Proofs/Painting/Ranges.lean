import LabelPress.Proofs.Files.NormalForm
import LabelPress.Proofs.Number.FloatRange
import LabelPress.Proofs.Painting.Performed

/-!
# What can be painted

Texts and symbols are scaled in floating-point numbers, so their sizes must have such numbers, and
the ground under a reversed text must not become infinitely wide. With a font file that exists
nothing else keeps a plan from being carried out to its end.
-/

namespace LabelPress

open LabelPress.Barcode LabelPress.Number

/-- An integer with a nearest floating-point number that is finite. -/
def FitsFloat (n : Int) : Prop := (n.natAbs : ℚ) < Binary64.overflow

/-- From the next power of two after the greatest number on there are no floating-point numbers. -/
theorem not_fitsFloat_of_le {n : Nat} (h : 2 ^ 1024 ≤ n) : ¬ FitsFloat n := by
  have hpower : (2 : ℚ) ^ 53 * 2 ^ Binary64.maxExponent = 2 ^ 1024 := by
    rw [Binary64.maxExponent, ← zpow_natCast 2 53, ← zpow_natCast 2 1024,
      ← zpow_add₀ two_ne_zero]
    rfl
  rw [FitsFloat, not_lt, Int.natAbs_natCast]
  calc
    Binary64.overflow ≤ 2 ^ 53 * 2 ^ Binary64.maxExponent := by
      rw [Binary64.overflow]
      exact mul_le_mul_of_nonneg_right (by norm_num) (zpow_nonneg two_pos.le _)
    _ = 2 ^ 1024 := hpower
    _ ≤ n := by exact_mod_cast h

/-- The faults of a number that is too large to be scaled. -/
def Fault.IsTooLarge (fault : Fault) : Prop :=
  fault = .integerBeyondFloat ∨ fault = .infinityToInteger

namespace Painting

/-! ## Texts -/

theorem isReal_scale : Binary64.IsReal scale :=
  ⟨false, 5404319552844595, -53, by decide +kernel, by decide, by decide⟩

theorem magnitude_scale_le : Binary64.magnitude scale ≤ 1 := by
  have hscale : scale = .finite false 5404319552844595 (-53) := by decide +kernel
  rw [hscale, Binary64.magnitude]
  norm_num

/-- The exact product that the width of a ground is rounded from. -/
def groundProduct (text : String) (size : Int) : ℚ :=
  (Binary64.ofSigned text.length 1).magnitude *
    ((Binary64.ofSigned size 1).mul scale).magnitude

/-- The height of a font has a size exactly if it has a floating-point number, and then so has the
size. -/
theorem textSize_cases (fontHeight : Int) :
    ¬ FitsFloat fontHeight ∧ textSize fontHeight = .error .integerBeyondFloat ∨
      FitsFloat fontHeight ∧ ∃ size, textSize fontHeight = .ok size ∧ FitsFloat size := by
  rcases Binary64.ofInt_cases fontHeight with ⟨hn, herror⟩ | ⟨hn, x, hx, -, hreal⟩
  · refine Or.inl ⟨not_lt.mpr hn, ?_⟩
    rw [textSize, herror]
    rfl
  · obtain ⟨size, hsize, hfits⟩ := (hreal.mul isReal_scale magnitude_scale_le).nearest
    refine Or.inr ⟨hn, size, ?_, hfits⟩
    rw [textSize, hx]
    exact hsize

/-- The ground under a text has a width exactly if its factors and their product are finite. -/
theorem groundWidth_cases {text : String} {size : Int} (hsize : FitsFloat size) :
    (¬ (FitsFloat text.length ∧ groundProduct text size < Binary64.overflow) ∧
      ∃ fault, groundWidth text size = .error fault ∧ fault.IsTooLarge) ∨
      (FitsFloat text.length ∧ groundProduct text size < Binary64.overflow) ∧
        ∃ width, groundWidth text size = .ok width := by
  rcases Binary64.ofInt_cases size with ⟨hn, -⟩ | ⟨-, y, hy, hys, hyreal⟩
  · exact absurd hsize (not_lt.mpr hn)
  · have hcharacter := hyreal.mul isReal_scale magnitude_scale_le
    rcases Binary64.ofInt_cases text.length with ⟨hn, herror⟩ | ⟨hn, x, hx, hxs, hxreal⟩
    · refine Or.inl ⟨fun h => absurd h.1 (not_lt.mpr hn), .integerBeyondFloat, ?_, Or.inl rfl⟩
      rw [groundWidth, hy, herror]
      rfl
    · rw [groundWidth, hy, hx, groundProduct, hxs, hys]
      rcases Binary64.mul_cases hxreal hcharacter with ⟨hover, s, hs⟩ | ⟨hin, hreal⟩
      · refine Or.inl ⟨fun h => absurd h.2 (not_lt.mpr hover), .infinityToInteger, ?_, Or.inr rfl⟩
        change Binary64.truncate (x.mul (y.mul scale)) = .error .infinityToInteger
        rw [hs]
        rfl
      · exact Or.inr ⟨⟨hn, hin⟩, hreal.toIntBy _⟩

theorem exists_groundWidth_iff {text : String} {size : Int} (hsize : FitsFloat size) :
    (∃ width, groundWidth text size = .ok width) ↔
      FitsFloat text.length ∧ groundProduct text size < Binary64.overflow := by
  rcases @groundWidth_cases text size hsize with ⟨hn, fault, herror, -⟩ | ⟨hin, hwidth⟩
  · rw [herror]
    exact ⟨nofun, fun h => absurd h hn⟩
  · exact ⟨fun _ => hin, fun _ => hwidth⟩

/-- A text in a layout has sizes that can be computed. -/
structure TextInRange (text : String) (layout : Layout) : Prop where
  height : FitsFloat layout.fontHeight
  ground : layout.reverse = true → FitsFloat text.length ∧
    ∀ size, textSize layout.fontHeight = .ok size → groundProduct text size < Binary64.overflow

theorem exists_ground_iff {text : String} {layout : Layout} {size : Int} (hsize : FitsFloat size) :
    (∃ ps, ground text layout size = .ok ps) ↔ (layout.reverse = true →
      FitsFloat text.length ∧ groundProduct text size < Binary64.overflow) := by
  rw [← exists_groundWidth_iff hsize, ground]
  cases layout.reverse with
  | false => exact ⟨fun _ => nofun, fun _ => ⟨_, rfl⟩⟩
  | true =>
      cases hwidth : groundWidth text size with
      | error fault => exact ⟨nofun, fun h => nomatch h rfl⟩
      | ok width => exact ⟨fun _ _ => ⟨width, rfl⟩, fun _ => ⟨_, rfl⟩⟩

theorem exists_textPrimitives_iff {text : String} {layout : Layout} {path : String} :
    (∃ ps, textPrimitives text layout path = .ok ps) ↔ TextInRange text layout := by
  rcases textSize_cases layout.fontHeight with ⟨hn, herror⟩ | ⟨hn, size, hsize, hfits⟩
  · rw [textPrimitives, herror]
    exact ⟨nofun, fun h => absurd h.height hn⟩
  · have hground := @exists_ground_iff text layout size hfits
    have hrange : TextInRange text layout ↔ (layout.reverse = true →
        FitsFloat text.length ∧ groundProduct text size < Binary64.overflow) := by
      constructor
      · intro h hreverse
        obtain ⟨hlength, hproduct⟩ := h.ground hreverse
        exact ⟨hlength, hproduct size hsize⟩
      · intro h
        refine ⟨hn, fun hreverse => ⟨(h hreverse).1, fun other hother => ?_⟩⟩
        rw [hsize] at hother
        exact Except.ok.inj hother ▸ (h hreverse).2
    rw [hrange, ← hground, textPrimitives, hsize]
    simp only [bind, Except.bind]
    cases ground text layout size with
    | error fault => exact ⟨nofun, nofun⟩
    | ok ps => exact ⟨fun _ => ⟨ps, rfl⟩, fun _ => ⟨_, rfl⟩⟩

/-- A text that has no primitives has a size that cannot be computed. -/
theorem isTooLarge_of_textPrimitives {text : String} {layout : Layout} {path : String}
    {fault : Fault} (h : textPrimitives text layout path = .error fault) : fault.IsTooLarge := by
  rcases textSize_cases layout.fontHeight with ⟨-, herror⟩ | ⟨-, size, hsize, hfits⟩
  · rw [textPrimitives, herror] at h
    exact Or.inl (Except.error.inj h).symm
  · rw [textPrimitives, hsize] at h
    simp only [bind, Except.bind, ground] at h
    cases hreverse : layout.reverse with
    | false =>
        rw [hreverse] at h
        cases h
    | true =>
        rw [hreverse] at h
        rcases @groundWidth_cases text size hfits with
          ⟨-, fault', herror, hlarge⟩ | ⟨-, width, hwidth⟩
        · rw [herror] at h
          exact Except.error.inj h ▸ hlarge
        · rw [hwidth] at h
          cases h

/-! ## Symbols -/

theorem isReal_widthDivisor : Binary64.IsReal widthDivisor :=
  ⟨false, 6755399441055744, -52, by decide +kernel, by decide, by decide⟩

theorem one_le_magnitude_widthDivisor : 1 ≤ Binary64.magnitude widthDivisor := by
  have hdivisor : widthDivisor = .finite false 6755399441055744 (-52) := by decide +kernel
  rw [hdivisor, Binary64.magnitude]
  norm_num

/-- A module can be drawn exactly if its width has a floating-point number. -/
theorem drawnWidth_cases (moduleWidth : Int) :
    ¬ FitsFloat moduleWidth ∧ drawnWidth moduleWidth = .error .integerBeyondFloat ∨
      FitsFloat moduleWidth ∧ ∃ drawn, drawnWidth moduleWidth = .ok drawn := by
  rcases Binary64.ofInt_cases moduleWidth with ⟨hn, herror⟩ | ⟨hn, x, hx, -, hreal⟩
  · refine Or.inl ⟨not_lt.mpr hn, ?_⟩
    rw [drawnWidth, herror]
    rfl
  · obtain ⟨n, hnearest, -⟩ :=
      (hreal.div isReal_widthDivisor one_le_magnitude_widthDivisor).nearest
    refine Or.inr ⟨hn, max 1 n, ?_⟩
    rw [drawnWidth, hx]
    simp only [bind, Except.bind, hnearest]
    rfl

theorem exists_drawnWidth_iff {moduleWidth : Int} :
    (∃ drawn, drawnWidth moduleWidth = .ok drawn) ↔ FitsFloat moduleWidth := by
  rcases drawnWidth_cases moduleWidth with ⟨hn, herror⟩ | ⟨hn, hdrawn⟩
  · rw [herror]
    exact ⟨nofun, fun h => absurd h hn⟩
  · exact ⟨fun _ => hn, fun _ => hdrawn⟩

end Painting

/-! ## Tasks -/

/-- A task whose sizes can be computed. -/
def Task.InRange : Task → Prop
  | .text line layout => line ≠ "" → Painting.TextInRange line layout
  | .symbol s _ _ => FitsFloat s.moduleWidth
  | _ => True

section Font

variable {files : Files.Tree} {path : String}

theorem exists_of_isFile (h : files.isFile path = true) :
    ∃ bytes, files.find path = .node (.file bytes) := by
  rw [Files.Tree.isFile] at h
  split at h
  · next node hfind =>
      cases node with
      | folder => cases h
      | file bytes => exact ⟨bytes, hfind⟩
  · cases h

theorem ne_empty_of_isFile (h : files.isFile path = true) : path ≠ "" := by
  rintro rfl
  cases h

/-- A file that a text leads to is found by the normal form of the text as well. -/
theorem probeFile_of_isFile (h : files.isFile path = true) :
    files.probeFile (Files.Path.ofText path).text = .ok true := by
  obtain ⟨bytes, hfind⟩ := exists_of_isFile h
  rw [Files.Tree.probeFile, Files.Tree.probe, Files.Tree.find_text_ofText hfind]
  rfl

theorem require_of_isFile (h : files.isFile path = true) :
    Font.require files (some path) = .ok path := by
  simp [Font.require, ne_empty_of_isFile h, h]

/-- A font file that exists can be embedded. -/
theorem exists_embed (h : files.isFile path = true) (c : Canvas) :
    ∃ d, c.embed files (some path) = .ok d := by
  obtain ⟨bytes, hfind⟩ := exists_of_isFile h
  have hread : files.read path = .ok bytes := Files.Tree.read_eq_ok_iff.mpr hfind
  have htakes : ∃ takes, c.takesIn files path = .ok takes := by
    rw [Canvas.takesIn]
    split
    · exact ⟨_, rfl⟩
    · exact ⟨_, probeFile_of_isFile h⟩
  obtain ⟨takes, htakes⟩ := htakes
  cases takes <;> simp [Canvas.embed, htakes, hread, bind, Except.bind, pure, Except.pure]

/-- A task has a piece exactly if its sizes can be computed, given a font file that exists. -/
theorem exists_piece_iff (h : files.isFile path = true) {t : Task} :
    (∃ p, Painting.piece files (some path) t = .ok p) ↔ t.InRange := by
  cases t with
  | text line layout =>
      rw [Painting.piece, Painting.textPiece]
      split
      · next hempty => exact ⟨fun _ hne => absurd hempty hne, fun _ => ⟨_, rfl⟩⟩
      · next hne =>
          have hrange : Task.InRange (.text line layout) ↔ Painting.TextInRange line layout :=
            forall_prop_of_true hne
          rw [hrange, ← @Painting.exists_textPrimitives_iff line layout path, require_of_isFile h]
          simp only [bind, Except.bind]
          cases Painting.textPrimitives line layout path with
          | error fault =>
              constructor
              · rintro ⟨p, hp⟩
                cases hp
              · rintro ⟨ps, hps⟩
                cases hps
          | ok ps => exact ⟨fun _ => ⟨ps, rfl⟩, fun _ => ⟨_, rfl⟩⟩
  | symbol s x y =>
      rw [Task.InRange, ← Painting.exists_drawnWidth_iff, Painting.piece, Painting.symbolPiece]
      simp only [bind, Except.bind]
      cases Barcode.drawnWidth s.moduleWidth with
      | error fault =>
          constructor
          · rintro ⟨p, hp⟩
            cases hp
          · rintro ⟨drawn, hdrawn⟩
            cases hdrawn
      | ok drawn => exact ⟨fun _ => ⟨drawn, rfl⟩, fun _ => ⟨_, rfl⟩⟩
  | _ => exact ⟨fun _ => trivial, fun _ => ⟨_, rfl⟩⟩

/-- A piece draws with no font or with the one that was asked for. -/
theorem font_of_piece {t : Task} {p : Painting.Piece}
    (h : files.isFile path = true) (hp : Painting.piece files (some path) t = .ok p) :
    p.font = none ∨ p.font = some path := by
  cases t with
  | text line layout =>
      rw [Painting.piece, Painting.textPiece] at hp
      split at hp
      · cases hp
        exact Or.inl rfl
      · rw [require_of_isFile h] at hp
        simp only [bind, Except.bind] at hp
        split at hp
        · cases hp
        · cases hp
          exact Or.inr rfl
  | symbol s x y =>
      rw [Painting.piece, Painting.symbolPiece] at hp
      simp only [bind, Except.bind] at hp
      split at hp
      · cases hp
      · cases hp
        exact Or.inl rfl
  | _ =>
      cases hp
      exact Or.inl rfl

/-- With a font file that exists a task fails for its sizes only. -/
theorem fault_perform_iff (h : files.isFile path = true) (c : Canvas) (t : Task) :
    (c.perform files (some path) t).fault = none ↔ t.InRange := by
  rw [← exists_piece_iff h]
  constructor
  · exact Canvas.piece_of_perform
  · rintro ⟨p, hp⟩
    have hembed : ∃ d, c.embed files p.font = .ok d := by
      rcases font_of_piece h hp with hfont | hfont
      · rw [hfont]
        exact ⟨c, rfl⟩
      · rw [hfont]
        exact exists_embed h c
    obtain ⟨d, hd⟩ := hembed
    rw [Canvas.perform, hp]
    simp only [Canvas.add, hd]

/-- With a font file that exists a plan is carried out to its end exactly if the sizes of all its
tasks can be computed. -/
theorem fault_performAll_iff (h : files.isFile path = true) (c : Canvas) (p : Plan) :
    (c.performAll files (some path) p).fault = none ↔ ∀ t ∈ p, t.InRange := by
  induction p generalizing c with
  | nil => exact ⟨fun _ => nofun, fun _ => rfl⟩
  | cons t rest ih =>
      rw [List.forall_mem_cons, ← fault_perform_iff h c t]
      cases hfault : (c.perform files (some path) t).fault with
      | some fault =>
          rw [Canvas.performAll_cons_of_fault hfault, hfault]
          exact ⟨nofun, fun hboth => nomatch hboth.1⟩
      | none => rw [Canvas.fault_performAll_cons hfault, ih, eq_self, true_and]

end Font

end LabelPress
