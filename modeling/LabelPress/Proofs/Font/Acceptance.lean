import LabelPress.Proofs.Canvas.Registry
import LabelPress.Proofs.Files.Spelling
import LabelPress.Proofs.Label.LineBreaks

/-!
# Fonts that are chosen and not drawn with

A TrueType file is chosen by the normal form of its path, and texts are drawn with the path as it is
spelled. A spelling with something after the name of the file, or one that is too long, is therefore
chosen and fails with the first text; every other one is drawn with.
-/

namespace LabelPress.Font

open LabelPress.Files LabelPress.Painting

variable {files : Tree} {path : String} {bytes : List UInt8}

/-- A text is painted with the font of a path: its primitives are on the canvas, and its family is
in the registry, with the bytes that it had there or else with those of the file. -/
structure PaintsText (files : Tree) (path : String) (bytes : List UInt8) (c : Canvas)
    (line : String) (layout : Layout) : Prop where
  fault : (c.perform files (some path) (.text line layout)).fault = none
  primitives : ∃ ps, textPrimitives line layout path = .ok ps ∧
    (c.perform files (some path) (.text line layout)).canvas.primitives = c.primitives ++ ps
  registry : Entries.get? (family (some path))
      (c.perform files (some path) (.text line layout)).canvas.registry =
    some ((Entries.get? (family (some path)) c.registry).getD bytes)

/-- A path is accepted for drawing, and so is every text whose sizes can be computed. -/
structure DrawsTexts (files : Tree) (path : String) (bytes : List UInt8) : Prop where
  require : require files (some path) = .ok path
  text : ∀ (c : Canvas) (line : String) (layout : Layout), line ≠ "" → TextInRange line layout →
    PaintsText files path bytes c line layout

/-- A path is not accepted for drawing, and no text is painted with it. -/
structure DrawsNoText (files : Tree) (path : String) : Prop where
  require : require files (some path) = .error (.fontNotFound (some path))
  text : ∀ (c : Canvas) (line : String) (layout : Layout), line ≠ "" →
    c.perform files (some path) (.text line layout) =
      { canvas := c, fault := some (.fontNotFound (some path)) }

/-! ## Choosing -/

/-- A selector is a TrueType file exactly if its normal form leads to one by a name that ends so. -/
theorem isTrueTypeFile_eq_true_iff {selector : String} :
    isTrueTypeFile files selector = .ok true ↔ (Path.ofText selector).suffix = ".ttf" ∧
      ∃ bytes, files.find (Path.ofText selector).text = .node (.file bytes) := by
  unfold isTrueTypeFile
  dsimp only
  split
  · next hsuffix =>
      rw [Tree.probeFile, Tree.probe]
      cases hfind : files.find (Path.ofText selector).text with
      | node node => cases node <;> simp [hsuffix, Except.map, Node.isFile]
      | _ => simp [Except.map]
  · next hsuffix => simp [hsuffix]

/-- A selector that is a TrueType file is chosen as it is spelled. -/
theorem resolve_of_isTrueTypeFile {site : Site} {selector : String}
    (h : isTrueTypeFile site.files selector = .ok true) (fontsDir : Option String) :
    resolve site fontsDir (Text.CodePoints.ofString selector) = .ok (some selector) := by
  rw [resolve, Text.CodePoints.toString?_ofString]
  simp [choose, h, bind, Except.bind, pure, Except.pure]

/-! ## Drawing -/

theorem get?_registry_perform (hfind : files.find path = .node (.file bytes)) {c : Canvas}
    {line : String} {layout : Layout} (hline : line ≠ "")
    (hfault : (c.perform files (some path) (.text line layout)).fault = none) :
    Entries.get? (family (some path))
        (c.perform files (some path) (.text line layout)).canvas.registry =
      some ((Entries.get? (family (some path)) c.registry).getD bytes) := by
  have hdraws : Task.drawsText (.text line layout) = true := by simpa [Task.drawsText] using hline
  obtain ⟨found, hfound⟩ :=
    Entries.exists_get?_iff.mpr (Canvas.mem_keys_of_perform hdraws hfault)
  rw [hfound]
  rcases (Canvas.Grows.of_perform c _).get?_registry hfound with
    hold | ⟨hnone, named, hnamed, -, hread⟩
  · rw [hold, Option.getD_some]
  · obtain rfl := Option.some.inj hnamed
    rw [Tree.read_eq_ok_iff.mpr hfind] at hread
    rw [hnone, Option.getD_none, Except.ok.inj hread]

/-- A path that leads to a file as it is spelled is drawn with. -/
theorem drawsTexts_of_find (h : files.find path = .node (.file bytes)) :
    DrawsTexts files path bytes := by
  have hfile : files.isFile path = true := by rw [Tree.isFile, h]; rfl
  refine ⟨require_of_isFile hfile, fun c line layout hline hrange => ?_⟩
  have hfault := (fault_perform_iff hfile c (.text line layout)).mpr fun _ => hrange
  obtain ⟨ps, hps⟩ := exists_textPrimitives_iff.mpr hrange
  refine ⟨hfault, ⟨ps, hps, ?_⟩, get?_registry_perform h hline hfault⟩
  rw [Canvas.primitives_perform hfault, primitivesOf, piece, textPiece, if_neg hline,
    require_of_isFile hfile]
  simp [hps, bind, Except.bind, pure, Except.pure]

/-- A path that leads to no file as it is spelled is not drawn with. -/
theorem drawsNoText_of_not_isFile (h : files.isFile path = false) : DrawsNoText files path := by
  have hmissing : Missing files (some path) := by
    intro named hnamed
    exact .inr (Option.some.inj hnamed ▸ h)
  refine ⟨require_of_missing hmissing, fun c line layout hline => ?_⟩
  have hpiece : piece files (some path) (.text line layout) =
      .error (.fontNotFound (some path)) := by
    rw [piece, textPiece, if_neg hline, require_of_missing hmissing]
    rfl
  rw [Canvas.perform, hpiece]

/-- A path that is drawn with is accepted. -/
theorem DrawsTexts.not_drawsNoText (h : DrawsTexts files path bytes) :
    ¬ DrawsNoText files path := by
  intro hno
  have hrequire := h.require.symm.trans hno.require
  cases hrequire

/-- A file that is found by the normal form of a path is drawn with, or no text is. -/
theorem drawsTexts_or_drawsNoText
    (h : files.find (Path.ofText path).text = .node (.file bytes)) :
    (files.find path = .node (.file bytes) ∧ DrawsTexts files path bytes) ∨
      files.find path ≠ .node (.file bytes) ∧ DrawsNoText files path := by
  cases hfile : files.isFile path with
  | true =>
      obtain ⟨found, hfound⟩ := exists_of_isFile hfile
      have hsame := (Tree.find_text_ofText hfound).symm.trans h
      cases hsame
      exact Or.inl ⟨hfound, drawsTexts_of_find hfound⟩
  | false =>
      refine Or.inr ⟨fun hfind => ?_, drawsNoText_of_not_isFile hfile⟩
      rw [Tree.isFile, hfind] at hfile
      cases hfile

/-- A TrueType file that is chosen by its path is drawn with exactly if the path ends in a name and
is not too long. Otherwise no text is drawn, though the file is there. -/
theorem drawsTexts_iff_of_isTrueTypeFile {site : Site} {selector : String}
    (h : isTrueTypeFile site.files selector = .ok true) (fontsDir : Option String) :
    resolve site fontsDir (Text.CodePoints.ofString selector) = .ok (some selector) ∧
    ∃ bytes, site.files.find (Path.ofText selector).text = .node (.file bytes) ∧
      (DrawsTexts site.files selector bytes ↔
        selector.utf8ByteSize ≤ pathLimit ∧ Tree.EndsInName selector) ∧
      (¬ (selector.utf8ByteSize ≤ pathLimit ∧ Tree.EndsInName selector) →
        DrawsNoText site.files selector) := by
  obtain ⟨-, bytes, hfind⟩ := isTrueTypeFile_eq_true_iff.mp h
  refine ⟨resolve_of_isTrueTypeFile h fontsDir, bytes, hfind, ?_⟩
  rw [← Tree.find_eq_file_iff_of_ofText hfind]
  rcases drawsTexts_or_drawsNoText hfind with ⟨hfound, hdraws⟩ | ⟨hnot, hno⟩
  · exact ⟨iff_of_true hdraws hfound, fun hne => absurd hfound hne⟩
  · exact ⟨iff_of_false (fun hdraws => hdraws.not_drawsNoText hno) hnot, fun _ => hno⟩

/-- A spelling from the working folder and one from the root. -/
theorem drawsTexts_iff_of_isTrueTypeFile_dottedPath :
    (isTrueTypeFile Site.small.files ".//./f.ttf" = .ok true ∧
      ∃ bytes, DrawsTexts Site.small.files ".//./f.ttf" bytes) ∧
    isTrueTypeFile Site.small.files "//../home/./f.ttf" = .ok true ∧
      ∃ bytes, DrawsTexts Site.small.files "//../home/./f.ttf" bytes := by
  have hfile : isTrueTypeFile Site.small.files ".//./f.ttf" = .ok true := by rfl
  have hroot : isTrueTypeFile Site.small.files "//../home/./f.ttf" = .ok true := by rfl
  obtain ⟨-, bytes, -, hdraws, -⟩ := drawsTexts_iff_of_isTrueTypeFile hfile none
  obtain ⟨-, others, -, hdrawsRoot, -⟩ := drawsTexts_iff_of_isTrueTypeFile hroot none
  exact ⟨⟨hfile, bytes, hdraws.mpr (by decide +kernel)⟩, hroot, others,
    hdrawsRoot.mpr (by decide +kernel)⟩

/-- A font that is chosen by its path with a slash after it is not drawn with. -/
theorem not_drawsTexts_trailingSlash :
    resolve .small none (Text.CodePoints.ofString "f.ttf/") = .ok (some "f.ttf/") ∧
      Site.small.files.find (Path.ofText "f.ttf/").text = .node (.file []) ∧
      require Site.small.files (some "f.ttf/") = .error (.fontNotFound (some "f.ttf/")) := by
  refine ⟨?_, ?_, ?_⟩
  · rfl
  · rfl
  · rfl

end LabelPress.Font
