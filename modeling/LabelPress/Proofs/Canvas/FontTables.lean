import LabelPress.Label.Desk
import LabelPress.Proofs.Canvas.Registry
import LabelPress.Proofs.Command.Markup

/-!
# Fonts in two tables

The fonts of a canvas may be kept as two tables by family, one of paths and one of bytes. A path is
written before its file is read, so one whose file cannot be read is left without bytes, and a
family that has bytes is left alone. The tables agree with the canvas after every operation, whether
it failed or not, and the rules of the style sheet can be made from them.
-/

namespace LabelPress

open LabelPress.Files

/-- Paths and bytes of fonts by their families. -/
structure FontTables where
  paths : Entries String String := []
  bytes : Entries String (List UInt8) := []

namespace FontTables

/-- The tables after a font was to be entered, and the fault if that failed. -/
def enter (t : FontTables) (files : Tree) : Option String → FontTables × Option Fault
  | none => (t, none)
  | some path =>
    let family := Font.family (some path)
    if path = "" || (t.bytes.get? family).isSome then (t, none)
    else match files.probeFile (Path.ofText path).text with
      | .error fault => (t, some fault)
      | .ok false => (t, none)
      | .ok true =>
        let noted := { t with paths := t.paths.put family path }
        match files.read path with
        | .error fault => (noted, some fault)
        | .ok bytes => ({ noted with bytes := t.bytes.put family bytes }, none)

/-- The tables after a plan, with the fault of the first task that fails. -/
def carryOut (t : FontTables) (files : Tree) (fontPath : Option String) :
    Plan → FontTables × Option Fault
  | [] => (t, none)
  | task :: rest =>
    match Painting.piece files fontPath task with
    | .error fault => (t, some fault)
    | .ok piece =>
      let entered := t.enter files piece.font
      match entered.2 with
      | some _ => entered
      | none => carryOut entered.1 files fontPath rest

/-- The tables after an operation beside some files. -/
def follow (t : FontTables) (files : Tree) : Desk.Operation → FontTables
  | .drawText line => (t.enter files line.fontPath).1
  | .carryOut fontPath plan => (t.carryOut files fontPath plan).1
  | _ => t

/-- The tables after the operations of a run from a desk. -/
def run (t : FontTables) (d : Desk) : List Desk.Operation → FontTables
  | [] => t
  | o :: rest => run (t.follow d.files o) (d.act o).desk rest

/-- The rules for the families that have bytes, if each of them has a path. -/
def faces? (t : FontTables) : Option (List Svg.FontFace) :=
  t.bytes.mapM fun e => (t.paths.get? e.1).map fun path => ⟨e.1, Font.mediaType path, e.2⟩

/-- Tables that agree with a canvas. Every path has its own family, and each embedded font has its
bytes and its path. -/
structure Holds (t : FontTables) (c : Canvas) : Prop where
  bytes : t.bytes = c.registry
  paths : ∀ f ∈ c.fonts, t.paths.get? f.family = some f.path
  family : ∀ family path, t.paths.get? family = some path → Font.family (some path) = family

variable {t : FontTables} {c : Canvas} {files : Tree} {fontPath : Option String}

/-! ## Entering a font -/

/-- A family without bytes can be given a path. -/
theorem Holds.note (h : Holds t c) {path : String}
    (hnew : c.embeds (Font.family (some path)) = false) :
    Holds { t with paths := t.paths.put (Font.family (some path)) path } c where
  bytes := h.bytes
  paths f hf := by
    have hne : Font.family (some path) ≠ f.family := by
      intro heq
      have hmem : f.family ∈ Entries.keys c.registry :=
        List.mem_map_of_mem (List.mem_map_of_mem hf)
      exact Canvas.embeds_eq_false_iff.mp hnew (heq ▸ hmem)
    rw [Entries.get?_put, if_neg hne]
    exact h.paths f hf
  family family other hother := by
    rw [Entries.get?_put] at hother
    split at hother
    · next heq => exact Option.some.inj hother ▸ heq
    · exact h.family family other hother

/-- A family with a path can be given bytes, which makes it a font of the canvas. -/
theorem Holds.fill (h : Holds t c) {path : String}
    (hnew : c.embeds (Font.family (some path)) = false)
    (hpath : t.paths.get? (Font.family (some path)) = some path) (bytes : List UInt8) :
    Holds { t with bytes := t.bytes.put (Font.family (some path)) bytes }
      { c with fonts := c.fonts ++ [⟨path, bytes⟩] } where
  bytes := by
    change t.bytes.put (Font.family (some path)) bytes = _
    rw [h.bytes, Entries.put_of_not_mem (Canvas.embeds_eq_false_iff.mp hnew)]
    simp [Canvas.registry, EmbeddedFont.family]
  paths f hf := by
    rcases List.mem_append.mp hf with hold | hlast
    · exact h.paths f hold
    · rw [List.mem_singleton.mp hlast]
      exact hpath
  family := h.family

/-- A font that is embedded is entered, and both fail alike. -/
theorem Holds.enter (h : Holds t c) (files : Tree) (path : Option String) :
    (∃ d, c.embed files path = .ok d ∧ Holds (t.enter files path).1 d ∧
        (t.enter files path).2 = none) ∨
      ∃ fault, c.embed files path = .error fault ∧ Holds (t.enter files path).1 c ∧
        (t.enter files path).2 = some fault := by
  cases path with
  | none => exact Or.inl ⟨c, rfl, h, rfl⟩
  | some path =>
      have hguard : (t.bytes.get? (Font.family (some path))).isSome =
          c.embeds (Font.family (some path)) := by
        rw [Bool.eq_iff_iff, h.bytes, Entries.get?_isSome_iff, Canvas.embeds_eq_true_iff]
      simp only [FontTables.enter, Canvas.embed, Canvas.takesIn, hguard, bind, Except.bind, pure,
        Except.pure]
      by_cases hout : (path = "" || c.embeds (Font.family (some path))) = true
      · rw [if_pos hout, if_pos hout]
        exact Or.inl ⟨c, rfl, h, rfl⟩
      · have hnew : c.embeds (Font.family (some path)) = false :=
          (Bool.or_eq_false_iff.mp (Bool.eq_false_iff.mpr hout)).2
        rw [if_neg hout, if_neg hout]
        cases files.probeFile (Path.ofText path).text with
        | error fault => exact Or.inr ⟨fault, rfl, h, rfl⟩
        | ok found =>
            cases found with
            | false => exact Or.inl ⟨c, rfl, h, rfl⟩
            | true =>
                have hnoted := h.note hnew
                cases files.read path with
                | error fault => exact Or.inr ⟨fault, rfl, hnoted, rfl⟩
                | ok bytes =>
                    refine Or.inl ⟨_, rfl, hnoted.fill hnew ?_ bytes, rfl⟩
                    rw [Entries.get?_put, if_pos rfl]

/-! ## Operations -/

/-- A piece that is added has its font entered, also if that fails. -/
theorem Holds.add (h : Holds t c) (files : Tree) (piece : Painting.Piece) :
    Holds (t.enter files piece.font).1 (c.add files piece).canvas ∧
      (t.enter files piece.font).2 = (c.add files piece).fault := by
  rw [Canvas.add]
  rcases h.enter files piece.font with ⟨d, hd, hholds, hnone⟩ | ⟨fault, hfault, hholds, hsome⟩
  · rw [hd]
    exact ⟨⟨hholds.bytes, hholds.paths, hholds.family⟩, hnone⟩
  · rw [hfault]
    exact ⟨hholds, hsome⟩

/-- A plan stops at the same task for the tables as for the canvas. -/
theorem Holds.carryOut (h : Holds t c) (files : Tree) (fontPath : Option String) (p : Plan) :
    Holds (t.carryOut files fontPath p).1 (c.performAll files fontPath p).canvas := by
  induction p generalizing t c with
  | nil => exact h
  | cons task rest ih =>
      cases hpiece : Painting.piece files fontPath task with
      | error fault =>
          have hf : c.perform files fontPath task = { canvas := c, fault := some fault } := by
            simp only [Canvas.perform, hpiece]
          rw [Canvas.performAll_cons_of_fault (by rw [hf]), hf, FontTables.carryOut, hpiece]
          exact h
      | ok piece =>
          have hp : c.perform files fontPath task = c.add files piece := by
            simp only [Canvas.perform, hpiece]
          obtain ⟨hadd, hfault⟩ := h.add files piece
          rw [FontTables.carryOut, hpiece]
          simp only [hfault]
          cases hf : (c.add files piece).fault with
          | some fault =>
              rw [Canvas.performAll_cons_of_fault (by rw [hp, hf]), hp]
              exact hadd
          | none =>
              rw [Canvas.canvas_performAll_cons (by rw [hp, hf]), hp]
              exact ih hadd

/-- The tables agree with the canvas after every operation. -/
theorem Holds.follow {d : Desk} (h : Holds t d.canvas) (o : Desk.Operation) :
    Holds (t.follow d.files o) (d.act o).desk.canvas := by
  cases o with
  | paint primitive => exact ⟨h.bytes, h.paths, h.family⟩
  | drawText line =>
      let drawn : TextLine := { line with family := Font.family line.fontPath }
      exact (h.add d.files { primitives := [.text drawn], font := line.fontPath }).1
  | carryOut fontPath plan => exact h.carryOut d.files fontPath plan
  | document | write | delete => exact h

theorem Holds.run {d : Desk} (h : Holds t d.canvas) (os : List Desk.Operation) :
    Holds (t.run d os) (d.run os).canvas := by
  induction os generalizing t d with
  | nil => exact h
  | cons o rest ih => exact ih (h.follow o)

/-! ## The style sheet -/

/-- Every family that has bytes has a path, so the rules can be made. They are those of the
canvas. -/
theorem Holds.faces? (h : Holds t c) : t.faces? =
    some (c.fonts.map fun f => ⟨f.family, Font.mediaType f.path, f.bytes⟩) := by
  have hall (fs : List EmbeddedFont) (hfs : ∀ f ∈ fs, t.paths.get? f.family = some f.path) :
      (fs.map fun f => (f.family, f.bytes)).mapM (fun e =>
        (t.paths.get? e.1).map fun path => (⟨e.1, Font.mediaType path, e.2⟩ : Svg.FontFace)) =
        some (fs.map fun f => ⟨f.family, Font.mediaType f.path, f.bytes⟩) := by
    induction fs with
    | nil => rfl
    | cons f rest ih =>
        obtain ⟨hf, hrest⟩ := List.forall_mem_cons.mp hfs
        simp [hf, ih hrest]
  rw [FontTables.faces?, h.bytes]
  exact hall c.fonts h.paths

end FontTables

/-- The rule of a standing font is asked for in vain only if its path is too long to be asked
about. -/
theorem exists_standingFace?_iff {files : Tree} {folder : Path} {family file : String} :
    (∃ face, Svg.standingFace? files folder family file = .ok face) ↔
      files.find (folder.below [file]).text ≠ .tooLong := by
  simp only [Svg.standingFace?, Tree.probeFile, Tree.probe, bind, Except.bind, pure, Except.pure]
  cases hfind : files.find (folder.below [file]).text with
  | tooLong => simp [Except.map]
  | node n =>
      cases n with
      | folder => simp [Except.map, Node.isFile]
      | file bytes =>
          simp [Except.map, Node.isFile, Tree.read_eq_ok_iff.mpr hfind]
  | _ => simp [Except.map]

/-- The rules of a canvas are those of its own fonts and then the standing ones, which alone can
keep them from being made. -/
theorem exists_fontFaces_iff {files : Tree} {c : Canvas} :
    (∃ standing, Svg.fontFaces files c =
        .ok ((c.fonts.map fun f => ⟨f.family, Font.mediaType f.path, f.bytes⟩) ++ standing)) ↔
      ∀ s ∈ Font.standing, files.find (c.fontsDir.below [s.2]).text ≠ .tooLong := by
  have hmap := @Command.exists_mapM_eq_ok_iff _ _
    (fun s : String × String => Svg.standingFace? files c.fontsDir s.1 s.2) Font.standing
  simp only [exists_standingFace?_iff] at hmap
  rw [← hmap, Svg.fontFaces]
  cases Font.standing.mapM fun s => Svg.standingFace? files c.fontsDir s.1 s.2 with
  | error fault => simp [bind, Except.bind]
  | ok faces => simp [bind, Except.bind, pure, Except.pure]

end LabelPress
