import LabelPress.Label.Painting
import Mathlib.Data.List.Infix

/-!
# What is carried out of a plan

Carrying out a plan stops at the first task that fails, so the tasks carried out are a prefix of the
plan, and the canvas gains exactly their primitives. Notes paint nothing and never fail; a plan may
be read without them.
-/

namespace LabelPress

/-- Whether a task only reports. -/
def Task.isNote : Task → Bool
  | .symbolWithoutField _ | .symbolWithoutData _ | .dataWithoutLayout _ => true
  | _ => false

/-- The tasks of a plan that paint. -/
def Plan.items (p : Plan) : Plan := p.filter fun t => !t.isNote

@[simp] theorem Plan.items_nil : Plan.items [] = [] := rfl

@[simp] theorem Plan.items_append (p q : Plan) : Plan.items (p ++ q) = p.items ++ q.items :=
  List.filter_append ..

/-- The primitives that a task comes to, none if it fails. -/
def Painting.primitivesOf (files : Files.Tree) (fontPath : Option String) (t : Task) :
    List Primitive :=
  match piece files fontPath t with
  | .ok p => p.primitives
  | .error _ => []

namespace Canvas

variable {files : Files.Tree} {fontPath : Option String}

theorem paint_nil (c : Canvas) : c.paint [] = c := by
  rw [paint, List.append_nil]

theorem paint_paint (c : Canvas) (ps qs : List Primitive) :
    (c.paint ps).paint qs = c.paint (ps ++ qs) := by
  simp only [paint, List.append_assoc]

/-- What is on a canvas does not matter to the fonts that it takes in. -/
theorem embed_withPrimitives (files : Files.Tree) (c : Canvas) (ps : List Primitive)
    (path : Option String) :
    { c with primitives := ps }.embed files path =
      (c.embed files path).map fun d => { d with primitives := ps } := by
  cases path with
  | none => rfl
  | some path =>
      have htakes : { c with primitives := ps }.takesIn files path = c.takesIn files path := rfl
      simp only [embed, htakes, bind, Except.bind]
      cases c.takesIn files path with
      | error fault => rfl
      | ok takes =>
          cases takes with
          | false => rfl
          | true => cases files.read path <;> rfl

/-- The tasks of a plan up to the first that fails. -/
def performed (files : Files.Tree) (fontPath : Option String) (c : Canvas) : Plan → Plan
  | [] => []
  | t :: rest =>
    match (c.perform files fontPath t).fault with
    | some _ => []
    | none => t :: performed files fontPath (c.perform files fontPath t).canvas rest

/-- A task fails and leaves the canvas as it is, or its font is embedded and its piece painted. -/
theorem perform_cases (files : Files.Tree) (fontPath : Option String) (c : Canvas) (t : Task) :
    (∃ fault, c.perform files fontPath t = { canvas := c, fault := some fault }) ∨
    (∃ piece d, Painting.piece files fontPath t = .ok piece ∧
      c.embed files piece.font = .ok d ∧
      c.perform files fontPath t =
        { canvas := d.paint piece.primitives,
          journal := piece.journal ++ c.embedJournal files piece.font }) := by
  cases hp : Painting.piece files fontPath t with
  | error fault => exact Or.inl ⟨fault, by simp [perform, hp]⟩
  | ok piece =>
      cases he : c.embed files piece.font with
      | error fault => exact Or.inl ⟨fault, by simp [perform, hp, add, he]⟩
      | ok d => exact Or.inr ⟨piece, d, rfl, he, by simp [perform, hp, add, he]⟩

/-- A task that does not fail adds its primitives at the end. -/
theorem primitives_perform {c : Canvas} {t : Task}
    (h : (c.perform files fontPath t).fault = none) :
    (c.perform files fontPath t).canvas.primitives =
      c.primitives ++ Painting.primitivesOf files fontPath t := by
  rcases perform_cases files fontPath c t with
    ⟨fault, hf⟩ | ⟨piece, d, hp, he, hf⟩
  · rw [hf] at h
    cases h
  · rw [hf, primitives_paint, primitives_embed he, Painting.primitivesOf, hp]

/-- A task that does not fail has a piece. -/
theorem piece_of_perform {c : Canvas} {t : Task}
    (h : (c.perform files fontPath t).fault = none) :
    ∃ piece, Painting.piece files fontPath t = .ok piece := by
  rcases perform_cases files fontPath c t with
    ⟨fault, hf⟩ | ⟨piece, d, hp, he, hf⟩
  · rw [hf] at h
    cases h
  · exact ⟨piece, hp⟩

theorem canvas_of_fault {c : Canvas} {t : Task} {fault : Fault}
    (h : (c.perform files fontPath t).fault = some fault) :
    (c.perform files fontPath t).canvas = c := by
  rcases perform_cases files fontPath c t with
    ⟨_, hf⟩ | ⟨piece, d, hp, he, hf⟩
  · rw [hf]
  · rw [hf] at h
    cases h

/-! ## One task after the other -/

theorem performAll_cons_of_fault {c : Canvas} {t : Task} {fault : Fault}
    (h : (c.perform files fontPath t).fault = some fault) (rest : Plan) :
    c.performAll files fontPath (t :: rest) = c.perform files fontPath t := by
  rw [performAll, Painted.andThen_of_fault h]

theorem canvas_performAll_cons {c : Canvas} {t : Task}
    (h : (c.perform files fontPath t).fault = none) (rest : Plan) :
    (c.performAll files fontPath (t :: rest)).canvas =
      ((c.perform files fontPath t).canvas.performAll files fontPath rest).canvas := by
  simp [performAll, Painted.andThen, h]

theorem fault_performAll_cons {c : Canvas} {t : Task}
    (h : (c.perform files fontPath t).fault = none) (rest : Plan) :
    (c.performAll files fontPath (t :: rest)).fault =
      ((c.perform files fontPath t).canvas.performAll files fontPath rest).fault := by
  simp [performAll, Painted.andThen, h]

/-- Nothing is carried out after a task that failed. -/
theorem performed_prefix (c : Canvas) (p : Plan) : c.performed files fontPath p <+: p := by
  induction p generalizing c with
  | nil => exact List.prefix_rfl
  | cons t rest ih =>
      rw [performed]
      cases h : (c.perform files fontPath t).fault with
      | some fault => exact List.nil_prefix
      | none => exact List.cons_prefix_cons.mpr ⟨rfl, ih _⟩

/-- Everything is carried out of a plan exactly if none of its tasks fails. -/
theorem performed_eq_self_iff (c : Canvas) (p : Plan) :
    c.performed files fontPath p = p ↔ (c.performAll files fontPath p).fault = none := by
  induction p generalizing c with
  | nil => simp [performed, performAll]
  | cons t rest ih =>
      rw [performed]
      cases h : (c.perform files fontPath t).fault with
      | some fault => simp [performAll_cons_of_fault h, h]
      | none => simp [fault_performAll_cons h, ih]

/-- The canvas gains exactly the primitives of the tasks that are carried out. -/
theorem primitives_performAll (c : Canvas) (p : Plan) :
    (c.performAll files fontPath p).canvas.primitives =
      c.primitives ++
        (c.performed files fontPath p).flatMap (Painting.primitivesOf files fontPath) := by
  induction p generalizing c with
  | nil => simp [performed, performAll]
  | cons t rest ih =>
      rw [performed]
      cases h : (c.perform files fontPath t).fault with
      | some fault => simp [performAll_cons_of_fault h, canvas_of_fault h]
      | none =>
          simp only [canvas_performAll_cons h, ih, primitives_perform h, List.flatMap_cons,
            List.append_assoc]

/-- Every task of a plan that is carried out to its end has a piece. -/
theorem piece_of_performAll {c : Canvas} {p : Plan}
    (h : (c.performAll files fontPath p).fault = none) {t : Task} (ht : t ∈ p) :
    ∃ piece, Painting.piece files fontPath t = .ok piece := by
  induction p generalizing c with
  | nil => cases ht
  | cons u rest ih =>
      cases hu : (c.perform files fontPath u).fault with
      | some fault =>
          rw [performAll_cons_of_fault hu, hu] at h
          cases h
      | none =>
          rcases List.mem_cons.mp ht with rfl | hr
          · exact piece_of_perform hu
          · exact ih (fault_performAll_cons hu rest ▸ h) hr

/-! ## Sizes -/

/-- The width and the height of a canvas. -/
def size (c : Canvas) : Int × Int := (c.width, c.height)

@[simp] theorem size_paint (c : Canvas) (ps : List Primitive) : (c.paint ps).size = c.size := rfl

theorem size_embed {c d : Canvas} (h : c.embed files fontPath = .ok d) : d.size = c.size := by
  obtain rfl | ⟨font, rfl⟩ := embed_cases h <;> rfl

theorem size_perform (c : Canvas) (t : Task) :
    (c.perform files fontPath t).canvas.size = c.size := by
  rcases perform_cases files fontPath c t with ⟨fault, hf⟩ | ⟨piece, d, -, hembed, hf⟩
  · rw [hf]
  · rw [hf, size_paint, size_embed hembed]

/-- A plan leaves a canvas its size. -/
theorem size_performAll (c : Canvas) (p : Plan) :
    (c.performAll files fontPath p).canvas.size = c.size := by
  induction p generalizing c with
  | nil => rfl
  | cons t rest ih =>
      cases h : (c.perform files fontPath t).fault with
      | some fault => rw [performAll_cons_of_fault h, size_perform]
      | none => rw [canvas_performAll_cons h, ih, size_perform]

/-! ## Notes -/

/-- A note leaves the canvas as it is and does not fail. -/
theorem perform_note (files : Files.Tree) (fontPath : Option String) {t : Task}
    (h : t.isNote = true) (c : Canvas) :
    (c.perform files fontPath t).canvas = c ∧ (c.perform files fontPath t).fault = none := by
  cases t with
  | box | text | symbol => cases h
  | _ => simp [perform, Painting.piece, Painting.note, add, embed, paint_nil]

/-- Without its notes a plan comes to the same canvas and the same failure. -/
theorem performAll_items (files : Files.Tree) (fontPath : Option String) (c : Canvas)
    (p : Plan) :
    (c.performAll files fontPath p.items).canvas = (c.performAll files fontPath p).canvas ∧
      (c.performAll files fontPath p.items).fault = (c.performAll files fontPath p).fault := by
  induction p generalizing c with
  | nil => exact ⟨rfl, rfl⟩
  | cons t rest ih =>
      cases hn : t.isNote with
      | true =>
          obtain ⟨hc, hf⟩ := perform_note files fontPath hn c
          have hi : Plan.items (t :: rest) = Plan.items rest := by simp [Plan.items, hn]
          rw [hi, canvas_performAll_cons hf, fault_performAll_cons hf, hc]
          exact ih c
      | false =>
          have hi : Plan.items (t :: rest) = t :: Plan.items rest := by simp [Plan.items, hn]
          rw [hi]
          cases h : (c.perform files fontPath t).fault with
          | some fault => simp only [performAll_cons_of_fault h, and_self]
          | none =>
              simp only [canvas_performAll_cons h, fault_performAll_cons h]
              exact ih _

/-- Plans that paint the same items come to the same canvas and the same failure. -/
theorem performAll_congr (files : Files.Tree) (fontPath : Option String) {p q : Plan}
    (h : p.items = q.items) (c : Canvas) :
    (c.performAll files fontPath p).canvas = (c.performAll files fontPath q).canvas ∧
      (c.performAll files fontPath p).fault = (c.performAll files fontPath q).fault := by
  obtain ⟨hpc, hpf⟩ := performAll_items files fontPath c p
  obtain ⟨hqc, hqf⟩ := performAll_items files fontPath c q
  rw [← hpc, ← hqc, ← hpf, ← hqf, h]
  exact ⟨rfl, rfl⟩

/-- A small canvas with nothing on it. -/
def small : Canvas where
  width := 10
  height := 10
  fontsDir := ⟨.working, []⟩

end Canvas

/-- One font file and no other files. -/
def Files.Tree.oneFont : Files.Tree := { nodes := [(["f"], .file [])] }

end LabelPress
