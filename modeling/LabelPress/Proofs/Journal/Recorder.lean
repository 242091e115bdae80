import LabelPress.Recorder

/-!
# The handlers of a recorder

Setting up, setting the level and starting the program each write levels in places of their own.
What they all keep is one invariant of the recorder; whatever a run does, and however its starts
fail, the handlers have one of three forms and the file is at the recorder's level.
-/

namespace LabelPress.Journal.Recorder

open LabelPress.Files LabelPress.Settings

/-- A recorder whose handlers are in order and keep to its level. -/
structure Sound (r : Recorder) : Prop where
  /-- There is no handler, the console alone, or the console and then the file. -/
  handlers : r.handlers = [] ∨ r.handlers = [.console .warning] ∨
    r.handlers = [.console .warning, .rollingFile r.level]
  /-- No entry is passed on. -/
  propagates : r.propagates = false

theorem sound_initial : Sound initial := ⟨Or.inl rfl, rfl⟩

theorem Sound.dropHandlers {r : Recorder} (h : Sound r) : Sound r.dropHandlers :=
  ⟨Or.inl rfl, h.propagates⟩

/-- The file follows the recorder to its new level, and the console stays. -/
theorem Sound.setLevel {r : Recorder} (h : Sound r) (level : Level) :
    Sound (r.setLevel level) := by
  refine ⟨?_, h.propagates⟩
  rcases h.handlers with hr | hr | hr
  · exact Or.inl (by simp [Recorder.setLevel, hr])
  · exact Or.inr (Or.inl (by simp [Recorder.setLevel, hr, Handler.follow]))
  · exact Or.inr (Or.inr (by simp [Recorder.setLevel, hr, Handler.follow]))

/-! ## Setting up -/

/-- With a handler there is nothing to set up. -/
theorem setUp_of_handlers {r : Recorder} (h : r.handlers ≠ []) (files : Tree)
    (named : Option Text.CodePoints) : r.setUp files named = { recorder := r, files } := by
  simp [setUp, h]

/-- Without a handler both are made, or the console alone if the file cannot be opened. -/
theorem Sound.setUp {r : Recorder} (h : Sound r) (files : Tree) (named : Option Text.CodePoints) :
    Sound (r.setUp files named).recorder := by
  by_cases hr : r.handlers = []
  · simp only [Recorder.setUp, hr, List.isEmpty_nil, if_true]
    cases fileFault? files with
    | some reason => exact ⟨Or.inr (Or.inl rfl), rfl⟩
    | none => exact ⟨Or.inr (Or.inr rfl), rfl⟩
  · rw [setUp_of_handlers hr]
    exact h

/-! ## Starting -/

/-- A start leaves the recorder as it was set up, also if the configuration cannot be loaded, or
brings it to another level. -/
theorem recorder_start (r : Recorder) (files : Tree) (named fonts : Option Text.CodePoints) :
    (r.start files named fonts).recorder = (r.setUp files named).recorder ∨
      ∃ level, (r.start files named fonts).recorder =
        (r.setUp files named).recorder.setLevel level := by
  unfold start
  dsimp only
  split
  · exact Or.inl rfl
  · exact Or.inl rfl
  · split
    · exact Or.inl rfl
    · exact Or.inr ⟨_, rfl⟩

theorem Sound.start {r : Recorder} (h : Sound r) (files : Tree)
    (named fonts : Option Text.CodePoints) :
    Sound (r.start files named fonts).recorder := by
  rcases recorder_start r files named fonts with hs | ⟨level, hs⟩
  · rw [hs]
    exact h.setUp files named
  · rw [hs]
    exact (h.setUp files named).setLevel level

/-! ## Runs -/

/-- Every action keeps the handlers in order. -/
theorem Sound.act {r : Recorder} (h : Sound r) (files : Tree) (a : Action) :
    Sound (r.act files a).recorder := by
  cases a with
  | setUp named => exact h.setUp files named
  | setLevel value =>
      simp only [Recorder.act]
      cases Level.ofValue value with
      | error fault => exact h
      | ok level => exact h.setLevel level
  | start named fonts => exact h.start files named fonts
  | dropHandlers => exact h.dropHandlers
  | write path node => exact h

theorem Sound.run {r : Recorder} (h : Sound r) (files : Tree) (actions : List Action) :
    Sound (r.run files actions).1 := by
  induction actions generalizing r files with
  | nil => exact h
  | cons a rest ih => exact ih (h.act files a) _

/-- After every run the handlers are none, the console at warnings, or the console and the file at
the recorder's level, which is one of the five, and nothing is passed on. Setting up a recorder that
has a handler, sound or not, changes and reports nothing. -/
theorem run_sound (files : Tree) (actions : List Action) :
    ((initial.run files actions).1.Sound ∧
      (initial.run files actions).1.level ∈
        [Level.debug, .info, .warning, .error, .critical]) ∧
    ∀ (r : Recorder) (files : Tree) (named : Option Text.CodePoints), r.handlers ≠ [] →
      r.setUp files named = { recorder := r, files, journal := [], result := .ok none } := by
  refine ⟨⟨sound_initial.run files actions, Level.mem_all _⟩, ?_⟩
  intro r files named h
  exact setUp_of_handlers h files named

/-- A start that fails, because a number of the settings is infinite, leaves a recorder that is set
up. -/
example : (initial.start
    { nodes := [(["zpl_to_svg.json"], .file (Text.utf8 "\x7b\"dpi\": Infinity\x7d"))] }
    none none).recorder =
    ⟨.info, [.console .warning, .rollingFile .info], false⟩ := by
  decide +kernel

end LabelPress.Journal.Recorder
