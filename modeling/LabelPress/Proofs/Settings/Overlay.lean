import LabelPress.Proofs.Settings.Coercion

/-!
# Settings over the defaults

A run starts from the defaults with all of the settings that a file spells laid over them, and from
the defaults as they are if it spells none.
What a run starts from keeps its keys in their order. Its numbers are brought to their kinds, and
the folder of fonts is the one that the environment names.
-/

namespace LabelPress.Settings.Configuration

open LabelPress.Files LabelPress.Number

variable {files : Tree} {path : String} {user base c d : Configuration}

/-! ## What a run starts from -/

/-- The settings that a run starts from: the defaults with all that the file spells laid over them,
new keys after theirs, and the defaults alone if the file spells none. -/
structure StartsFrom (files : Tree) (path : String) (base : Configuration) : Prop where
  spelled : ∀ user, Spells files path user →
    Entries.keys base =
        Entries.keys defaults ++ (Entries.keys user).filter (fun k => k ∉ Entries.keys defaults) ∧
      ∀ key, Entries.get? key base = (Entries.get? key user).or (Entries.get? key defaults)
  unspelled : (∀ user, ¬ Spells files path user) → base = defaults

theorem startsFrom_of_overlaid (h : overlaid (ofFile files path) = .ok base) :
    StartsFrom files path base where
  spelled user hu := by
    have hfile := ofFile_eq_ok_iff.mpr hu
    have hn := nodup_keys_ofFile hfile
    rw [hfile] at h
    cases h
    refine ⟨?_, fun key => Entries.get?_putAll hn key defaults⟩
    rw [Entries.keys_putAll_of_nodup hn]
    exact congrArg _ (List.filter_congr fun k _ => decide_eq_decide.mpr Iff.rfl)
  unspelled hnone := by
    cases hfile : ofFile files path with
    | ok user => exact absurd (ofFile_eq_ok_iff.mp hfile) (hnone user)
    | error fault =>
        rw [hfile] at h
        cases fault <;> cases h <;> rfl

/-- No default is missing in what a run starts from. -/
theorem StartsFrom.keys_subset (h : StartsFrom files path base) :
    Entries.keys defaults ⊆ Entries.keys base := by
  by_cases hnone : ∀ user, ¬ Spells files path user
  · rw [h.unspelled hnone]
    exact List.Subset.refl _
  · obtain ⟨user, hu⟩ := not_forall_not.mp hnone
    rw [(h.spelled user hu).1]
    exact List.subset_append_left _ _

/-! ## What a run gets -/

theorem numericNames_subset : numericNames ⊆ Entries.keys defaults := by decide

/-- Where no default is missing, bringing numbers to their kinds adds no key. -/
theorem Normalizes.keys_eq (h : Normalizes base d)
    (hbase : Entries.keys defaults ⊆ Entries.keys base) :
    Entries.keys d = Entries.keys base := by
  have hnone : numericNames.filter (fun k => k ∉ Entries.keys base) = [] := by
    apply List.filter_eq_nil_iff.mpr
    intro k hk
    simpa using hbase (numericNames_subset hk)
  rw [h.keys, hnone, List.append_nil]

/-- The environment names a folder of fonts. -/
def NamesFolder (fontsVariable : Option Text.CodePoints) (text : Text.CodePoints) : Prop :=
  fontsVariable = some text ∧ text ≠ []

theorem withFontsVariable_of_names {fontsVariable : Option Text.CodePoints}
    {text : Text.CodePoints} (h : NamesFolder fontsVariable text) :
    c.withFontsVariable fontsVariable = c.set "fonts_dir" (.text text) := by
  rw [h.1, withFontsVariable, if_neg (by simpa using h.2)]

theorem withFontsVariable_of_not_names {fontsVariable : Option Text.CodePoints}
    (h : ∀ text, ¬ NamesFolder fontsVariable text) :
    c.withFontsVariable fontsVariable = c := by
  cases fontsVariable with
  | none => rfl
  | some text =>
      have hempty : text = [] := Classical.not_not.mp fun hne => h text ⟨rfl, hne⟩
      rw [withFontsVariable, hempty]
      rfl

/-- The folder of fonts is set already, so that it is named adds no key. -/
theorem keys_withFontsVariable (h : Entries.keys defaults ⊆ Entries.keys c)
    (fontsVariable : Option Text.CodePoints) :
    Entries.keys (c.withFontsVariable fontsVariable) = Entries.keys c := by
  by_cases hnames : ∃ text, NamesFolder fontsVariable text
  · obtain ⟨text, htext⟩ := hnames
    have hmem : ("fonts_dir" : Text.CodePoints) ∈ Entries.keys c := h (by decide)
    rw [withFontsVariable_of_names htext, set, Entries.keys_put, if_pos hmem]
  · rw [withFontsVariable_of_not_names (not_exists.mp hnames)]

/-- The environment's folder of fonts has no part in any other setting. -/
theorem get?_withFontsVariable {key : Text.CodePoints} (h : key ≠ ("fonts_dir" : Text.CodePoints))
    (c : Configuration) (fontsVariable : Option Text.CodePoints) :
    Entries.get? key (c.withFontsVariable fontsVariable) = Entries.get? key c := by
  by_cases hnames : ∃ text, NamesFolder fontsVariable text
  · obtain ⟨text, htext⟩ := hnames
    rw [withFontsVariable_of_names htext, set, Entries.get?_put, if_neg (Ne.symm h)]
  · rw [withFontsVariable_of_not_names (not_exists.mp hnames)]

/-- What a run gets: the keys that it starts from, its numbers brought to their kinds, the folder of
fonts that the environment names before any other, and all else as it starts. -/
structure Gets (fontsVariable : Option Text.CodePoints) (base c : Configuration) : Prop where
  keys : Entries.keys c = Entries.keys base
  numbers : ∀ e ∈ numericKeys, ∃ v, c.value? e.1 = some v ∧ e.2.Holds v ∧
    e.2.SettlesTo (defaults.valueOf e.1) (base.valueOf e.1) v
  named : ∀ text, NamesFolder fontsVariable text → c.value? "fonts_dir" = some (.text text)
  unnamed : (∀ text, ¬ NamesFolder fontsVariable text) →
    c.value? "fonts_dir" = base.value? "fonts_dir"
  others : ∀ key ∉ numericNames, key ≠ ("fonts_dir" : Text.CodePoints) →
    Entries.get? key c = Entries.get? key base

theorem gets_of_normalizes (h : Normalizes base d)
    (hbase : Entries.keys defaults ⊆ Entries.keys base) (fontsVariable : Option Text.CodePoints) :
    Gets fontsVariable base (d.withFontsVariable fontsVariable) where
  keys := by
    have hkeys := h.keys_eq hbase
    rw [keys_withFontsVariable (hkeys ▸ hbase), hkeys]
  numbers e he := by
    obtain ⟨v, hv, hsettled⟩ := h.settled e he
    have hfolder : ∀ e ∈ numericKeys,
        (e.1 : Text.CodePoints) ≠ ("fonts_dir" : Text.CodePoints) := by decide
    refine ⟨v, ?_, hsettled⟩
    rw [value?, get?_withFontsVariable (hfolder e he)]
    exact hv
  named text htext := by
    rw [withFontsVariable_of_names htext, value?_set, if_pos rfl]
  unnamed hnone := by
    rw [withFontsVariable_of_not_names hnone, value?, h.values _ (by decide), ← value?]
  others key hkey hne := by
    rw [get?_withFontsVariable hne, h.values key hkey]

/-- Settings are laid over the defaults all together or not at all, in a fixed order of precedence.
A configuration starts from the defaults with all that the file spells laid over them, or from the
defaults alone. It has the keys of what it starts from, the defaults' first and then the file's in
their order; each number is converted to its kind or the default of its key; the folder of fonts is
the one that the environment names; and every other setting is as it starts. -/
theorem load_startsFrom_gets {path : Option String} {fontsVariable : Option Text.CodePoints}
    (h : (load files fontsVariable path).result = .ok c) :
    ∃ base, StartsFrom files (settingsPath path) base ∧ Gets fontsVariable base c := by
  rw [result_load] at h
  obtain ⟨base, hbase, hrest⟩ := Fault.bind_eq_ok_iff.mp h
  obtain ⟨d, hd, hc⟩ := Fault.bind_eq_ok_iff.mp hrest
  have hstarts := startsFrom_of_overlaid hbase
  rw [← Except.ok.inj hc]
  exact ⟨base, hstarts,
    gets_of_normalizes (normalizes_of_coerceNumbers hd) hstarts.keys_subset fontsVariable⟩

/-- A settings file with a number as a text, a truth value for a number, a folder of fonts and a
setting of its own. -/
def labelFiles : Tree := { nodes := [(["zpl_to_svg.json"], .file (Text.utf8
  "\x7b\"note\": \"x\", \"dpi\": \"203\", \"jpeg_quality\": true, \"fonts_dir\": \"a\"\x7d"))] }

theorem load_startsFrom_gets_labelFiles : ∃ base c,
    (load labelFiles (some (Text.CodePoints.ofString "b")) none).result = .ok c ∧
      StartsFrom labelFiles (settingsPath none) base ∧ Entries.keys c = Entries.keys base ∧
      c.value? "fonts_dir" = some (.text (Text.CodePoints.ofString "b")) := by
  have hloads : (load labelFiles (some (Text.CodePoints.ofString "b")) none).result.isOk = true := by
    decide +kernel
  cases hload : (load labelFiles (some (Text.CodePoints.ofString "b")) none).result with
  | error fault =>
      rw [hload] at hloads
      cases hloads
  | ok c =>
      obtain ⟨base, hstarts, hgets⟩ := load_startsFrom_gets hload
      exact ⟨base, c, rfl, hstarts, hgets.keys, hgets.named _ ⟨rfl, by decide⟩⟩

end LabelPress.Settings.Configuration
