import LabelPress.Proofs.Files.NormalForm
import LabelPress.Proofs.Number.FloatRange
import LabelPress.Proofs.Settings.Json
import LabelPress.Settings.Configuration

/-!
# Loading a configuration

A file that is missing, cannot be read or spells no settings leaves the defaults, and so does a
value that is no number. What the conversion of numbers does not make up for is a number out of
range: an integer without a finite floating-point number, and an infinity where an integer is
wanted. The condition for a configuration is exact, and every configuration is complete.
-/

namespace LabelPress.Settings

open LabelPress.Number LabelPress.Files

/-! ## Kinds of numbers -/

/-- A value that is a number of the kind. A truth value is none. -/
def NumberKind.Holds : NumberKind → Value → Prop
  | fractional, .float _ => True
  | whole, .int _ => True
  | _, _ => False

/-- A value that is a number, but out of the range of the kind. -/
def NumberKind.Overflows : NumberKind → Value → Prop
  | fractional, .int n => Binary64.overflow ≤ (n.natAbs : ℚ)
  | whole, .float (.infinite _) => True
  | _, _ => False

theorem NumberKind.Holds.not_overflows {kind : NumberKind} {v : Value} (h : kind.Holds v) :
    ¬ kind.Overflows v := by
  intro ho
  cases kind <;> cases v <;> first | exact h | exact ho

/-- A value out of range is a fault. Any other one becomes a number of the kind or is unsuitable. -/
theorem NumberKind.coerce_cases (kind : NumberKind) (v : Value) :
    kind.Overflows v ∧ (∃ f, kind.coerce v = .fault f) ∨
      ¬ kind.Overflows v ∧
        (kind.coerce v = .unsuitable ∨ ∃ w, kind.Holds w ∧ kind.coerce v = .number w) := by
  cases kind with
  | fractional =>
      cases v with
      | int n =>
          rcases Binary64.ofInt_cases n with ⟨hn, herror⟩ | ⟨hn, x, hx, -, -⟩
          · refine Or.inl ⟨hn, .integerBeyondFloat, ?_⟩
            simp [coerce, toFractional, herror, Coercion.ofResult, Except.map]
          · refine Or.inr ⟨not_le.mpr hn, Or.inr ⟨.float x, trivial, ?_⟩⟩
            simp [coerce, toFractional, hx, Coercion.ofResult, Except.map]
      | float x => exact Or.inr ⟨id, Or.inr ⟨.float x, trivial, rfl⟩⟩
      | text s =>
          refine Or.inr ⟨id, ?_⟩
          simp only [coerce, toFractional]
          cases s.toString?.bind floatOfText? with
          | none => exact Or.inl rfl
          | some x => exact Or.inr ⟨.float x, trivial, rfl⟩
      | _ => exact Or.inr ⟨id, Or.inl rfl⟩
  | whole =>
      cases v with
      | int n => exact Or.inr ⟨id, Or.inr ⟨.int n, trivial, rfl⟩⟩
      | float x =>
          cases x with
          | nan => exact Or.inr ⟨id, Or.inl rfl⟩
          | infinite negative => exact Or.inl ⟨trivial, _, rfl⟩
          | finite negative m e => exact Or.inr ⟨id, Or.inr ⟨.int _, trivial, rfl⟩⟩
      | text s =>
          refine Or.inr ⟨id, ?_⟩
          simp only [coerce, toWhole]
          cases s.toString?.bind integerOfText? with
          | none => exact Or.inl rfl
          | some n => exact Or.inr ⟨.int n, trivial, rfl⟩
      | _ => exact Or.inr ⟨id, Or.inl rfl⟩

namespace Configuration

/-! ## Settings -/

theorem value?_set (c : Configuration) (key k : String) (v : Value) :
    (c.set key v).value? k = if key = k then some v else c.value? k := by
  simp only [value?, set, Entries.get?_put, Text.CodePoints.ofString_inj]

theorem keys_subset_set (c : Configuration) (key : String) (v : Value) :
    Entries.keys c ⊆ Entries.keys (c.set key v) := by
  rw [set, Entries.keys_put]
  split
  · exact List.Subset.refl _
  · exact List.subset_append_left _ _

/-- What holds of null and of all values holds of what a setting is. -/
theorem holds_valueOf {P : Value → Prop} {c : Configuration} (h : ∀ e ∈ c, P e.2) (hnull : P .null)
    (key : String) : P (c.valueOf key) := by
  rw [valueOf]
  cases hv : c.value? key with
  | none => exact hnull
  | some v => exact Entries.holds_of_get? h hv

theorem nodup_names_numericKeys : (numericKeys.map Prod.fst).Nodup := by decide +kernel

/-- Every numeric setting has a default of its kind. -/
theorem holds_defaults {key : String} {kind : NumberKind} (h : (key, kind) ∈ numericKeys) :
    kind.Holds (defaults.valueOf key) := by
  simp only [numericKeys, List.mem_cons, Prod.mk.injEq, List.not_mem_nil, or_false] at h
  rcases h with ⟨rfl, rfl⟩ | ⟨rfl, rfl⟩ | ⟨rfl, rfl⟩ | ⟨rfl, rfl⟩ | ⟨rfl, rfl⟩ <;> trivial

theorem isShowable_defaults : ∀ e ∈ defaults, e.2.isShowable = true := by decide +kernel

/-! ## Bringing settings to their kinds -/

/-- Bringing one setting that has a shown form to its kind fails exactly if it is out of range, and
otherwise sets it to a number of the kind. -/
theorem coerceKey_cases (c : Configuration) {key : String} {kind : NumberKind}
    (h : (key, kind) ∈ numericKeys) (hshow : (c.valueOf key).isShowable = true) :
    kind.Overflows (c.valueOf key) ∧ (∃ f, (c.coerceKey key kind).result = .error f) ∨
      ¬ kind.Overflows (c.valueOf key) ∧
        ∃ v, kind.Holds v ∧ (c.coerceKey key kind).result = .ok (c.set key v) := by
  unfold coerceKey
  rcases kind.coerce_cases (c.valueOf key) with ⟨ho, f, hf⟩ | ⟨ho, hu | ⟨v, hv, hn⟩⟩
  · exact Or.inl ⟨ho, f, by rw [hf]⟩
  · exact Or.inr ⟨ho, _, holds_defaults h, by simp only [hu, hshow, if_true]⟩
  · exact Or.inr ⟨ho, v, hv, by rw [hn]⟩

/-- A configuration in which some settings of another one became numbers of their kinds. -/
structure Brought (ks : List (String × NumberKind)) (c d : Configuration) : Prop where
  keys : Entries.keys c ⊆ Entries.keys d
  numbers : ∀ e ∈ ks, ∃ v, d.value? e.1 = some v ∧ e.2.Holds v
  others : ∀ key ∉ ks.map Prod.fst, d.value? key = c.value? key

/-- A number that was set first stays, since its key does not come again. -/
theorem Brought.cons {ks : List (String × NumberKind)} {c d : Configuration} {key : String}
    {kind : NumberKind} {v : Value} (h : Brought ks (c.set key v) d) (hv : kind.Holds v)
    (hkey : key ∉ ks.map Prod.fst) : Brought ((key, kind) :: ks) c d where
  keys := List.Subset.trans (keys_subset_set c key v) h.keys
  numbers e he := by
    rcases List.mem_cons.mp he with rfl | he
    · exact ⟨v, by rw [h.others _ hkey, value?_set, if_pos rfl], hv⟩
    · exact h.numbers e he
  others k hk := by
    obtain ⟨hne, hk⟩ := not_or.mp (mt List.mem_cons.mpr hk)
    rw [h.others k hk, value?_set, if_neg (Ne.symm hne)]

/-- Settings that have distinct keys and shown forms are brought to their kinds unless one of them
is out of range. -/
theorem coerceKeys_cases (c : Configuration) {ks : List (String × NumberKind)}
    (hks : ∀ e ∈ ks, e ∈ numericKeys) (hn : (ks.map Prod.fst).Nodup)
    (hshow : ∀ e ∈ ks, (c.valueOf e.1).isShowable = true) :
    (∃ e ∈ ks, e.2.Overflows (c.valueOf e.1)) ∧ (∃ f, (c.coerceKeys ks).result = .error f) ∨
      (∀ e ∈ ks, ¬ e.2.Overflows (c.valueOf e.1)) ∧
        ∃ d, (c.coerceKeys ks).result = .ok d ∧ Brought ks c d := by
  induction ks generalizing c with
  | nil => exact Or.inr ⟨by simp, c, rfl, List.Subset.refl _, by simp, fun _ _ => rfl⟩
  | cons e rest ih =>
      obtain ⟨key, kind⟩ := e
      obtain ⟨hkey, hrest⟩ := List.nodup_cons.mp hn
      rw [coerceKeys, Reported.result_andThen]
      have hshowKey : (c.valueOf key).isShowable = true := hshow (key, kind) List.mem_cons_self
      rcases coerceKey_cases c (hks _ List.mem_cons_self) hshowKey with
        ⟨ho, f, hf⟩ | ⟨ho, v, hv, hc⟩
      · refine Or.inl ⟨⟨_, List.mem_cons_self, ho⟩, f, ?_⟩
        rw [hf]
        rfl
      · have hothers : ∀ e ∈ rest, (c.set key v).valueOf e.1 = c.valueOf e.1 := by
          intro e he
          have hne : key ≠ e.1 := fun h => hkey (List.mem_map.mpr ⟨e, he, h.symm⟩)
          rw [valueOf, value?_set, if_neg hne, ← valueOf]
        have hshowRest : ∀ e ∈ rest, ((c.set key v).valueOf e.1).isShowable = true := by
          intro e he
          rw [hothers e he]
          exact hshow e (List.mem_cons_of_mem _ he)
        rw [hc]
        rcases ih (c.set key v) (fun e he => hks e (List.mem_cons_of_mem _ he)) hrest hshowRest with
          ⟨⟨e, he, hoe⟩, hfault⟩ | ⟨hnone, d, hd, hbrought⟩
        · exact Or.inl ⟨⟨e, List.mem_cons_of_mem _ he, hothers e he ▸ hoe⟩, hfault⟩
        · refine Or.inr ⟨?_, d, hd, hbrought.cons hv hkey⟩
          intro e he
          rcases List.mem_cons.mp he with rfl | he
          · exact ho
          · exact hothers e he ▸ hnone e he

/-- A configuration in which every setting that has a default is set, and the numeric ones are
numbers of their kinds. -/
structure Complete (c : Configuration) : Prop where
  keys : Entries.keys defaults ⊆ Entries.keys c
  numbers : ∀ e ∈ numericKeys, ∃ v, c.value? e.1 = some v ∧ e.2.Holds v

/-- The folder of fonts is no number. -/
theorem Complete.withFontsVariable {c : Configuration} (h : Complete c)
    (fontsVariable : Option Text.CodePoints) : Complete (c.withFontsVariable fontsVariable) := by
  have hset (text : Text.CodePoints) : Complete (c.set "fonts_dir" (.text text)) := by
    refine ⟨List.Subset.trans h.keys (keys_subset_set c _ _), fun e he => ?_⟩
    have hne : "fonts_dir" ≠ e.1 := fun heq => by
      simp only [numericKeys, List.mem_cons, List.not_mem_nil, or_false] at he
      rcases he with rfl | rfl | rfl | rfl | rfl <;> exact absurd heq (by decide)
    rw [value?_set, if_neg hne]
    exact h.numbers e he
  unfold Configuration.withFontsVariable
  split
  · split
    · exact h
    · exact hset _
  · exact h

/-- Settings that have shown forms, and of which none is missing, come to a configuration exactly if
none of the numeric ones is out of range, and it is complete. -/
theorem coerceNumbers_cases {c : Configuration} (h : Entries.keys defaults ⊆ Entries.keys c)
    (hshow : ∀ e ∈ c, e.2.isShowable = true) :
    (∃ e ∈ numericKeys, e.2.Overflows (c.valueOf e.1)) ∧
        (∃ f, c.coerceNumbers.result = .error f) ∨
      (∀ e ∈ numericKeys, ¬ e.2.Overflows (c.valueOf e.1)) ∧
        ∃ d, c.coerceNumbers.result = .ok d ∧ Complete d := by
  rcases coerceKeys_cases c (fun _ (he : _ ∈ numericKeys) => he) nodup_names_numericKeys
      (fun e _ => holds_valueOf (P := (Value.isShowable · = true)) hshow rfl e.1) with
    hfault | ⟨hnone, d, hd, hbrought⟩
  · exact Or.inl hfault
  · exact Or.inr ⟨hnone, d, hd, List.Subset.trans h hbrought.keys, hbrought.numbers⟩

/-! ## Files -/

/-- A path that is not too long to be asked about, and a file there that is not nested too deep to
be read. -/
structure Legible (files : Tree) (path : String) : Prop where
  asked : files.find path ≠ .tooLong
  shallow : ∀ bytes text kind, files.read path = .ok bytes → Text.ofUtf8 bytes = .ok text →
    Json.read (unixLines text.toList) ≠ .error (.tooDeep kind)

/-- Of what can be wrong with a text, only too much depth is not made up for. -/
theorem exists_ofText_eq_fatal_iff {text : List Char} :
    (∃ f, ofText text = .error (.fatal f)) ↔ ∃ kind, Json.read text = .error (.tooDeep kind) := by
  unfold ofText
  by_cases hmark : text.head? = some '\uFEFF'
  · obtain ⟨rest, rfl⟩ := List.head?_eq_some_iff.mp hmark
    rw [if_pos hmark, Json.read_byteOrderMark]
    exact ⟨nofun, nofun⟩
  · rw [if_neg hmark]
    cases Json.read text with
    | error failure => cases failure <;> simp
    | ok v => cases v <;> simp

/-- A path that can be asked about and leads to no file is legible. -/
theorem legible_of_not_file {files : Tree} {path : String} (hasked : files.find path ≠ .tooLong)
    (h : ∀ bytes, files.find path ≠ .node (.file bytes)) : Legible files path :=
  ⟨hasked, fun bytes _ _ hbytes => absurd (Tree.read_eq_ok_iff.mp hbytes) (h bytes)⟩

/-- A file is legible exactly if its text, should it be one, is not nested too deep. -/
theorem legible_iff_of_file {files : Tree} {path : String} {bytes : List UInt8}
    (h : files.find path = .node (.file bytes)) : Legible files path ↔
      ∀ text kind, Text.ofUtf8 bytes = .ok text →
        Json.read (unixLines text.toList) ≠ .error (.tooDeep kind) := by
  have hread := Tree.read_eq_ok_iff.mpr h
  constructor
  · intro hl text kind
    exact hl.shallow bytes text kind hread
  · intro hs
    refine ⟨by rw [h]; nofun, fun other text kind hother => ?_⟩
    rw [hread, Except.ok.injEq] at hother
    exact hother ▸ hs text kind

/-- Whatever else is wrong with a file, the defaults make up for it. -/
theorem exists_ofFile_eq_fatal_iff {files : Tree} {path : String} :
    (∃ f, ofFile files path = .error (.fatal f)) ↔ ¬ Legible files path := by
  cases hfind : files.find path with
  | tooLong =>
      have hnot : ¬ Legible files path := fun h => h.asked hfind
      simp [ofFile, Tree.probe, hfind, hnot]
  | node n =>
      cases n with
      | folder =>
          have hread : files.read path = .error (.isFolder path) := by rw [Tree.read, hfind]
          have hl : Legible files path :=
            legible_of_not_file (by rw [hfind]; nofun) (by rw [hfind]; nofun)
          simp [ofFile, Tree.probe, hfind, hread, hl]
      | file bytes =>
          rw [legible_iff_of_file hfind]
          simp only [ofFile, Tree.probe, hfind, Tree.read_eq_ok_iff.mpr hfind]
          cases Text.ofUtf8 bytes with
          | error damage => simp
          | ok text => simp [exists_ofText_eq_fatal_iff]
  | _ =>
      have hl : Legible files path :=
        legible_of_not_file (by rw [hfind]; nofun) (by rw [hfind]; nofun)
      simp [ofFile, Tree.probe, hfind, hl]

/-- A path leads to a file whose bytes are a text that spells an object of settings. -/
def Spells (files : Tree) (path : String) (user : Configuration) : Prop :=
  ∃ bytes text, files.read path = .ok bytes ∧ Text.ofUtf8 bytes = .ok text ∧
    Json.read (unixLines text.toList) = .ok (.object user)

theorem ofText_eq_ok_iff {text : List Char} {user : Configuration} :
    ofText text = .ok user ↔ Json.read text = .ok (.object user) := by
  unfold ofText
  by_cases hmark : text.head? = some '\uFEFF'
  · obtain ⟨rest, rfl⟩ := List.head?_eq_some_iff.mp hmark
    rw [if_pos hmark, Json.read_byteOrderMark]
    exact ⟨nofun, nofun⟩
  · rw [if_neg hmark]
    cases Json.read text with
    | error failure => cases failure <;> simp
    | ok v => cases v <;> simp

/-- The settings of a file are those that it spells. -/
theorem ofFile_eq_ok_iff {files : Tree} {path : String} {user : Configuration} :
    ofFile files path = .ok user ↔ Spells files path user := by
  rw [ofFile, Spells]
  cases hread : files.read path with
  | error fault =>
      simp only [reduceCtorEq, false_and, exists_const, iff_false]
      split <;> simp
  | ok bytes =>
      have hprobe : files.probe path = .ok (some (.file bytes)) := by
        rw [Tree.probe, Tree.read_eq_ok_iff.mp hread]
      rw [hprobe]
      cases hdecode : Text.ofUtf8 bytes with
      | error damage => simp [hdecode]
      | ok text => simp [hdecode, ofText_eq_ok_iff]

theorem nodup_keys_ofFile {files : Tree} {path : String} {user : Configuration}
    (h : ofFile files path = .ok user) : (Entries.keys user).Nodup := by
  obtain ⟨_, _, _, _, hread⟩ := ofFile_eq_ok_iff.mp h
  exact Json.nodup_keys_read hread

/-- The settings of a file and the defaults have shown forms, and so have both together. -/
theorem isShowable_of_overlaid {files : Tree} {path : String} {c : Configuration}
    (h : overlaid (ofFile files path) = .ok c) : ∀ e ∈ c, e.2.isShowable = true := by
  cases hfile : ofFile files path with
  | ok user =>
      obtain ⟨_, _, _, _, hread⟩ := ofFile_eq_ok_iff.mp hfile
      rw [hfile] at h
      cases h
      exact Entries.forall_mem_putAll (P := (Value.isShowable · = true)) isShowable_defaults
        (Value.haveShowable_iff.mp (Json.isShowable_of_read hread))
  | error fault =>
      rw [hfile] at h
      cases fault <;> cases h <;> exact isShowable_defaults

/-- A numeric setting that is out of range is one that the file gives. -/
theorem overflows_putAll_iff {user : Configuration} (h : (Entries.keys user).Nodup)
    {key : String} {kind : NumberKind} (hkey : (key, kind) ∈ numericKeys) :
    kind.Overflows (valueOf (defaults.putAll user) key) ↔
      ∃ v, user.value? key = some v ∧ kind.Overflows v := by
  have hdefault := (holds_defaults hkey).not_overflows
  rw [valueOf, value?, Entries.get?_putAll h]
  change kind.Overflows (((user.value? key).or (defaults.value? key)).getD .null) ↔ _
  cases hv : user.value? key with
  | none => exact ⟨fun ho => absurd ho hdefault, nofun⟩
  | some v => simp

/-! ## The configuration of a run -/

/-- Settings laid over the defaults hide none of them. -/
theorem keys_subset_putAll {user : Configuration} (h : (Entries.keys user).Nodup) :
    Entries.keys defaults ⊆ Entries.keys (defaults.putAll user) := by
  intro key hkey
  obtain ⟨v, hv⟩ := Entries.exists_get?_iff.mpr hkey
  rw [← Entries.get?_isSome_iff, Entries.get?_putAll h, hv]
  cases Entries.get? key user <;> rfl

/-- The path at which the settings are looked for. -/
def settingsPath (path : Option String) : String := (Path.ofText (path.getD defaultFile)).text

variable {files : Tree} {path : Option String} (fontsVariable : Option Text.CodePoints)

theorem result_load : (load files fontsVariable path).result =
    (overlaid (ofFile files (settingsPath path))).bind fun c =>
      c.coerceNumbers.result.bind fun c => .ok (c.withFontsVariable fontsVariable) := by
  rw [load, Reported.result_andThen]
  simp only [Reported.result_andThen, settingsPath]

/-- From settings that hide no default the load goes on to a complete configuration, unless a number
is out of range. -/
theorem exists_load_of_overlaid {c : Configuration}
    (hc : overlaid (ofFile files (settingsPath path)) = .ok c)
    (h : Entries.keys defaults ⊆ Entries.keys c) :
    ((∃ d, (load files fontsVariable path).result = .ok d) ↔
        ∀ e ∈ numericKeys, ¬ e.2.Overflows (c.valueOf e.1)) ∧
      ∀ d, (load files fontsVariable path).result = .ok d → Complete d := by
  rw [result_load, hc]
  rcases coerceNumbers_cases h (isShowable_of_overlaid hc) with
    ⟨⟨e, he, ho⟩, f, hf⟩ | ⟨hnone, d, hd, hcomplete⟩
  · simp only [Except.bind, hf]
    exact ⟨⟨nofun, fun hall => absurd ho (hall e he)⟩, nofun⟩
  · simp only [Except.bind, hd]
    refine ⟨⟨fun _ => hnone, fun _ => ⟨_, rfl⟩⟩, fun other hother => ?_⟩
    cases hother
    exact hcomplete.withFontsVariable fontsVariable

/-- A file with settings gives a configuration exactly if none of its numbers is out of range. -/
theorem exists_load_of_settings {user : Configuration}
    (hu : ofFile files (settingsPath path) = .ok user) :
    ((∃ c, (load files fontsVariable path).result = .ok c) ↔
        ∀ e ∈ numericKeys, ∀ v, user.value? e.1 = some v → ¬ e.2.Overflows v) ∧
      ∀ c, (load files fontsVariable path).result = .ok c → Complete c := by
  have hn := nodup_keys_ofFile hu
  have hc : overlaid (ofFile files (settingsPath path)) = .ok (defaults.putAll user) := by
    rw [hu]
    rfl
  obtain ⟨hiff, hcomplete⟩ := exists_load_of_overlaid fontsVariable hc (keys_subset_putAll hn)
  refine ⟨?_, hcomplete⟩
  rw [hiff]
  refine forall₂_congr fun e he => ?_
  rw [overflows_putAll_iff hn he]
  exact ⟨fun h v hv ho => h ⟨v, hv, ho⟩, fun h ⟨v, hv, ho⟩ => h v hv ho⟩

/-- Without settings the defaults are the configuration, unless the failure ends the work. -/
theorem exists_load_of_fault {fault : FileFault}
    (hu : ofFile files (settingsPath path) = .error fault) :
    ((∃ c, (load files fontsVariable path).result = .ok c) ↔ ¬ ∃ f, fault = .fatal f) ∧
      ∀ c, (load files fontsVariable path).result = .ok c → Complete c := by
  have hdefaults : ∀ e ∈ numericKeys, ¬ e.2.Overflows (defaults.valueOf e.1) :=
    fun e he => (holds_defaults he).not_overflows
  cases fault with
  | fatal f =>
      rw [result_load, hu]
      exact ⟨⟨nofun, fun h => absurd ⟨f, rfl⟩ h⟩, nofun⟩
  | _ =>
      have hc : overlaid (ofFile files (settingsPath path)) = .ok defaults := by
        rw [hu]
        rfl
      obtain ⟨hiff, hcomplete⟩ :=
        exists_load_of_overlaid fontsVariable hc (List.Subset.refl _)
      exact ⟨⟨fun _ => nofun, fun _ => hiff.mpr hdefaults⟩, hcomplete⟩

/-- A configuration is given exactly if the path can be asked about, the file is not nested too
deep, and no numeric setting that the file gives is out of the range of its kind. It is then
complete. -/
theorem exists_load_iff (files : Tree) (fontsVariable : Option Text.CodePoints)
    (path : Option String) :
    ((∃ c, (load files fontsVariable path).result = .ok c) ↔
        Legible files (settingsPath path) ∧
          ∀ user, ofFile files (settingsPath path) = .ok user →
            ∀ e ∈ numericKeys, ∀ v, user.value? e.1 = some v → ¬ e.2.Overflows v) ∧
      ∀ c, (load files fontsVariable path).result = .ok c → Complete c := by
  have hlegible := not_congr (@exists_ofFile_eq_fatal_iff files (settingsPath path))
  rw [not_not] at hlegible
  rw [← hlegible]
  cases hu : ofFile files (settingsPath path) with
  | ok user =>
      obtain ⟨hiff, hcomplete⟩ := exists_load_of_settings fontsVariable hu
      refine ⟨?_, hcomplete⟩
      rw [hiff]
      simp
  | error fault =>
      obtain ⟨hiff, hcomplete⟩ := exists_load_of_fault fontsVariable hu
      refine ⟨?_, hcomplete⟩
      rw [hiff]
      simp

/-- A settings file with an infinite number of dots to the inch. -/
def infiniteDpi : Tree :=
  { nodes := [(["zpl_to_svg.json"], .file (Text.utf8 "\x7b\"dpi\": Infinity\x7d"))] }

/-- An infinity, which a settings file can spell, is made up for nowhere. -/
theorem not_exists_load_infiniteDpi : ¬ ∃ c, (load infiniteDpi none none).result = .ok c := by
  have herror : (load infiniteDpi none none).result.isOk = false := by decide +kernel
  rintro ⟨c, hc⟩
  rw [hc] at herror
  cases herror

end Configuration

end LabelPress.Settings
