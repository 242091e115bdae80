import LabelPress.Proofs.Settings.Loading

/-!
# Numbers among settings

A value is converted to a number of a kind in a few ways, which are given one by one; what has none
of them, a truth value for one, gives way to the default. The numbers are written over the settings
all in a row. So every other setting stays where and what it is, what is missing comes last, and
settings whose numbers are of their kinds already are left alone.
-/

namespace LabelPress.Settings

open LabelPress.Number

/-- The ways in which a value is converted to a number of a kind. -/
inductive NumberKind.Converts : NumberKind → Value → Value → Prop
  | fractionalOfInteger {n : Int} {x : Binary64} (h : Binary64.ofInt n = .ok x) :
      Converts fractional (.int n) (.float x)
  | fractionalOfText {text : String} {x : Binary64} (h : floatOfText? text = some x) :
      Converts fractional (.text text) (.float x)
  | fractionalOfItself (x : Binary64) : Converts fractional (.float x) (.float x)
  | wholeOfFractional {x : Binary64} {n : Int} (h : x.truncate = .ok n) :
      Converts whole (.float x) (.int n)
  | wholeOfText {text : String} {n : Int} (h : integerOfText? text = some n) :
      Converts whole (.text text) (.int n)
  | wholeOfItself (n : Int) : Converts whole (.int n) (.int n)

/-- What a value of a setting is replaced by: the number that it is converted to, and the default if
it is a truth value or is converted to none. -/
structure NumberKind.SettlesTo (kind : NumberKind) (default v w : Value) : Prop where
  converted : ∀ u, kind.Converts v u → w = u
  otherwise : ((∃ b, v = .bool b) ∨ ∀ u, ¬ kind.Converts v u) → w = default

namespace NumberKind

variable {kind : NumberKind} {v w default : Value}

theorem coerce_eq_number_iff : kind.coerce v = .number w ↔ kind.Converts v w := by
  constructor
  · intro h
    cases kind with
    | fractional =>
        cases v with
        | int n =>
            simp only [coerce, toFractional] at h
            cases hx : Binary64.ofInt n with
            | error fault => rw [hx] at h; cases h
            | ok x => rw [hx] at h; cases h; exact .fractionalOfInteger hx
        | float x => cases h; exact .fractionalOfItself x
        | text s =>
            simp only [coerce, toFractional] at h
            cases hx : s.toString?.bind floatOfText? with
            | none => rw [hx] at h; cases h
            | some x =>
                rw [hx] at h
                cases h
                obtain ⟨text, hs, htext⟩ := Option.bind_eq_some_iff.mp hx
                rw [Text.CodePoints.toString?_eq_some_iff.mp hs]
                exact .fractionalOfText htext
        | _ => cases h
    | whole =>
        cases v with
        | int n => cases h; exact .wholeOfItself n
        | float x =>
            cases x with
            | nan | infinite negative => cases h
            | finite negative m e => cases h; exact .wholeOfFractional rfl
        | text s =>
            simp only [coerce, toWhole] at h
            cases hn : s.toString?.bind integerOfText? with
            | none => rw [hn] at h; cases h
            | some n =>
                rw [hn] at h
                cases h
                obtain ⟨text, hs, htext⟩ := Option.bind_eq_some_iff.mp hn
                rw [Text.CodePoints.toString?_eq_some_iff.mp hs]
                exact .wholeOfText htext
        | _ => cases h
  · intro h
    cases h with
    | fractionalOfInteger h => simp [coerce, toFractional, h, Coercion.ofResult, Except.map]
    | fractionalOfText h => simp [coerce, toFractional, h]
    | fractionalOfItself x => rfl
    | @wholeOfFractional x n h =>
        cases x with
        | nan | infinite negative => cases h
        | finite negative m e => cases h; rfl
    | wholeOfText h => simp [coerce, toWhole, h]
    | wholeOfItself n => rfl

theorem not_converts_bool (kind : NumberKind) (b : Bool) (w : Value) :
    ¬ kind.Converts (.bool b) w := nofun

theorem settlesTo_of_number (h : kind.coerce v = .number w) : kind.SettlesTo default v w where
  converted u hu := by
    rw [coerce_eq_number_iff.mpr hu] at h
    cases h
    rfl
  otherwise hnone := by
    have hw := coerce_eq_number_iff.mp h
    rcases hnone with ⟨b, rfl⟩ | hnone
    · exact absurd hw (not_converts_bool kind b w)
    · exact absurd hw (hnone w)

theorem settlesTo_of_unsuitable (h : kind.coerce v = .unsuitable) :
    kind.SettlesTo default v default where
  converted u hu := by
    rw [coerce_eq_number_iff.mpr hu] at h
    cases h
  otherwise _ := rfl

/-- A number of a kind is converted to itself. -/
theorem Holds.coerce_eq (h : kind.Holds v) : kind.coerce v = .number v := by
  cases kind <;> cases v <;> first | rfl | exact h.elim

end NumberKind

namespace Configuration

/-- The names of the numeric settings, in the order in which they are brought to their kinds. -/
def numericNames : List Text.CodePoints := numericKeys.map fun e => (e.1 : Text.CodePoints)

/-- Numbers for some settings of a configuration, one after the other: each is of its kind, and is
what the value of the setting is replaced by. -/
structure Brings (c : Configuration) (ks : List (String × NumberKind)) (numbers : Configuration) :
    Prop where
  keys : Entries.keys numbers = ks.map fun e => (e.1 : Text.CodePoints)
  settled : ∀ e ∈ ks, ∃ v, numbers.value? e.1 = some v ∧ e.2.Holds v ∧
    e.2.SettlesTo (defaults.valueOf e.1) (c.valueOf e.1) v

variable {c d numbers : Configuration} {ks : List (String × NumberKind)}

/-! ## Bringing settings to their kinds -/

theorem exists_set_of_coerceKey {key : String} {kind : NumberKind}
    (hkey : (key, kind) ∈ numericKeys) (h : (c.coerceKey key kind).result = .ok d) :
    ∃ v, kind.Holds v ∧ kind.SettlesTo (defaults.valueOf key) (c.valueOf key) v ∧
      d = c.set key v := by
  unfold coerceKey at h
  rcases kind.coerce_cases (c.valueOf key) with ⟨-, f, hf⟩ | ⟨-, hu | ⟨v, hv, hn⟩⟩
  · rw [hf] at h
    cases h
  · rw [hu] at h
    dsimp only at h
    split at h
    · exact ⟨_, holds_defaults hkey, NumberKind.settlesTo_of_unsuitable hu, (Except.ok.inj h).symm⟩
    · cases h
  · rw [hn] at h
    exact ⟨v, hv, NumberKind.settlesTo_of_number hn, (Except.ok.inj h).symm⟩

/-- A number for one setting goes before those for others, whose values it leaves. -/
theorem Brings.cons {key : String} {kind : NumberKind} {v : Value}
    (h : Brings (c.set key v) ks numbers) (hkey : key ∉ ks.map Prod.fst) (hv : kind.Holds v)
    (hs : kind.SettlesTo (defaults.valueOf key) (c.valueOf key) v) :
    Brings c ((key, kind) :: ks) ((key, v) :: numbers) where
  keys := congrArg (List.cons _) h.keys
  settled e he := by
    rcases List.mem_cons.mp he with rfl | he
    · exact ⟨v, by simp [value?], hv, hs⟩
    · obtain ⟨w, hw, hholds, hsettled⟩ := h.settled e he
      have hne : key ≠ e.1 := fun heq => hkey (List.mem_map.mpr ⟨e, he, heq.symm⟩)
      have hvalue : (c.set key v).valueOf e.1 = c.valueOf e.1 := by
        rw [valueOf, value?_set, if_neg hne, ← valueOf]
      refine ⟨w, ?_, hholds, hvalue ▸ hsettled⟩
      rw [value?, Entries.get?_cons, if_neg (mt Text.CodePoints.ofString_inj.mp hne)]
      exact hw

/-- Settings with distinct keys are brought to their kinds by numbers that are written over the
configuration in a row. -/
theorem exists_putAll_of_coerceKeys (hks : ∀ e ∈ ks, e ∈ numericKeys)
    (hn : (ks.map Prod.fst).Nodup) (h : (c.coerceKeys ks).result = .ok d) :
    ∃ numbers, Brings c ks numbers ∧ d = Entries.putAll c numbers := by
  induction ks generalizing c with
  | nil => exact ⟨[], ⟨rfl, nofun⟩, (Except.ok.inj h).symm⟩
  | cons e rest ih =>
      obtain ⟨key, kind⟩ := e
      obtain ⟨hkey, hrest⟩ := List.nodup_cons.mp hn
      rw [coerceKeys, Reported.result_andThen] at h
      obtain ⟨c', hc', hd⟩ := Fault.bind_eq_ok_iff.mp h
      obtain ⟨v, hv, hs, rfl⟩ := exists_set_of_coerceKey (hks _ List.mem_cons_self) hc'
      obtain ⟨numbers, hnumbers, rfl⟩ :=
        ih (fun e he => hks e (List.mem_cons_of_mem _ he)) hrest hd
      exact ⟨(key, v) :: numbers, hnumbers.cons hkey hv hs, rfl⟩

/-- Settings that are numbers of their kinds are left alone, and nothing is said of them. -/
theorem coerceKeys_of_holds (h : ∀ e ∈ ks, ∃ v, c.value? e.1 = some v ∧ e.2.Holds v) :
    c.coerceKeys ks = ⟨[], .ok c⟩ := by
  induction ks with
  | nil => rfl
  | cons e rest ih =>
      obtain ⟨key, kind⟩ := e
      obtain ⟨v, hv, hholds⟩ := h _ List.mem_cons_self
      have hvalue : c.valueOf key = v := by rw [valueOf, hv, Option.getD_some]
      have hkey : c.coerceKey key kind = ⟨[], .ok c⟩ := by
        rw [coerceKey, hvalue, hholds.coerce_eq]
        simp only [set, Entries.put_self hv]
      have hrest := ih fun e he => h e (List.mem_cons_of_mem _ he)
      simp only [coerceKeys, hkey, Reported.andThen, hrest, List.nil_append]

/-! ## All numeric settings -/

theorem nodup_numericNames : numericNames.Nodup := by decide

/-- What bringing the numeric settings to their kinds leaves: numbers of their kinds, the missing
ones at the end in their order, and all other entries as they were. -/
structure Normalizes (c d : Configuration) : Prop where
  keys : Entries.keys d = Entries.keys c ++ numericNames.filter fun k => k ∉ Entries.keys c
  settled : ∀ e ∈ numericKeys, ∃ v, d.value? e.1 = some v ∧ e.2.Holds v ∧
    e.2.SettlesTo (defaults.valueOf e.1) (c.valueOf e.1) v
  others : d.filter (fun e => e.1 ∉ numericNames) = c.filter fun e => e.1 ∉ numericNames
  values : ∀ key ∉ numericNames, Entries.get? key d = Entries.get? key c

theorem normalizes_of_coerceNumbers (h : c.coerceNumbers.result = .ok d) : Normalizes c d := by
  obtain ⟨numbers, hnumbers, rfl⟩ :=
    exists_putAll_of_coerceKeys (fun _ he => he) nodup_names_numericKeys h
  have hkeys : Entries.keys numbers = numericNames := hnumbers.keys
  have hnodup : (Entries.keys numbers).Nodup := hkeys ▸ nodup_numericNames
  refine ⟨?_, fun e he => ?_, ?_, fun key hkey => ?_⟩
  · rw [Entries.keys_putAll_of_nodup hnodup, hkeys]
    exact congrArg _ (List.filter_congr fun k _ => decide_eq_decide.mpr Iff.rfl)
  · obtain ⟨v, hv, hholds⟩ := hnumbers.settled e he
    refine ⟨v, ?_, hholds⟩
    rw [value?, Entries.get?_putAll hnodup]
    rw [value?] at hv
    rw [hv, Option.some_or]
  · apply Entries.filter_putAll (p := fun k => decide (k ∉ numericNames))
    intro key hkey
    rw [hkeys] at hkey
    simpa using hkey
  · exact Entries.get?_putAll_of_not_mem (hkeys ▸ hkey) c

/-- Bringing the numeric settings to their kinds makes each of them a number of its kind, adds the
missing ones at the end in their order, leaves every other entry and the order, and has nothing to
do or to say when it is done again. -/
theorem coerceNumbers_normalizes (h : c.coerceNumbers.result = .ok d) :
    (∀ e ∈ numericKeys, ∃ v, d.value? e.1 = some v ∧ e.2.Holds v ∧
      e.2.SettlesTo (defaults.valueOf e.1) (c.valueOf e.1) v) ∧
    Entries.keys d = Entries.keys c ++ (numericNames.filter fun k => k ∉ Entries.keys c) ∧
    (d.filter fun e => e.1 ∉ numericNames) = (c.filter fun e => e.1 ∉ numericNames) ∧
    d.coerceNumbers = ⟨[], .ok d⟩ := by
  have hd := normalizes_of_coerceNumbers h
  refine ⟨hd.settled, hd.keys, hd.others, coerceKeys_of_holds fun e he => ?_⟩
  obtain ⟨v, hv, hholds, -⟩ := hd.settled e he
  exact ⟨v, hv, hholds⟩

/-- Settings of many kinds, with two numeric ones missing. -/
def roughSettings : Configuration :=
  [("note", .null), ("dpi", .text "203"), ("width_inches", .bool true),
   ("jpeg_quality", .float (.ofRatio false 151 2)), ("tags", .list [.int 1])]

/-- The settings with their numbers of the right kinds. -/
def smoothSettings : Configuration :=
  [("note", .null), ("dpi", .int 203), ("width_inches", .float (.ofRatio false 4 1)),
   ("jpeg_quality", .int 75), ("tags", .list [.int 1]),
   ("height_inches", .float (.ofRatio false 6 1)), ("png_compress_level", .int 9)]

theorem coerceNumbers_normalizes_roughSettings :
    roughSettings.coerceNumbers.result = .ok smoothSettings ∧
      Entries.keys smoothSettings =
        Entries.keys roughSettings ++
          [("height_inches" : Text.CodePoints), ("png_compress_level" : Text.CodePoints)] ∧
      smoothSettings.coerceNumbers = ⟨[], .ok smoothSettings⟩ := by
  have h : roughSettings.coerceNumbers.result = .ok smoothSettings := by rfl
  obtain ⟨-, hkeys, -, hagain⟩ := coerceNumbers_normalizes h
  exact ⟨h, hkeys, hagain⟩

end Configuration

end LabelPress.Settings
