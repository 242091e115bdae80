import LabelPress.Proofs.Settings.Coercion

/-!
# Loaded settings can be shown

The report on a loaded configuration shows all of it. No numeral of a settings file has more digits
than may be written, a fractional number that was read is in range, so its whole part is short, and
a text stands for a whole number only within the limit of digits.
-/

namespace LabelPress

namespace Number

/-- A magnitude in the range of the fractional numbers has few digits. -/
theorem isWritable_of_lt_overflow {n : Int} (h : (n.natAbs : ℚ) < Binary64.overflow) :
    isWritable n = true := by
  have hlt : n.natAbs < 2 ^ 1024 := by exact_mod_cast h.trans_le Binary64.overflow_le
  have hpower {k limit : Nat} (hk : k ≤ limit) : 2 ^ k ≤ Nat.pow 10 limit :=
    (Nat.pow_le_pow_left (by decide) k).trans (Nat.pow_le_pow_right (by decide) hk)
  exact decide_eq_true (hlt.trans_le (hpower (by decide)))

theorem isWritable_of_truncate {x : Binary64} (hx : x.InRange) {n : Int}
    (h : x.truncate = .ok n) : isWritable n = true := by
  cases x with
  | nan | infinite s => cases h
  | finite s m e => exact isWritable_of_lt_overflow ((hx s m e rfl).truncate_lt h)

/-- A text stands for a whole number only within the limit of digits. -/
theorem isWritable_of_integerOfText? {text : String} {n : Int} (h : integerOfText? text = some n) :
    isWritable n = true := by
  obtain ⟨digits, -, hread⟩ := Option.bind_eq_some_iff.mp h
  split at hread
  · cases hread
  · rw [readNumeral] at hread
    by_cases hlong : Fault.digitLimit < digits.length
    · rw [if_pos hlong] at hread
      cases hread
    · rw [if_neg hlong] at hread
      cases hread
      exact isWritable_numeralValue (Nat.le_of_not_lt hlong) _

theorem inRange_ofDecimal (negative : Bool) (digits : Nat) (exponent : Int) :
    (Binary64.ofDecimal negative digits exponent).InRange := by
  rw [Binary64.ofDecimal]
  split
  · exact Binary64.inRange_zero negative
  · split
    · exact Binary64.inRange_infinite negative
    · exact Binary64.inRange_ofRatio _ _ (Nat.pow_pos (by decide))

end Number

namespace Settings

open LabelPress.Number LabelPress.Files

/-! ## What is read -/

/-- A value that is a fractional number is one in range. -/
def Value.InRange (v : Value) : Prop := ∀ x, v = .float x → x.InRange

namespace Json

theorem inRange_of_number {cs rest : List Char} {v : Value}
    (h : number cs = .ok (v, rest)) : v.InRange := by
  unfold number at h
  split at h
  next negative unsigned _ =>
  dsimp only at h
  split at h
  · cases h
  · split at h
    · cases h
      rintro x ⟨⟩
      exact inRange_ofDecimal _ _ _
    · split at h
      · cases h
        rintro x ⟨⟩
        exact inRange_ofDecimal _ _ _
      · split at h
        · cases h
        · cases h
          exact nofun

/-- Only a number or a constant is read as a fractional number. -/
theorem inRange_of_value {fuel left : Nat} {cs rest : List Char} {v : Value}
    (h : value fuel left cs = .ok (v, rest)) : v.InRange := by
  have hconstants : ∀ c ∈ constants, c.2.InRange := by
    simp [constants, Value.InRange, Binary64.inRange_nan, Binary64.inRange_infinite]
  cases readAs_of_value h with
  | constant word hword => exact hconstants _ hword
  | number hnumber => exact inRange_of_number hnumber
  | _ =>
      intro x hx
      cases hx

/-- The values of an object that a text spells are in range. -/
theorem inRange_of_read {text : List Char} {es : Entries Text.CodePoints Value}
    (h : read text = .ok (.object es)) : ∀ e ∈ es, e.2.InRange :=
  object_induction (P := fun es => ∀ e ∈ es, e.2.InRange) (List.forall_mem_nil _)
    (fun hv _ key hes =>
      Entries.forall_mem_put (P := Value.InRange) hes (inRange_of_value hv) key) h

end Json

/-! ## What it is converted to -/

namespace NumberKind

variable {kind : NumberKind} {default v w : Value}

theorem Converts.isShowable (h : kind.Converts v w) (hrange : v.InRange)
    (hshow : v.isShowable = true) : w.isShowable = true := by
  cases h with
  | fractionalOfInteger | fractionalOfText | fractionalOfItself => rfl
  | wholeOfFractional htruncate => exact isWritable_of_truncate (hrange _ rfl) htruncate
  | wholeOfText htext => exact isWritable_of_integerOfText? htext
  | wholeOfItself => exact hshow

theorem SettlesTo.isShowable (h : kind.SettlesTo default v w)
    (hdefault : default.isShowable = true) (hrange : v.InRange) (hshow : v.isShowable = true) :
    w.isShowable = true := by
  by_cases hconverts : ∃ u, kind.Converts v u
  · obtain ⟨u, hu⟩ := hconverts
    rw [h.converted u hu]
    exact hu.isShowable hrange hshow
  · rw [h.otherwise (Or.inr (not_exists.mp hconverts))]
    exact hdefault

end NumberKind

namespace Configuration

variable {files : Tree} {path : String} {c d numbers : Configuration}

theorem inRange_of_overlaid (h : overlaid (ofFile files path) = .ok c) :
    ∀ e ∈ c, e.2.InRange := by
  have hdefaults : ∀ e ∈ defaults, e.2.InRange := by
    have hfloat (n : Nat) : (Value.float (.ofRatio false n 1)).InRange := by
      rintro x ⟨⟩
      exact Binary64.inRange_ofRatio false n (by decide)
    simp only [defaults, List.forall_mem_cons, List.not_mem_nil, false_implies, implies_true]
    exact ⟨hfloat 4, hfloat 6, nofun, nofun, nofun, nofun, nofun, nofun, nofun, trivial⟩
  cases hfile : ofFile files path with
  | ok user =>
      obtain ⟨_, _, _, _, hread⟩ := ofFile_eq_ok_iff.mp hfile
      rw [hfile] at h
      cases h
      exact Entries.forall_mem_putAll (P := Value.InRange) hdefaults (Json.inRange_of_read hread)
  | error fault =>
      rw [hfile] at h
      cases fault <;> cases h <;> exact hdefaults

/-- The numbers that settings are brought to can be shown. -/
theorem Brings.isShowable (h : Brings c numericKeys numbers) (hrange : ∀ e ∈ c, e.2.InRange)
    (hshow : ∀ e ∈ c, e.2.isShowable = true) : ∀ e ∈ numbers, e.2.isShowable = true := by
  have hnodup : (Entries.keys numbers).Nodup := h.keys ▸ nodup_numericNames
  rintro ⟨name, v⟩ he
  have hname : name ∈ Entries.keys numbers := List.mem_map_of_mem he
  rw [h.keys] at hname
  obtain ⟨⟨key, kind⟩, hkey, rfl⟩ := List.mem_map.mp hname
  obtain ⟨w, hw, -, hsettled⟩ := h.settled _ hkey
  obtain rfl : v = w := Option.some.inj (((Entries.mem_iff_get? hnodup).mp he).symm.trans hw)
  have hvalueOf {c : Configuration} (hc : ∀ e ∈ c, e.2.isShowable = true) :=
    holds_valueOf (P := (Value.isShowable · = true)) hc rfl key
  exact hsettled.isShowable (hvalueOf isShowable_defaults) (holds_valueOf hrange nofun key)
    (hvalueOf hshow)

theorem isShowable_withFontsVariable (h : ∀ e ∈ c, e.2.isShowable = true)
    (fontsVariable : Option Text.CodePoints) :
    ∀ e ∈ c.withFontsVariable fontsVariable, e.2.isShowable = true := by
  unfold withFontsVariable
  split
  · split
    · exact h
    · exact Entries.forall_mem_put (P := (Value.isShowable · = true)) h rfl _
  · exact h

/-- The configuration of a run has a shown form, which its report gives. -/
theorem isShowable_of_load {fontsVariable : Option Text.CodePoints} {path : Option String}
    (h : (load files fontsVariable path).result = .ok c) : (Value.object c).isShowable = true := by
  rw [result_load] at h
  obtain ⟨base, hbase, hrest⟩ := Fault.bind_eq_ok_iff.mp h
  obtain ⟨d, hd, hc⟩ := Fault.bind_eq_ok_iff.mp hrest
  obtain ⟨numbers, hnumbers, rfl⟩ :=
    exists_putAll_of_coerceKeys (fun _ he => he) nodup_names_numericKeys hd
  have hshow := isShowable_of_overlaid hbase
  have hbrought := Entries.forall_mem_putAll (P := (Value.isShowable · = true)) hshow
    (hnumbers.isShowable (inRange_of_overlaid hbase) hshow)
  rw [← Except.ok.inj hc]
  exact Value.haveShowable_iff.mpr (isShowable_withFontsVariable hbrought fontsVariable)

end Configuration

end Settings

end LabelPress
