import LabelPress.Text.Blank
import LabelPress.Text.Digit
import LabelPress.Text.Word
import Mathlib.Data.List.DropRight
import Mathlib.Data.List.TakeWhile

/-!
# Runs of characters

Texts are read by taking maximal runs of one class of characters. A run is a division of the text
that is said without the functions that find it, and a trimmed text is one between two runs of
blanks. The classes that readers look for do not overlap with the blanks.
-/

namespace LabelPress.Text

/-- The characters of a class that a text starts with, as many as there are, and the rest of it. -/
structure Run (p : Char → Bool) (cs run rest : List Char) : Prop where
  eq_append : cs = run ++ rest
  all : ∀ c ∈ run, p c = true
  stops : ∀ c ∈ rest.head?, p c = false

theorem takeWhile_eq_nil_of_head {p : Char → Bool} {cs : List Char}
    (h : ∀ c ∈ cs.head?, p c = false) : cs.takeWhile p = [] := by
  cases cs with
  | nil => rfl
  | cons c rest => simp [h c rfl]

theorem dropWhile_eq_self_of_head {p : Char → Bool} {cs : List Char}
    (h : ∀ c ∈ cs.head?, p c = false) : cs.dropWhile p = cs := by
  cases cs with
  | nil => rfl
  | cons c rest => simp [h c rfl]

theorem head_dropWhile {p : Char → Bool} {cs : List Char} :
    ∀ c ∈ (cs.dropWhile p).head?, p c = false := by
  intro c hc
  have h := List.head?_dropWhile_not p cs
  rw [Option.mem_def.mp hc] at h
  exact h

/-- A text has one run of a class at its start. -/
theorem run_iff {p : Char → Bool} {cs run rest : List Char} :
    Run p cs run rest ↔ cs.takeWhile p = run ∧ cs.dropWhile p = rest := by
  constructor
  · rintro ⟨rfl, hall, hstops⟩
    rw [List.takeWhile_append_of_pos hall, List.dropWhile_append_of_pos hall,
      takeWhile_eq_nil_of_head hstops, dropWhile_eq_self_of_head hstops, List.append_nil]
    exact ⟨rfl, rfl⟩
  · rintro ⟨rfl, rfl⟩
    exact ⟨List.takeWhile_append_dropWhile.symm, fun c hc => List.mem_takeWhile_imp hc,
      head_dropWhile⟩

/-! ## Blanks -/

/-- Blanks only, or nothing. -/
def Blanks (cs : List Char) : Prop := ∀ c ∈ cs, isBlank c = true

instance (cs : List Char) : Decidable (Blanks cs) :=
  decidable_of_iff (cs.all isBlank = true) List.all_eq_true

theorem blanks_nil : Blanks [] := fun _ h => nomatch h

theorem blanks_append {s t : List Char} : Blanks (s ++ t) ↔ Blanks s ∧ Blanks t :=
  List.forall_mem_append

theorem Blanks.dropWhile_eq_nil {s : List Char} (h : Blanks s) : s.dropWhile isBlank = [] :=
  List.dropWhile_eq_nil_iff.mpr h

/-- Blanks before a text that starts with none are all that is dropped. -/
theorem Blanks.dropWhile_append {s cs : List Char} (h : Blanks s)
    (hcs : ∀ c ∈ cs.head?, isBlank c = false) : (s ++ cs).dropWhile isBlank = cs :=
  (run_iff.mp ⟨rfl, h, hcs⟩).2

/-- Blanks after a text stay where they are, unless all of it is dropped. -/
theorem dropWhile_append_blanks (cs : List Char) {w : List Char} (hw : Blanks w) :
    (cs ++ w).dropWhile isBlank =
      if cs.dropWhile isBlank = [] then [] else cs.dropWhile isBlank ++ w := by
  simp only [List.dropWhile_append, List.isEmpty_iff, hw.dropWhile_eq_nil]

/-! ## Trimmed texts -/

/-- A text without the blanks around it: what is left neither starts nor ends with a blank. -/
structure Trimmed (cs text : List Char) : Prop where
  surrounded : ∃ s t, Blanks s ∧ Blanks t ∧ cs = s ++ text ++ t
  head : ∀ c ∈ text.head?, isBlank c = false
  last : ∀ c ∈ text.getLast?, isBlank c = false

theorem dropEndWhile_append {p : Char → Bool} {cs t : List Char} (ht : ∀ c ∈ t, p c = true)
    (hcs : ∀ c ∈ cs.getLast?, p c = false) : dropEndWhile p (cs ++ t) = cs := by
  have hrev : Run p (cs ++ t).reverse t.reverse cs.reverse :=
    ⟨List.reverse_append, fun c hc => ht c (List.mem_reverse.mp hc), by simpa using hcs⟩
  rw [dropEndWhile, (run_iff.mp hrev).2, List.reverse_reverse]

theorem trim_blanks {s : List Char} (h : Blanks s) : trim s = [] := by
  rw [trim, trimWhile, h.dropWhile_eq_nil]
  rfl

theorem trimmed_trim (cs : List Char) : Trimmed cs (trim cs) := by
  let middle := cs.dropWhile isBlank
  have hmiddle : trim cs ++ middle.rtakeWhile isBlank = middle :=
    List.rdropWhile_append_rtakeWhile
  refine ⟨⟨cs.takeWhile isBlank, middle.rtakeWhile isBlank,
    fun c hc => List.mem_takeWhile_imp hc, fun c hc => List.mem_rtakeWhile_imp hc, ?_⟩, ?_, ?_⟩
  · rw [List.append_assoc, hmiddle, List.takeWhile_append_dropWhile]
  · intro c hc
    have hstart : ∀ c ∈ middle.head?, isBlank c = false := head_dropWhile
    apply hstart c
    rw [Option.mem_def, List.head?_eq_some_iff] at hc ⊢
    obtain ⟨rest, hrest⟩ := hc
    exact ⟨rest ++ middle.rtakeWhile isBlank, by rw [← List.cons_append, ← hrest, hmiddle]⟩
  · intro c hc
    rw [trim, trimWhile, dropEndWhile, List.getLast?_reverse] at hc
    exact head_dropWhile c hc

/-- Every text has one trimmed form. -/
theorem trim_eq_iff {cs text : List Char} : trim cs = text ↔ Trimmed cs text := by
  constructor
  · rintro rfl
    exact trimmed_trim cs
  · rintro ⟨⟨s, t, hs, ht, rfl⟩, hhead, hlast⟩
    cases text with
    | nil => exact trim_blanks (blanks_append.mpr ⟨blanks_append.mpr ⟨hs, blanks_nil⟩, ht⟩)
    | cons c text =>
        have hdrop : (s ++ (c :: text ++ t)).dropWhile isBlank = c :: text ++ t :=
          hs.dropWhile_append hhead
        rw [trim, trimWhile, List.append_assoc, hdrop, dropEndWhile_append ht hlast]

/-- Blanks at its end do not matter to a text that is trimmed. -/
theorem trim_append_blanks (cs : List Char) {w : List Char} (hw : Blanks w) :
    trim (cs ++ w) = trim cs := by
  obtain ⟨⟨s, t, hs, ht, hcs⟩, hhead, hlast⟩ := trimmed_trim cs
  refine trim_eq_iff.mpr ⟨⟨s, t ++ w, hs, blanks_append.mpr ⟨ht, hw⟩, ?_⟩, hhead, hlast⟩
  rw [← List.append_assoc, ← hcs]

/-! ## Pieces -/

/-- No piece of a text that is split holds what it is split at. -/
theorem not_mem_of_mem_splitOn {x : Char} {cs piece : List Char} (h : piece ∈ cs.splitOn x) :
    x ∉ piece := by
  induction cs generalizing piece with
  | nil =>
      rw [List.splitOn_nil, List.mem_singleton] at h
      rw [h]
      exact List.not_mem_nil
  | cons c rest ih =>
      rw [List.splitOn_cons_eq_if_modifyHead] at h
      by_cases hc : c = x
      · rw [if_pos (beq_iff_eq.mpr hc), List.mem_cons] at h
        rcases h with rfl | h
        · exact List.not_mem_nil
        · exact ih h
      · rw [if_neg (mt beq_iff_eq.mp hc)] at h
        cases hrest : rest.splitOn x with
        | nil => exact absurd hrest (List.splitOn_ne_nil x rest)
        | cons first others =>
            rw [hrest, List.modifyHead_cons, List.mem_cons] at h
            rcases h with rfl | h
            · have hfirst : x ∉ first := ih (hrest ▸ List.mem_cons_self)
              simp [hfirst, Ne.symm hc]
            · exact ih (hrest ▸ List.mem_cons_of_mem first h)

/-- A piece of a text that is split has the characters of the text only. -/
theorem subset_of_mem_splitOn {x : Char} {cs piece : List Char} (h : piece ∈ cs.splitOn x) :
    piece ⊆ cs := by
  induction cs generalizing piece with
  | nil =>
      rw [List.splitOn_nil, List.mem_singleton] at h
      rw [h]
      exact List.nil_subset _
  | cons c rest ih =>
      rw [List.splitOn_cons_eq_if_modifyHead] at h
      split at h
      · rcases List.mem_cons.mp h with rfl | h
        · exact List.nil_subset _
        · exact List.subset_cons_of_subset c (ih h)
      · cases hrest : rest.splitOn x with
        | nil => exact absurd hrest (List.splitOn_ne_nil x rest)
        | cons first others =>
            rw [hrest, List.modifyHead_cons, List.mem_cons] at h
            rcases h with rfl | h
            · exact List.cons_subset_cons c (ih (hrest ▸ List.mem_cons_self))
            · exact List.subset_cons_of_subset c (ih (hrest ▸ List.mem_cons_of_mem first h))

/-! ## Classes -/

/-- Whether no span of one list meets one of another. -/
def spansApart (xs ys : List Span) : Bool :=
  xs.all fun s => ys.all fun t => s.2 < t.1 || t.2 < s.1

theorem inSpans_eq_false_of_apart {xs ys : List Span} (h : spansApart xs ys = true) {n : Nat}
    (hn : inSpans xs n = true) : inSpans ys n = false := by
  obtain ⟨s, hs, hs₁, hs₂⟩ := inSpans_eq_true_iff.mp hn
  rw [Bool.eq_false_iff, ne_eq, inSpans_eq_true_iff]
  rintro ⟨t, ht, ht₁, ht₂⟩
  have hst := List.all_eq_true.mp (List.all_eq_true.mp h s hs) t ht
  simp only [Bool.or_eq_true, decide_eq_true_eq] at hst
  omega

/-- The spans of decimal digits, one for each script. -/
def digitSpans : List Span := decimalZeros.map fun z => (z, z + 9)

theorem isDigit_eq_inSpans (c : Char) : isDigit c = inSpans digitSpans c.toNat := by
  rw [isDigit, digitValue?, Option.isSome_map, inSpans, digitSpans, List.any_map,
    Bool.eq_iff_iff, List.find?_isSome, List.any_eq_true]
  rfl

theorem isDigit_of_isBlank {c : Char} (h : isBlank c = true) : isDigit c = false := by
  rw [isDigit_eq_inSpans]
  exact inSpans_eq_false_of_apart (by decide +kernel : spansApart blankSpans digitSpans = true) h

theorem isWordChar_of_isBlank {c : Char} (h : isBlank c = true) : isWordChar c = false :=
  inSpans_eq_false_of_apart (by decide +kernel : spansApart blankSpans wordSpans = true) h

theorem isBlank_of_isDigit {c : Char} (h : isDigit c = true) : isBlank c = false := by
  by_contra hc
  rw [isDigit_of_isBlank (Bool.not_eq_false _ ▸ hc)] at h
  cases h

theorem isBlank_of_isWordChar {c : Char} (h : isWordChar c = true) : isBlank c = false := by
  by_contra hc
  rw [isWordChar_of_isBlank (Bool.not_eq_false _ ▸ hc)] at h
  cases h

end LabelPress.Text
