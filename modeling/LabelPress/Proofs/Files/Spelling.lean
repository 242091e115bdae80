import LabelPress.Proofs.Files.NormalForm

/-!
# Spellings of a path

A path is asked about by its normal form in some places and as it is spelled in others. The normal
form drops slashes and single dots, and what it leads to need not be what the spelling leads to: a
file is found by a spelling only if nothing stands after its name, and if the spelling is not too
long.
-/

namespace LabelPress.Files.Tree

variable {t : Tree} {bytes : List UInt8} {text : String}

/-- A text ends in a name, neither in a slash nor in a single dot. -/
def EndsInName (text : String) : Prop := ∀ s ∈ (segmentsOf text).getLast?, ¬ Stays s

instance (text : String) : Decidable (EndsInName text) :=
  inferInstanceAs (Decidable (∀ s ∈ (segmentsOf text).getLast?, ¬ Stays s))

/-- Something has to be followed to come to a file. -/
theorem ne_nil_of_follow {place segments : List String}
    (h : t.follow place (segments.filter fun s => ¬ Stays s) = .node (.file bytes)) :
    segments ≠ [] := by
  rintro rfl
  cases h

/-- A file that is the last part is not gone past. -/
theorem follow_past_file_ne {place : List String} {s : String} (hs : ¬ Stays s) (hup : s ≠ "..")
    (h : t.follow place [s] = .node (.file bytes)) {rest : List String} (hrest : rest ≠ []) :
    t.follow place (s :: rest) ≠ .node (.file bytes) := by
  intro hpast
  rcases exists_of_follow_name hs hup hpast with ⟨after, -, hstep⟩ | hnil
  · rw [hstep] at h
    cases h
  · exact hrest hnil

/-- Segments lead to the file to which those of them lead that do not stay, exactly if the last one
does not stay. -/
theorem follow_eq_file_iff_of_filter {place segments : List String}
    (h : t.follow place (segments.filter fun s => ¬ Stays s) = .node (.file bytes)) :
    t.follow place segments = .node (.file bytes) ↔ ∀ s ∈ segments.getLast?, ¬ Stays s := by
  induction segments generalizing place with
  | nil => cases h
  | cons s rest ih =>
      have hlast (hrest : rest ≠ []) : (s :: rest).getLast? = rest.getLast? := by
        rw [List.getLast?_cons, List.getLast?_eq_getLast_of_ne_nil hrest, Option.getD_some]
      rcases segment_cases s with hs | rfl | ⟨hs, hup⟩
      · rw [List.filter_cons_of_neg (by simpa using hs)] at h
        rw [follow_of_stays t place hs, ih h, hlast (ne_nil_of_follow h)]
      · rw [List.filter_cons_of_pos (by decide), follow_up] at h
        rw [follow_up, ih h, hlast (ne_nil_of_follow h)]
      · rw [List.filter_cons_of_pos (by simpa using hs)] at h
        rcases exists_of_follow_name hs hup h with ⟨after, hrest, hstep⟩ | hnone
        · rw [hstep, ih hrest, hlast (ne_nil_of_follow hrest)]
        · -- The file is the name itself, and all that stands after it stays.
          rw [hnone] at h
          by_cases hnil : rest = []
          · rw [hnil]
            exact ⟨fun _ => by simpa using hs, fun _ => h⟩
          · refine iff_of_false (follow_past_file_ne hs hup h hnil) fun hend => ?_
            rw [hlast hnil, List.getLast?_eq_getLast_of_ne_nil hnil] at hend
            have hstays := List.filter_eq_nil_iff.mp hnone _ (List.getLast_mem hnil)
            exact hend _ rfl (by simpa using hstays)

/-! ## Back from the normal form -/

/-- The normal form keeps the null character. -/
theorem null_mem_text_ofText (h : '\x00' ∈ text.toList) :
    '\x00' ∈ (Path.ofText text).text.toList := by
  have hjoined : ['/'].intercalate (text.toList.splitOn '/') = text.toList :=
    List.intercalate_splitOn '/'
  rw [← hjoined] at h
  obtain ⟨part, hpart, hnull⟩ := exists_mem_of_mem_intercalate h (by decide)
  have hkeep : part ∈ keptParts text.toList := by
    refine List.mem_filter.mpr ⟨hpart, ?_⟩
    have hne : part ≠ [] := List.ne_nil_of_mem hnull
    have hdot : part ≠ ['.'] := by
      rintro rfl
      exact absurd hnull (by decide)
    simp [hne, hdot]
  rw [← Path.map_toList_names_ofText] at hkeep
  have hnames : ¬ ((Path.ofText text).root = .working ∧ (Path.ofText text).names = []) := by
    rintro ⟨-, hnil⟩
    rw [hnil] at hkeep
    cases hkeep
  have hsub := intercalate_sublist ['/'] (List.singleton_sublist.mpr hkeep)
  rw [List.intercalate_singleton] at hsub
  rw [Path.toList_text hnames]
  exact List.mem_append_right _ (hsub.subset hnull)

/-- What the normal form of a text leads to is found by the text itself, exactly if the text ends in
a name and is not too long. -/
theorem find_eq_file_iff_of_ofText
    (h : t.find (Path.ofText text).text = .node (.file bytes)) :
    t.find text = .node (.file bytes) ↔ text.utf8ByteSize ≤ pathLimit ∧ EndsInName text := by
  obtain ⟨hnull, -, hfollow⟩ := find_eq_file_iff.mp h
  replace hnull : '\x00' ∉ text.toList := mt null_mem_text_ofText hnull
  rw [start_text_ofText, follow_segmentsOf_text (Path.plain_ofText text), names_ofText] at hfollow
  rw [find_eq_file_iff, follow_eq_file_iff_of_filter hfollow, EndsInName]
  exact and_iff_right hnull

end LabelPress.Files.Tree
