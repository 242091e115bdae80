import LabelPress.Files.Tree
import LabelPress.Proofs.Text.Runs
import Mathlib.Data.String.Basic

/-!
# Normal forms of paths

The normal form of a text that leads to a file leads to the same file. What it leaves out are parts
that stay where they are, and slashes in front beyond the ones that it starts with, so the text gets
shorter and its other parts are followed as before.
-/

namespace LabelPress.Files

namespace Tree

variable {t : Tree} {bytes : List UInt8}

/-- A segment that stays where it is. -/
def Stays (s : String) : Prop := s = "" ∨ s = "."

instance (s : String) : Decidable (Stays s) := inferInstanceAs (Decidable (_ ∨ _))

/-- A segment stays, leads up or is a name. -/
theorem segment_cases (s : String) : Stays s ∨ s = ".." ∨ ¬ Stays s ∧ s ≠ ".." := by
  by_cases hs : Stays s
  · exact Or.inl hs
  · by_cases hup : s = ".."
    · exact Or.inr (Or.inl hup)
    · exact Or.inr (Or.inr ⟨hs, hup⟩)

theorem follow_of_stays (t : Tree) (place : List String) {s : String} (h : Stays s)
    (rest : List String) : t.follow place (s :: rest) = t.follow place rest := by
  rw [follow.eq_def]
  exact if_pos h

theorem follow_up (t : Tree) (place rest : List String) :
    t.follow place (".." :: rest) = t.follow place.dropLast rest := by
  rw [follow.eq_def]
  rfl

theorem follow_name (t : Tree) (place : List String) {s : String} (hs : ¬ Stays s)
    (hup : s ≠ "..") (rest : List String) : t.follow place (s :: rest) =
      if nameLimit < s.utf8ByteSize then .tooLong
      else match t.node? (place ++ [s]) with
        | none => if rest.isEmpty then .vacant else .missing
        | some .folder => t.follow (place ++ [s]) rest
        | some (.file bytes) => if rest.isEmpty then .node (.file bytes) else .blocked := by
  rw [follow.eq_def]
  exact (if_neg hs).trans (if_neg hup)

/-- A name on the way to a file leads to a folder to go on from, or is the last part. -/
theorem exists_of_follow_name {place rest : List String} {s : String} (hs : ¬ Stays s)
    (hup : s ≠ "..") (h : t.follow place (s :: rest) = .node (.file bytes)) :
    (∃ after, t.follow after rest = .node (.file bytes) ∧
      ∀ others, t.follow place (s :: others) = t.follow after others) ∨ rest = [] := by
  have hstep := follow_name t place hs hup
  rw [hstep] at h
  by_cases hlong : nameLimit < s.utf8ByteSize
  · rw [if_pos hlong] at h
    cases h
  · simp only [if_neg hlong] at h hstep
    cases hnode : t.node? (place ++ [s]) with
    | none =>
        simp only [hnode] at h
        split at h <;> cases h
    | some node =>
        cases node with
        | folder =>
            simp only [hnode] at h hstep
            exact Or.inl ⟨_, h, hstep⟩
        | file found =>
            simp only [hnode] at h
            cases rest with
            | nil => exact Or.inr rfl
            | cons r rest => cases h

/-- Segments that stay where they are can be left out on the way to a file. -/
theorem follow_filter {place segments : List String}
    (h : t.follow place segments = .node (.file bytes)) :
    t.follow place (segments.filter fun s => ¬ Stays s) = .node (.file bytes) := by
  induction segments generalizing place with
  | nil => exact h
  | cons s rest ih =>
      rcases segment_cases s with hs | rfl | ⟨hs, hup⟩
      · rw [follow_of_stays t place hs] at h
        rw [List.filter_cons_of_neg (by simpa using hs)]
        exact ih h
      · rw [follow_up] at h
        rw [List.filter_cons_of_pos (by decide), follow_up]
        exact ih h
      · rw [List.filter_cons_of_pos (by simpa using hs)]
        rcases exists_of_follow_name hs hup h with ⟨after, hrest, hstep⟩ | rfl
        · rw [hstep]
          exact ih hrest
        · exact h

end Tree

/-! ## Texts -/

/-- Leaving out parts shortens what they are joined to. -/
theorem intercalate_sublist {α : Type} (sep : List α) {xs ys : List (List α)} (h : xs.Sublist ys) :
    (sep.intercalate xs).Sublist (sep.intercalate ys) := by
  have htail (y : List α) (ys : List (List α)) :
      (sep.intercalate ys).Sublist (sep.intercalate (y :: ys)) := by
    cases ys with
    | nil => exact List.nil_sublist _
    | cons z zs =>
        rw [List.intercalate_cons_cons]
        exact List.sublist_append_right _ _
  induction h with
  | slnil => exact List.Sublist.refl _
  | @cons xs ys y h ih => exact ih.trans (htail y ys)
  | @cons_cons xs ys y h ih =>
      cases xs with
      | nil =>
          cases ys with
          | nil => exact List.Sublist.refl _
          | cons z zs =>
              rw [List.intercalate_cons_cons, List.append_assoc, List.intercalate_singleton]
              exact List.sublist_append_left _ _
      | cons x xs =>
          have hys : ys ≠ [] := by
            rintro rfl
            cases h
          rw [List.intercalate_cons_of_ne_nil (List.cons_ne_nil x xs),
            List.intercalate_cons_of_ne_nil hys]
          exact List.Sublist.append_left ih _

theorem exists_mem_of_mem_intercalate {α : Type} {sep : List α} {parts : List (List α)} {a : α}
    (h : a ∈ sep.intercalate parts) (ha : a ∉ sep) : ∃ part ∈ parts, a ∈ part := by
  induction parts with
  | nil => cases h
  | cons part rest ih =>
      cases rest with
      | nil =>
          rw [List.intercalate_singleton] at h
          exact ⟨part, List.mem_cons_self, h⟩
      | cons next rest =>
          rw [List.intercalate_cons_cons, List.mem_append, List.mem_append] at h
          rcases h with (h | h) | h
          · exact ⟨part, List.mem_cons_self, h⟩
          · exact absurd h ha
          · obtain ⟨part, hpart, hmem⟩ := ih h
            exact ⟨part, List.mem_cons_of_mem _ hpart, hmem⟩

/-- A slash in front is an empty part more. -/
theorem segments_slash (cs : List Char) : segments ('/' :: cs) = [] :: segments cs := by
  rw [segments, List.splitOn_cons_eq_if_modifyHead, if_pos (beq_self_eq_true '/')]
  rfl

/-- The parts of a text that its normal form keeps, as they stand. -/
def keptParts (cs : List Char) : List (List Char) :=
  (segments cs).filter fun s => s ≠ [] && s ≠ ['.']

theorem keptParts_dropWhile (cs : List Char) :
    keptParts (cs.dropWhile (· = '/')) = keptParts cs := by
  induction cs with
  | nil => rfl
  | cons c rest ih =>
      by_cases hc : c = '/'
      · rw [List.dropWhile_cons_of_pos (by simpa using hc), ih, hc, keptParts, keptParts,
          segments_slash, List.filter_cons_of_neg (by simp)]
      · rw [List.dropWhile_cons_of_neg (by simpa using hc)]

theorem not_slash_of_keptParts {cs part : List Char} (h : part ∈ keptParts cs) :
    part ≠ [] ∧ '/' ∉ part := by
  obtain ⟨hpart, hkeep⟩ := List.mem_filter.mp h
  rw [Bool.and_eq_true, decide_eq_true_eq] at hkeep
  exact ⟨hkeep.1, Text.not_mem_of_mem_splitOn hpart⟩

/-- Joined parts start with no slash. -/
theorem head_intercalate_ne {parts : List (List Char)}
    (h : ∀ part ∈ parts, part ≠ [] ∧ '/' ∉ part) : (['/'].intercalate parts).head? ≠ some '/' := by
  cases parts with
  | nil => exact nofun
  | cons part rest =>
      obtain ⟨hne, hslash⟩ := h part List.mem_cons_self
      obtain ⟨c, cs, rfl⟩ := List.exists_cons_of_ne_nil hne
      have hc : c ≠ '/' := fun hc => hslash (hc ▸ List.mem_cons_self)
      cases rest with
      | nil => simpa using hc
      | cons next rest => simpa [List.intercalate_cons_cons] using hc

/-- The parts that are kept, with the slashes between them, are part of the text. -/
theorem intercalate_keptParts_sublist (cs : List Char) :
    (['/'].intercalate (keptParts cs)).Sublist cs := by
  have hkeep : (keptParts cs).Sublist (segments cs) := List.filter_sublist
  have hall := intercalate_sublist ['/'] hkeep
  rwa [segments, List.intercalate_splitOn] at hall

namespace Path

variable {p : Path} {text : String}

/-! ## Roots -/

/-- The slashes that a text starts with are at least those of its root. -/
theorem text_rootOf_sublist (cs : List Char) :
    (rootOf cs).text.toList.Sublist (cs.takeWhile (· = '/')) := by
  have hslashes : cs.takeWhile (· = '/') =
      List.replicate (cs.takeWhile (· = '/')).length '/' := by
    refine List.eq_replicate_iff.mpr ⟨rfl, fun c hc => ?_⟩
    simpa using List.mem_takeWhile_imp hc
  rw [rootOf]
  generalize cs.takeWhile (· = '/') = slashes at hslashes
  split
  · exact List.nil_sublist _
  · next htwo =>
      rw [hslashes, htwo]
      exact List.Sublist.refl _
  · next hzero _ =>
      rw [hslashes]
      exact (List.replicate_sublist_replicate '/').mpr (Nat.pos_of_ne_zero hzero)

theorem root_ofText_eq_working_iff :
    (ofText text).root = .working ↔ text.toList.head? ≠ some '/' := by
  have hroot : (ofText text).root = rootOf text.toList := rfl
  rw [hroot, rootOf]
  cases text.toList with
  | nil => simp
  | cons c rest =>
      by_cases hc : c = '/'
      · rw [hc, List.takeWhile_cons_of_pos (by simp), List.length_cons]
        split <;> simp_all
      · rw [List.takeWhile_cons_of_neg (by simpa using hc)]
        simpa using hc

/-! ## Texts of paths -/

/-- The names of a path are none that is empty or has a slash in it. -/
def Plain (p : Path) : Prop := ∀ name ∈ p.names, name ≠ "" ∧ '/' ∉ name.toList

instance (p : Path) : Decidable p.Plain :=
  inferInstanceAs (Decidable (∀ name ∈ p.names, name ≠ "" ∧ '/' ∉ name.toList))

theorem Plain.parts (h : p.Plain) :
    ∀ part ∈ p.names.map String.toList, part ≠ [] ∧ '/' ∉ part := by
  intro part hpart
  obtain ⟨name, hname, rfl⟩ := List.mem_map.mp hpart
  exact ⟨by simpa using (h name hname).1, (h name hname).2⟩

theorem names_ofText_eq_map (text : String) :
    (ofText text).names = (keptParts text.toList).map String.ofList := rfl

theorem map_toList_names_ofText (text : String) :
    (ofText text).names.map String.toList = keptParts text.toList := by
  simp [names_ofText_eq_map, Function.comp_def]

theorem plain_ofText (text : String) : (ofText text).Plain := by
  intro name hname
  rw [names_ofText_eq_map] at hname
  obtain ⟨part, hpart, rfl⟩ := List.mem_map.mp hname
  obtain ⟨hne, hslash⟩ := not_slash_of_keptParts hpart
  rw [String.toList_ofList]
  refine ⟨fun hempty => hne ?_, hslash⟩
  rw [← String.toList_ofList (l := part), hempty]
  rfl

/-- The text of a path that is not empty is its root and then its names with slashes between. -/
theorem toList_text (h : ¬ (p.root = .working ∧ p.names = [])) :
    p.text.toList = p.root.text.toList ++ ['/'].intercalate (p.names.map String.toList) := by
  rw [text, if_neg (by simpa using h), String.toList_append, String.toList_intercalate]
  rfl

/-- No null character is in the text of a path in whose names there is none. -/
theorem null_not_mem_text (hnames : p.names ≠ []) (h : ∀ name ∈ p.names, '\x00' ∉ name.toList) :
    '\x00' ∉ p.text.toList := by
  rw [toList_text fun hempty => hnames hempty.2, List.mem_append]
  rintro (hroot | hjoined)
  · cases hcase : p.root <;> rw [hcase] at hroot <;> exact absurd hroot (by decide)
  · obtain ⟨part, hpart, hnull⟩ := exists_mem_of_mem_intercalate hjoined (by decide)
    obtain ⟨name, hname, rfl⟩ := List.mem_map.mp hpart
    exact h name hname hnull

/-- The text of a path starts with a slash exactly if the path does not start from the working
folder. -/
theorem head_text_eq_slash_iff (h : p.Plain) :
    p.text.toList.head? = some '/' ↔ p.root ≠ .working := by
  by_cases hempty : p.root = .working ∧ p.names = []
  · rw [text, if_pos (by simpa using hempty)]
    exact iff_of_false (by decide) fun hroot => hroot hempty.1
  · rw [toList_text hempty]
    cases p.root with
    | working => exact iff_of_false (head_intercalate_ne h.parts) fun hroot => hroot rfl
    | slash | doubleSlash => exact iff_of_true rfl nofun

/-- The normal form of a text that keeps any part is part of the text. -/
theorem text_ofText_sublist (h : (ofText text).names ≠ []) :
    (ofText text).text.toList.Sublist text.toList := by
  rw [toList_text fun hp => h hp.2, map_toList_names_ofText]
  have hparts := intercalate_keptParts_sublist (text.toList.dropWhile (· = '/'))
  rw [keptParts_dropWhile] at hparts
  have hall := (text_rootOf_sublist text.toList).append hparts
  rwa [List.takeWhile_append_dropWhile] at hall

end Path

namespace Tree

variable {t : Tree} {bytes : List UInt8} {text : String} {p : Path}

theorem names_ofText (text : String) :
    (Path.ofText text).names = (segmentsOf text).filter fun s => ¬ Stays s := by
  have hkeep : (fun s : String => decide (¬ Stays s)) ∘ String.ofList =
      fun s : List Char => s ≠ [] && s ≠ ['.'] := by
    funext s
    have hdot : String.ofList s = "." ↔ s = ['.'] := by
      rw [← String.toList_inj, String.toList_ofList]
      rfl
    simp [Stays, hdot]
  rw [segmentsOf, List.filter_map, hkeep]
  rfl

/-- A slash in front changes nothing on a way. -/
theorem follow_slash (t : Tree) (place : List String) (cs : List Char) :
    t.follow place ((segments ('/' :: cs)).map String.ofList) =
      t.follow place ((segments cs).map String.ofList) := by
  rw [segments_slash, List.map_cons]
  exact follow_of_stays t place (Or.inl rfl) _

/-- The text of a path is followed by its names. -/
theorem follow_segmentsOf_text (h : p.Plain) (place : List String) :
    t.follow place (segmentsOf p.text) = t.follow place p.names := by
  by_cases hempty : p.root = .working ∧ p.names = []
  · obtain ⟨root, names⟩ := p
    obtain ⟨rfl, rfl⟩ := hempty
    exact follow_of_stays t place (Or.inr rfl) []
  · have hjoined : t.follow place ((segments (['/'].intercalate
        (p.names.map String.toList))).map String.ofList) = t.follow place p.names := by
      by_cases hnames : p.names = []
      · rw [hnames]
        exact follow_of_stays t place (Or.inl rfl) []
      · rw [segments, List.splitOn_intercalate '/' (fun part hpart => (h.parts part hpart).2)
          (by simpa using hnames)]
        simp [Function.comp_def]
    rw [segmentsOf, Path.toList_text hempty]
    cases p.root with
    | working => exact hjoined
    | slash => exact (follow_slash t place _).trans hjoined
    | doubleSlash => exact (follow_slash t place _).trans ((follow_slash t place _).trans hjoined)

theorem start_text_ofText (t : Tree) (text : String) :
    t.start (Path.ofText text).text = t.start text := by
  have hiff : (Path.ofText text).text.toList.head? = some '/' ↔ text.toList.head? = some '/' := by
    rw [Path.head_text_eq_slash_iff (Path.plain_ofText text), ne_eq,
      Path.root_ofText_eq_working_iff, ne_eq, not_not]
  rw [start, start]
  simp only [hiff]

theorem read_eq_ok_iff : t.read text = .ok bytes ↔ t.find text = .node (.file bytes) := by
  unfold read
  cases t.find text with
  | node n => cases n <;> simp
  | missing | vacant => dsimp only; split <;> simp
  | _ => simp

/-- A text leads to a file exactly if it is not too long, holds no null character, and its parts
lead to the file from where it starts. -/
theorem find_eq_file_iff : t.find text = .node (.file bytes) ↔
    '\x00' ∉ text.toList ∧ text.utf8ByteSize ≤ pathLimit ∧
      t.follow (t.start text) (segmentsOf text) = .node (.file bytes) := by
  rw [find]
  constructor
  · intro h
    split at h
    · cases h
    · next hnull =>
        rw [Bool.or_eq_true, not_or, List.contains_iff_mem] at hnull
        split at h
        · cases h
        · next hsize => exact ⟨hnull.2, Nat.le_of_not_lt hsize, h⟩
  · rintro ⟨hnull, hsize, h⟩
    have hne : text.isEmpty = false := by
      rw [Bool.eq_false_iff]
      intro hempty
      obtain rfl : text = "" := by simpa using hempty
      cases h
    rw [hne, Bool.false_or, if_neg (by rwa [List.contains_iff_mem]),
      if_neg (Nat.not_lt_of_le hsize)]
    exact h

/-- The normal form of a text that leads to a file leads to the same file. -/
theorem find_text_ofText (h : t.find text = .node (.file bytes)) :
    t.find (Path.ofText text).text = .node (.file bytes) := by
  obtain ⟨hnull, hsize, hfollow⟩ := find_eq_file_iff.mp h
  have hnames := follow_filter hfollow
  rw [← names_ofText] at hnames
  have hkept : (Path.ofText text).names ≠ [] := by
    intro hnil
    rw [hnil] at hnames
    cases hnames
  have hsub := Path.text_ofText_sublist hkept
  refine find_eq_file_iff.mpr ⟨fun hmem => hnull (hsub.subset hmem), ?_, ?_⟩
  · have hlen := String.utf8Len_le_of_sublist hsub
    rw [← String.utf8ByteSize_ofList, ← String.utf8ByteSize_ofList, String.ofList_toList,
      String.ofList_toList] at hlen
    exact hlen.trans hsize
  · rw [start_text_ofText, follow_segmentsOf_text (Path.plain_ofText text)]
    exact hnames

/-! ## Names that are too long -/

/-- A name that is too long is not followed. -/
theorem follow_of_long {name : String} (h : nameLimit < name.utf8ByteSize)
    (place rest : List String) : t.follow place (name :: rest) = .tooLong := by
  have hstays : ¬ Stays name := by
    rintro (rfl | rfl) <;> exact absurd h (by decide)
  have hup : name ≠ ".." := by
    rintro rfl
    exact absurd h (by decide)
  rw [follow_name t place hstays hup, if_pos h]

/-- A path whose first name is too long cannot be asked about. -/
theorem find_text_of_long (hp : p.Plain) (hnull : ∀ name ∈ p.names, '\x00' ∉ name.toList)
    {name : String} {rest : List String} (hnames : p.names = name :: rest)
    (hlong : nameLimit < name.utf8ByteSize) : t.find p.text = .tooLong := by
  have hnull : '\x00' ∉ p.text.toList :=
    Path.null_not_mem_text (hnames ▸ List.cons_ne_nil name rest) hnull
  have hempty : p.text.isEmpty = false := by
    rw [Bool.eq_false_iff]
    intro hempty
    have hfollow := follow_segmentsOf_text (t := t) hp []
    rw [String.isEmpty_iff.mp hempty, hnames, follow_of_long hlong] at hfollow
    cases hfollow
  rw [find, hempty, Bool.false_or, if_neg (by rwa [List.contains_iff_mem]),
    follow_segmentsOf_text hp, hnames]
  split
  · rfl
  · exact follow_of_long hlong _ _

end Tree

end LabelPress.Files
