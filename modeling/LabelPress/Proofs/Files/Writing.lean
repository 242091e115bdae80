import LabelPress.Proofs.Files.NormalForm

/-!
# Reading what was written

A file is written where all folders on the way are there already and no folder is in its place. It
can then be read, and what lies elsewhere is read as before: no text that leads to a file goes
through another one.
-/

namespace LabelPress.Files

namespace Tree

variable {t : Tree} {names other place segments : List String} {bytes found : List UInt8}
variable {text : String}

/-! ## Steps -/

theorem step_of_stays (place : List String) {s : String} (h : Stays s) : step place s = place :=
  if_pos h

theorem step_up (place : List String) : step place ".." = place.dropLast := rfl

theorem step_name (place : List String) {s : String} (hs : ¬ Stays s) (hup : s ≠ "..") :
    step place s = place ++ [s] :=
  (if_neg hs).trans (if_neg hup)

/-! ## Places for files -/

/-- A place is a folder, as all places are that lead to it. -/
def IsOpen (t : Tree) (place : List String) : Prop := ∀ p, p <+: place → t.node? p = some .folder

/-- A file can be put in a place: all folders that lead there are there, and there is no folder in
the place itself. -/
structure TakesFile (t : Tree) (names : List String) : Prop where
  folders : t.IsOpen names.dropLast
  free : t.node? names ≠ some .folder

/-- What leads to the working folder is a folder. -/
theorem node?_of_isWorking (h : names <+: t.working) : t.node? names = some .folder :=
  if_pos (List.isPrefixOf_iff_prefix.mpr h)

theorem isOpen_start (t : Tree) (text : String) : t.IsOpen (t.start text) := by
  intro p hp
  apply node?_of_isWorking
  rw [start] at hp
  split at hp
  · exact hp.trans List.nil_prefix
  · exact hp

theorem IsOpen.above (h : t.IsOpen place) : t.IsOpen place.dropLast :=
  fun p hp => h p (hp.trans (List.dropLast_prefix _))

theorem IsOpen.below (h : t.IsOpen place) {s : String}
    (hnode : t.node? (place ++ [s]) = some .folder) : t.IsOpen (place ++ [s]) := by
  intro p hp
  rcases List.prefix_concat_iff.mp hp with rfl | hp
  · exact hnode
  · exact h p hp

/-- No folder lies below a place for a file. -/
theorem TakesFile.not_prefix (h : t.TakesFile names) (hopen : t.IsOpen other) :
    ¬ names <+: other := fun hp => h.free (hopen names hp)

/-- A place for a file does not lead to the working folder. -/
theorem TakesFile.not_prefix_working (h : t.TakesFile names) : ¬ names <+: t.working :=
  fun hp => h.free (node?_of_isWorking hp)

theorem TakesFile.ne_nil (h : t.TakesFile names) : names ≠ [] := by
  rintro rfl
  exact h.not_prefix_working List.nil_prefix

theorem takesFile_concat (hopen : t.IsOpen place) {s : String}
    (h : t.node? (place ++ [s]) ≠ some .folder) : t.TakesFile (place ++ [s]) where
  folders := by rwa [List.dropLast_concat]
  free := h

/-! ## Nodes -/

/-- An entry in front counts for its own names alone. -/
theorem lookup_cons_ne {β : Type} {n : List String × β} (h : other ≠ n.1)
    (nodes : List (List String × β)) : (n :: nodes).lookup other = nodes.lookup other := by
  rw [List.lookup_cons, beq_false_of_ne h]

/-- Names whose entries stay lead to what they led to. -/
theorem lookup_filter {β : Type} (keep : List String → Bool) (h : keep other = true)
    (nodes : List (List String × β)) :
    (nodes.filter fun n => keep n.1).lookup other = nodes.lookup other := by
  induction nodes with
  | nil => rfl
  | cons n rest ih =>
      by_cases hn : other = n.1
      · subst hn
        rw [List.filter_cons_of_pos (by exact h)]
        exact List.lookup_cons_self.trans List.lookup_cons_self.symm
      · rw [lookup_cons_ne hn]
        by_cases hkeep : keep n.1 = true
        · rw [List.filter_cons_of_pos (by exact hkeep), lookup_cons_ne hn, ih]
        · rw [List.filter_cons_of_neg (by exact hkeep), ih]

/-- What does not lie below removed names stays. -/
theorem node?_remove (h : ¬ names <+: other) : (t.remove names).node? other = t.node? other := by
  have hkeep : (!names.isPrefixOf other) = true := by
    rwa [Bool.not_eq_true', Bool.eq_false_iff, ne_eq, List.isPrefixOf_iff_prefix]
  simp only [node?, remove, lookup_filter (fun n => !names.isPrefixOf n) hkeep]

/-- The folders that lead to some names are not empty, and lead to the nearest of them. -/
theorem prefix_of_mem_foldersTo {f : List String} (h : f ∈ foldersTo names) :
    f <+: names.dropLast := by
  induction names using foldersTo.induct generalizing f with
  | case1 | case2 => cases h
  | case3 name rest hrest ih =>
      have hne : rest ≠ [] := by
        rintro rfl
        exact hrest rfl
      rw [List.dropLast_cons_of_ne_nil hne]
      rw [foldersTo, List.mem_cons, List.mem_map] at h
      rcases h with rfl | ⟨g, hg, rfl⟩
      · exact ⟨rest.dropLast, rfl⟩
      · exact (List.cons_prefix_cons).mpr ⟨rfl, ih hg⟩
      · exact hrest

/-- No folder has to be made for a file where there is a place for one. -/
theorem put_of_takesFile (bytes : List UInt8) (h : t.TakesFile names) :
    t.put names (.file bytes) =
      { t with nodes := (names, .file bytes) :: (t.remove names).nodes } := by
  have hfolders : (foldersTo names).filter (fun f => ((t.remove names).node? f).isNone) = [] := by
    rw [List.filter_eq_nil_iff]
    intro f hf
    have hbelow := prefix_of_mem_foldersTo hf
    have hshort : ¬ names <+: f := by
      intro hle
      have hlen := (hle.trans hbelow).length_le
      have hpos := List.length_pos_iff.mpr h.ne_nil
      rw [List.length_dropLast] at hlen
      omega
    rw [node?_remove hshort, h.folders f hbelow]
    exact Bool.false_ne_true
  have hput : ¬ (names.isPrefixOf t.working = true ∨
      Node.file bytes = .folder ∧ t.node? names = some .folder) := by
    rintro (hleads | ⟨hfolder, -⟩)
    · exact h.not_prefix_working (List.isPrefixOf_iff_prefix.mp hleads)
    · cases hfolder
  rw [put, if_neg hput]
  dsimp only
  rw [hfolders]
  rfl

/-- The file is there. -/
theorem node?_put_self (bytes : List UInt8) (h : t.TakesFile names) :
    (t.put names (.file bytes)).node? names = some (.file bytes) := by
  rw [put_of_takesFile bytes h, node?,
    if_neg (mt List.isPrefixOf_iff_prefix.mp h.not_prefix_working), List.lookup_cons_self]

/-- What does not lie below the file is as it was. -/
theorem node?_put_of_not_prefix (bytes : List UInt8) (h : t.TakesFile names)
    (hother : ¬ names <+: other) :
    (t.put names (.file bytes)).node? other = t.node? other := by
  have hne : other ≠ names := fun heq => hother (heq ▸ List.prefix_rfl)
  rw [← node?_remove (t := t) hother, put_of_takesFile bytes h]
  dsimp only [node?, remove]
  rw [lookup_cons_ne (n := (names, Node.file bytes)) hne]

/-- What lies in a folder, and is not the file, is as it was. -/
theorem node?_put_concat (bytes : List UInt8) (h : t.TakesFile names) (hopen : t.IsOpen place)
    {s : String} (hplace : place ++ [s] ≠ names) :
    (t.put names (.file bytes)).node? (place ++ [s]) = t.node? (place ++ [s]) := by
  apply node?_put_of_not_prefix bytes h
  intro hbelow
  rcases List.prefix_concat_iff.mp hbelow with heq | hbelow
  · exact hplace heq.symm
  · exact h.not_prefix hopen hbelow

end Tree

/-- What is found where a file can be written: nothing in a folder, or a file. -/
inductive Finding.TakesFile : Finding → Prop
  | vacant : TakesFile .vacant
  | file (bytes : List UInt8) : TakesFile (.node (.file bytes))

theorem Finding.not_takesFile_folder : ¬ (Finding.node .folder).TakesFile := by rintro ⟨⟩

theorem Finding.not_takesFile_missing : ¬ Finding.missing.TakesFile := by rintro ⟨⟩

theorem Finding.not_takesFile_tooLong : ¬ Finding.tooLong.TakesFile := by rintro ⟨⟩

namespace Tree

variable {t : Tree} {names place segments : List String}
variable {bytes found : List UInt8} {text other : String}

/-! ## Ways -/

section Names

variable {s : String} {rest : List String} (hs : ¬ Stays s) (hup : s ≠ "..")

include hs hup

theorem follow_below (hshort : ¬ nameLimit < s.utf8ByteSize)
    (hnode : t.node? (place ++ [s]) = some .folder) (rest : List String) :
    t.follow place (s :: rest) = t.follow (place ++ [s]) rest := by
  rw [follow_name t place hs hup, if_neg hshort, hnode]

theorem follow_last (hshort : ¬ nameLimit < s.utf8ByteSize)
    (hnode : t.node? (place ++ [s]) ≠ some .folder) :
    t.follow place [s] = (t.node? (place ++ [s])).elim .vacant .node := by
  rw [follow_name t place hs hup, if_neg hshort]
  cases h : t.node? (place ++ [s]) with
  | none => rfl
  | some node =>
      cases node with
      | folder => exact absurd h hnode
      | file bytes => rfl

theorem takesFile_last (hshort : ¬ nameLimit < s.utf8ByteSize)
    (hnode : t.node? (place ++ [s]) ≠ some .folder) : (t.follow place [s]).TakesFile := by
  rw [follow_last hs hup hshort hnode]
  cases h : t.node? (place ++ [s]) with
  | none => exact .vacant
  | some node =>
      cases node with
      | folder => exact absurd h hnode
      | file bytes => exact .file bytes

/-- A way goes on in folders only. -/
theorem eq_nil_of_takesFile (hnode : t.node? (place ++ [s]) ≠ some .folder)
    (h : (t.follow place (s :: rest)).TakesFile) : rest = [] := by
  rw [follow_name t place hs hup] at h
  cases rest with
  | nil => rfl
  | cons r rest =>
      dsimp only [List.isEmpty_cons] at h
      split at h
      · cases h
      · split at h
        · cases h
        · next hfolder => exact absurd hfolder hnode
        · cases h

end Names

/-- A way from an open place on which a file can be written ends at a place for it. -/
theorem takesFile_of_follow (hopen : t.IsOpen place) (h : (t.follow place segments).TakesFile) :
    t.TakesFile (segments.foldl step place) := by
  induction segments generalizing place with
  | nil => cases h
  | cons s rest ih =>
      rw [List.foldl_cons]
      rcases segment_cases s with hs | rfl | ⟨hs, hup⟩
      · rw [follow_of_stays t place hs] at h
        rw [step_of_stays place hs]
        exact ih hopen h
      · rw [follow_up] at h
        rw [step_up]
        exact ih hopen.above h
      · rw [step_name place hs hup]
        by_cases hshort : nameLimit < s.utf8ByteSize
        · rw [follow_of_long hshort] at h
          cases h
        · by_cases hnode : t.node? (place ++ [s]) = some .folder
          · rw [follow_below hs hup hshort hnode] at h
            exact ih (hopen.below hnode) h
          · obtain rfl := eq_nil_of_takesFile hs hup hnode h
            exact takesFile_concat hopen hnode

/-- Where no file can be written, none is found. -/
theorem file_iff_of_not_takesFile {p : Prop} [Decidable p] {f g : Finding} (hf : ¬ f.TakesFile)
    (hg : ¬ g.TakesFile) : f = .node (.file found) ↔
      if p then g.TakesFile ∧ found = bytes else g = .node (.file found) := by
  have hne {f : Finding} (hf : ¬ f.TakesFile) : f ≠ .node (.file found) := by
    rintro rfl
    exact hf (.file found)
  refine iff_of_false (hne hf) ?_
  split
  · exact fun h => hg h.1
  · exact hne hg

/-- A file that is written at the end of a way is all that the way leads to. -/
theorem follow_put_place {s : String} (hs : ¬ Stays s) (hup : s ≠ "..")
    (hshort : ¬ nameLimit < s.utf8ByteSize) (h : t.TakesFile (place ++ [s])) (rest : List String) :
    (t.put (place ++ [s]) (.file bytes)).follow place (s :: rest) = .node (.file found) ↔
      if rest.foldl step (place ++ [s]) = place ++ [s] then
        (t.follow place (s :: rest)).TakesFile ∧ found = bytes
      else t.follow place (s :: rest) = .node (.file found) := by
  have hfile := node?_put_self bytes h
  have hnode : (t.put (place ++ [s]) (.file bytes)).node? (place ++ [s]) ≠ some .folder := by
    rw [hfile]
    exact nofun
  by_cases hrest : rest = []
  · subst hrest
    have htakes := takesFile_last hs hup hshort h.free
    rw [follow_last hs hup hshort hnode, hfile, List.foldl_nil, if_pos rfl, and_iff_right htakes]
    simp [eq_comm]
  · exact file_iff_of_not_takesFile
      (fun htakes => hrest (eq_nil_of_takesFile hs hup hnode htakes))
      (fun htakes => hrest (eq_nil_of_takesFile hs hup h.free htakes))

/-- What a way comes to once a file is written: at its place it leads to the file, if one could be
written there by that way, and elsewhere to the same files as before. -/
theorem follow_put (h : t.TakesFile names) (hopen : t.IsOpen place) :
    (t.put names (.file bytes)).follow place segments = .node (.file found) ↔
      if segments.foldl step place = names then
        (t.follow place segments).TakesFile ∧ found = bytes
      else t.follow place segments = .node (.file found) := by
  induction segments generalizing place with
  | nil =>
      simp [follow, Finding.not_takesFile_folder]
  | cons s rest ih =>
      rw [List.foldl_cons]
      rcases segment_cases s with hs | rfl | ⟨hs, hup⟩
      · rw [follow_of_stays _ place hs, follow_of_stays t place hs, step_of_stays place hs]
        exact ih hopen
      · rw [follow_up, follow_up, step_up]
        exact ih hopen.above
      · rw [step_name place hs hup]
        by_cases hshort : nameLimit < s.utf8ByteSize
        · rw [follow_of_long hshort, follow_of_long hshort]
          exact file_iff_of_not_takesFile Finding.not_takesFile_tooLong
            Finding.not_takesFile_tooLong
        · by_cases hplace : place ++ [s] = names
          · subst hplace
            exact follow_put_place hs hup hshort h rest
          · have hsame := node?_put_concat bytes h hopen hplace
            by_cases hnode : t.node? (place ++ [s]) = some .folder
            · rw [follow_below hs hup hshort hnode,
                follow_below hs hup hshort (hsame.trans hnode)]
              exact ih (hopen.below hnode)
            · have hnode' := hsame.symm ▸ hnode
              by_cases hrest : rest = []
              · subst hrest
                rw [follow_last hs hup hshort hnode', follow_last hs hup hshort hnode, hsame,
                  List.foldl_nil, if_neg hplace]
              · exact file_iff_of_not_takesFile
                  (fun htakes => hrest (eq_nil_of_takesFile hs hup hnode' htakes))
                  (fun htakes => hrest (eq_nil_of_takesFile hs hup hnode htakes))

/-! ## Texts -/

/-- Where nothing is against writing a file, one can be written. -/
theorem takesFile_of_writeFault? (h : t.writeFault? text = none) : (t.find text).TakesFile := by
  have hbelow : Text.dropEndWhile (· = '/') text.toList <+: text.toList := by
    rw [Text.dropEndWhile, ← List.reverse_suffix, List.reverse_reverse]
    exact List.dropWhile_suffix _
  have hwhole (hlen : ¬ (Text.dropEndWhile (· = '/') text.toList).length < text.length) :
      String.ofList (Text.dropEndWhile (· = '/') text.toList) = text := by
    rw [← String.length_toList] at hlen
    rw [hbelow.eq_of_length_le (Nat.le_of_not_lt hlen), String.ofList_toList]
  unfold writeFault? at h
  dsimp only at h
  split_ifs at h with hnull hempty hsize hnamed hlen
  · split at h <;> cases h
  · rw [hwhole hlen] at h
    split at h
    · cases h
    · cases h
    · cases h
    · cases h
    · next bytes hfound =>
        rw [hfound]
        exact .file bytes
    · next hfound =>
        rw [hfound]
        exact .vacant

/-- A text is followed if a file can be written where it leads. -/
theorem find_eq_follow (h : (t.find text).TakesFile) :
    t.find text = t.follow (t.start text) (segmentsOf text) := by
  rw [find] at h ⊢
  split at h
  · cases h
  · split at h
    · cases h
    · next hnull hsize => rw [if_neg hnull, if_neg hsize]

/-- Where nothing is against writing a file, there is a place for one. -/
theorem takesFile_placeOf (h : t.writeFault? text = none) : t.TakesFile (t.placeOf text) := by
  have htakes := takesFile_of_writeFault? h
  rw [find_eq_follow htakes] at htakes
  exact takesFile_of_follow (isOpen_start t text) htakes

/-- A file that is put in its place leaves the working folder. -/
theorem start_put (h : t.TakesFile names) (text : String) :
    (t.put names (.file bytes)).start text = t.start text := by
  rw [put_of_takesFile bytes h]
  rfl

/-- What a text comes to once a file is written. -/
theorem find_put (h : t.TakesFile names) :
    (t.put names (.file bytes)).find text = .node (.file found) ↔
      if t.placeOf text = names then (t.find text).TakesFile ∧ found = bytes
      else t.find text = .node (.file found) := by
  rw [find, find]
  split
  · exact file_iff_of_not_takesFile Finding.not_takesFile_missing Finding.not_takesFile_missing
  · split
    · exact file_iff_of_not_takesFile Finding.not_takesFile_tooLong Finding.not_takesFile_tooLong
    · rw [start_put h]
      exact follow_put h (isOpen_start t text)

/-- A file that was written is read. -/
theorem read_write (h : t.writeFault? text = none) :
    (t.write text (.file bytes)).read text = .ok bytes := by
  rw [read_eq_ok_iff, write, find_put (takesFile_placeOf h), if_pos rfl]
  exact ⟨takesFile_of_writeFault? h, rfl⟩

/-- Where a text names another place, writing a file has no part in what is read. -/
theorem read_write_of_ne (h : t.writeFault? text = none)
    (hother : t.placeOf other ≠ t.placeOf text) :
    (t.write text (.file bytes)).read other = .ok found ↔ t.read other = .ok found := by
  rw [read_eq_ok_iff, read_eq_ok_iff, write, find_put (takesFile_placeOf h), if_neg hother]

/-- One file is written where a text leads. It is read there, and what is read elsewhere is as
before. -/
structure Updates (before after : Tree) (text : String) (bytes : List UInt8) : Prop where
  written : after.read text = .ok bytes
  others : ∀ other, before.placeOf other ≠ before.placeOf text →
    ∀ found, after.read other = .ok found ↔ before.read other = .ok found

theorem updates_write (h : t.writeFault? text = none) (bytes : List UInt8) :
    Updates t (t.write text (.file bytes)) text bytes where
  written := read_write h
  others _ hother _ := read_write_of_ne h hother

/-- What can be against writing a file. -/
theorem writeFault?_eq_some {fault : Fault} (h : t.writeFault? text = some fault) :
    fault = .nullInPath ∨ fault = .noSuchFile text ∨ fault = .nameTooLong text ∨
      fault = .isFolder text ∨ fault = .notFolder text := by
  unfold writeFault? at h
  dsimp only at h
  split_ifs at h
  all_goals try split at h
  all_goals cases h
  all_goals simp

end Tree

end LabelPress.Files
