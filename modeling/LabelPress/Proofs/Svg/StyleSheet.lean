import LabelPress.Proofs.Command.Markup
import LabelPress.Proofs.Text.Base64
import LabelPress.Proofs.Text.Delimiters
import LabelPress.Svg.Document

/-!
# Style sheets are read back

The names and media types of embedded fonts and the bytes in base 64 are words of plain characters,
which neither end what they stand in nor the section of the sheet. A sheet therefore has the text
of one list of rules only.
-/

namespace LabelPress.Svg

open LabelPress.Files LabelPress.Text

/-- Whether a character ends neither a quoted word nor a media type nor the section of a sheet. -/
def isPlain (c : Char) : Bool := c.isAlphanum || c = '+' || c = '-' || c = '/' || c = '='

theorem isPlain_of_isAlphanum {c : Char} (h : c.isAlphanum = true) : isPlain c = true := by
  simp [isPlain, h]

theorem isPlain_of_mem_base64 {bytes : List UInt8} {c : Char} (h : c ∈ base64 bytes) :
    isPlain c = true := by
  rcases eq_equals_or_of_mem_base64 h with rfl | ⟨n, rfl⟩
  · decide
  · rcases isAlphanum_base64Char n with h | h | h
    · exact isPlain_of_isAlphanum h
    · rw [h]
      decide
    · rw [h]
      decide

theorem isPlain_of_mem_hexDigits {width n : Nat} {c : Char} (h : c ∈ hexDigits width n) :
    isPlain c = true := by
  have hdigit : ∀ m < 16, isPlain (hexDigit m) = true := by decide
  induction width generalizing n with
  | zero => exact absurd h List.not_mem_nil
  | succ width ih =>
      rw [hexDigits, List.mem_append, List.mem_singleton] at h
      rcases h with h | rfl
      · exact ih h
      · exact hdigit _ (Nat.mod_lt _ (by decide))

namespace FontFace

/-- A rule whose words are plain. -/
structure Plain (f : FontFace) : Prop where
  family : ∀ c ∈ f.family.toList, isPlain c = true
  mediaType : ∀ c ∈ f.mediaType.toList, isPlain c = true

/-- The text of a rule, divided at the first character after each word. -/
theorem toList_rule (f : FontFace) : f.rule.toList =
    "@font-face \x7b\n  font-family: '".toList ++ (f.family.toList ++ '\'' ::
      (";\n  src: url('data:".toList ++ (f.mediaType.toList ++ ';' ::
        ("base64,".toList ++ (base64 f.bytes ++ '\'' :: ");\n\x7d".toList))))) := by
  have hfamily : "';\n  src: url('data:".toList = '\'' :: ";\n  src: url('data:".toList := rfl
  have hmediaType : ";base64,".toList = ';' :: "base64,".toList := rfl
  have hbytes : "');\n\x7d".toList = '\'' :: ");\n\x7d".toList := rfl
  unfold rule
  simp only [String.toList_append, String.toList_ofList, List.append_assoc]
  rw [hfamily, hmediaType, hbytes]
  simp only [List.cons_append]

theorem Plain.append_inj {f g : FontFace} (hf : f.Plain) (hg : g.Plain) {t u : List Char}
    (h : f.rule.toList ++ t = g.rule.toList ++ u) : f = g ∧ t = u := by
  have hquote : isPlain '\'' = false := by decide
  have hsemicolon : isPlain ';' = false := by decide
  rw [toList_rule, toList_rule] at h
  simp only [List.append_assoc, List.cons_append] at h
  obtain ⟨hfamily, -, h⟩ := append_cons_inj_of_all hf.family hg.family hquote hquote
    (List.append_cancel_left h)
  obtain ⟨hmediaType, -, h⟩ := append_cons_inj_of_all hf.mediaType hg.mediaType hsemicolon
    hsemicolon (List.append_cancel_left h)
  obtain ⟨hbytes, -, h⟩ := append_cons_inj_of_all (fun _ => isPlain_of_mem_base64)
    (fun _ => isPlain_of_mem_base64) hquote hquote (List.append_cancel_left h)
  refine ⟨?_, List.append_cancel_left h⟩
  calc
    f = ⟨f.family, f.mediaType, f.bytes⟩ := rfl
    _ = ⟨g.family, g.mediaType, g.bytes⟩ := by
      rw [String.toList_injective hfamily, String.toList_injective hmediaType,
        base64_injective hbytes]
    _ = g := rfl

theorem Plain.bracket_notMem {f : FontFace} (hf : f.Plain) : ']' ∉ f.rule.toList := by
  have hword : ∀ {cs : List Char}, (∀ c ∈ cs, isPlain c = true) → ']' ∉ cs := by
    intro cs hcs h
    exact absurd (hcs _ h) (by decide)
  have hfamily : ']' ∉ f.family.toList := hword hf.family
  have hmediaType : ']' ∉ f.mediaType.toList := hword hf.mediaType
  have hbytes : ']' ∉ base64 f.bytes := hword fun _ => isPlain_of_mem_base64
  rw [toList_rule]
  simp only [List.mem_append, List.mem_cons, hfamily, hmediaType, hbytes, false_or]
  decide

theorem rule_append_ne_nil (f : FontFace) (t : List Char) : f.rule.toList ++ t ≠ [] := by
  rw [toList_rule]
  exact List.cons_ne_nil _ _

end FontFace

theorem toList_styleSheet_cons (f : FontFace) (faces : List FontFace) :
    (styleSheet (f :: faces)).toList =
      f.rule.toList ++ faces.flatMap fun g => '\n' :: g.rule.toList := by
  induction faces generalizing f with
  | nil => simp [styleSheet]
  | cons g faces ih =>
      have hsheet : styleSheet (f :: g :: faces) =
          f.rule ++ "\n" ++ styleSheet (g :: faces) := String.intercalate_cons_cons
      rw [hsheet, String.toList_append, String.toList_append, ih, List.flatMap_cons]
      simp

theorem bracket_notMem_styleSheet {faces : List FontFace} (hplain : ∀ f ∈ faces, f.Plain) :
    ']' ∉ (styleSheet faces).toList := by
  cases faces with
  | nil => exact List.not_mem_nil
  | cons f faces =>
      rw [toList_styleSheet_cons, List.mem_append, List.mem_flatMap]
      rintro (h | ⟨g, hg, h⟩)
      · exact (hplain f List.mem_cons_self).bracket_notMem h
      · rcases List.mem_cons.mp h with h | h
        · exact absurd h (by decide)
        · exact (hplain g (List.mem_cons_of_mem f hg)).bracket_notMem h

theorem styleSheet_inj {faces faces' : List FontFace} (hplain : ∀ f ∈ faces, f.Plain)
    (hplain' : ∀ f ∈ faces', f.Plain) (h : styleSheet faces = styleSheet faces') :
    faces = faces' := by
  have hlist := congrArg String.toList h
  cases faces with
  | nil =>
      cases faces' with
      | nil => rfl
      | cons g faces' =>
          rw [toList_styleSheet_cons] at hlist
          exact absurd hlist.symm (g.rule_append_ne_nil _)
  | cons f faces =>
      cases faces' with
      | nil =>
          rw [toList_styleSheet_cons] at hlist
          exact absurd hlist (f.rule_append_ne_nil _)
      | cons g faces' =>
          rw [toList_styleSheet_cons, toList_styleSheet_cons] at hlist
          obtain ⟨rfl, hrest⟩ := (hplain f List.mem_cons_self).append_inj
            (hplain' g List.mem_cons_self) hlist
          have hcode : ∀ a ∈ faces, ∀ b ∈ faces', ∀ t u, '\n' :: a.rule.toList ++ t =
              '\n' :: b.rule.toList ++ u → a = b ∧ t = u := by
            intro a ha b hb t u hab
            exact (hplain a (List.mem_cons_of_mem f ha)).append_inj
              (hplain' b (List.mem_cons_of_mem f hb)) (List.cons.inj hab).2
          obtain ⟨rfl, -⟩ := flatMap_append_inj (r := []) (s := []) hcode
            (fun _ _ _ => List.cons_ne_nil _ _) (fun _ _ _ => List.cons_ne_nil _ _)
            (congrArg (· ++ []) hrest)
          rfl

/-! ## The rules of a canvas -/

theorem mediaType_eq_or (path : String) :
    Font.mediaType path = Font.openType ∨ Font.mediaType path = Font.trueType := by
  unfold Font.mediaType
  split
  · exact .inl rfl
  · exact .inr rfl

theorem isPlain_of_mem_openType : ∀ c ∈ Font.openType.toList, isPlain c = true :=
  List.all_eq_true.mp (by decide)

theorem isPlain_of_mem_trueType : ∀ c ∈ Font.trueType.toList, isPlain c = true :=
  List.all_eq_true.mp (by decide)

theorem isPlain_of_mem_family (path : Option String) :
    ∀ c ∈ (Font.family path).toList, isPlain c = true := by
  have hprefix : ∀ c ∈ "CustomFont-".toList, isPlain c = true := List.all_eq_true.mp (by decide)
  intro c hc
  rw [Font.family, String.toList_append, List.mem_append] at hc
  rcases hc with hc | hc
  · exact hprefix c hc
  · rw [hexBytes, String.toList_ofList] at hc
    obtain ⟨b, -, hb⟩ := List.mem_flatMap.mp hc
    exact isPlain_of_mem_hexDigits hb

/-- The rule of a font that a canvas embeds is plain. -/
theorem plain_of_embedded (f : EmbeddedFont) :
    FontFace.Plain ⟨f.family, Font.mediaType f.path, f.bytes⟩ := by
  constructor
  · exact isPlain_of_mem_family _
  · rcases mediaType_eq_or f.path with h | h
    · exact h ▸ isPlain_of_mem_openType
    · exact h ▸ isPlain_of_mem_trueType

theorem standingFace?_eq_ok {files : Tree} {folder : Path} {family file : String} {f : FontFace}
    (h : standingFace? files folder family file = .ok (some f)) :
    f.family = family ∧ f.mediaType = Font.openType := by
  unfold standingFace? at h
  simp only [bind, Except.bind, pure, Except.pure] at h
  split at h
  · cases h
  · split at h
    · split at h
      · cases h
      · cases h
        exact ⟨rfl, rfl⟩
    · cases h

/-- The rule of a standing font is plain. -/
theorem plain_of_standing {files : Tree} {folder : Path} {s : String × String}
    (hs : s ∈ Font.standing) {f : FontFace}
    (h : standingFace? files folder s.1 s.2 = .ok (some f)) : f.Plain := by
  have hfamilies : ∀ s ∈ Font.standing, s.1.toList.all isPlain = true := by decide
  obtain ⟨hfamily, hmediaType⟩ := standingFace?_eq_ok h
  constructor
  · rw [hfamily]
    exact List.all_eq_true.mp (hfamilies s hs)
  · rw [hmediaType]
    exact isPlain_of_mem_openType

theorem plain_of_mem_fontFaces {files : Tree} {c : Canvas} {faces : List FontFace}
    (h : fontFaces files c = .ok faces) {f : FontFace} (hf : f ∈ faces) : f.Plain := by
  unfold fontFaces at h
  cases hstanding : Font.standing.mapM fun s => standingFace? files c.fontsDir s.1 s.2 with
  | error fault =>
      rw [hstanding] at h
      cases h
  | ok standing =>
      rw [hstanding] at h
      cases h
      rcases List.mem_append.mp hf with hf | hf
      · obtain ⟨font, -, rfl⟩ := List.mem_map.mp hf
        exact plain_of_embedded font
      · obtain ⟨face?, hface, rfl⟩ := List.mem_filterMap.mp hf
        obtain ⟨s, hs, hread⟩ := Command.exists_of_mem_mapM hstanding hface
        exact plain_of_standing hs hread

end LabelPress.Svg
