import LabelPress.Proofs.Svg.Document
import LabelPress.Proofs.Xml.Grammar

/-!
# Documents are well-formed

Tags are balanced because a tree is written by its structure, attributes and texts because they are
escaped, and the style sheet because it cannot end its section. Nothing is done about characters
that no document may hold: a document is well-formed exactly if it holds none of them.
-/

namespace LabelPress.Svg

open LabelPress.Files LabelPress.Number LabelPress.Xml

/-! ## Escapes -/

theorem reference_of_mem_references : ∀ r ∈ references, Reference ('&' :: (r.1 ++ [';'])) := by
  have hnumeral : ∀ digits ∈ ["13".toList, "10".toList, "09".toList], IsNumeral 10 digits ∧
      Text.inSpans charSpans (number 10 digits) = true := by decide
  have hdecimal : ∀ digits ∈ ["13".toList, "10".toList, "09".toList],
      Reference ('&' :: '#' :: (digits ++ [';'])) := fun digits hdigits =>
    .decimal (hnumeral digits hdigits).1 (hnumeral digits hdigits).2
  simp only [references, List.forall_mem_cons]
  exact ⟨.entity (by decide), .entity (by decide), .entity (by decide), .entity (by decide),
    hdecimal _ (by decide), hdecimal _ (by decide), hdecimal _ (by decide),
    List.forall_mem_nil _⟩

theorem isChar_of_mem_references : ∀ r ∈ references, isChar r.2 = true := by
  decide

theorem gt_notMem_escapeText (c : Char) : '>' ∉ escapeText c := by
  unfold escapeText
  split_ifs with hamp hlt hgt
  any_goals decide
  rw [List.mem_singleton]
  exact Ne.symm hgt

theorem lt_notMem_escapeValue (c : Char) : '<' ∉ escapeValue c := by
  unfold escapeValue
  split_ifs
  any_goals decide
  exact lt_notMem_escapeText c

namespace IsEscape

variable {f : Char → List Char}

/-- A character may stand in a document exactly if what is written for it may. -/
theorem permitted_iff (hf : IsEscape f) (c : Char) : Permitted (f c) ↔ isChar c = true := by
  rcases hf c with ⟨-, hfc⟩ | ⟨name, hname, hfc⟩
  · rw [hfc, permitted_cons, and_iff_left permitted_nil]
  · rw [hfc]
    exact iff_of_true (reference_of_mem_references _ hname).permitted
      (isChar_of_mem_references _ hname)

theorem kept_apply (hf : IsEscape f) (c : Char) :
    kept (f c) = if isChar c = true then f c else [] := by
  split_ifs with hc
  · exact kept_eq_self_iff.mpr ((hf.permitted_iff c).mpr hc)
  · rcases hf c with ⟨-, hfc⟩ | ⟨name, hname, hfc⟩
    · rw [hfc, kept_cons_of_not_isChar hc, kept_nil]
    · exact absurd (isChar_of_mem_references _ hname) hc

theorem permitted_flatMap_iff (hf : IsEscape f) (t : List Char) :
    Permitted (t.flatMap f) ↔ Permitted t := by
  rw [permitted_flatMap]
  exact forall₂_congr fun c _ => hf.permitted_iff c

theorem kept_flatMap (hf : IsEscape f) (t : List Char) :
    kept (t.flatMap f) = (kept t).flatMap f := by
  induction t with
  | nil => rfl
  | cons c t ih =>
      rw [List.flatMap_cons, kept_append, ih, hf.kept_apply]
      split_ifs with hc
      · rw [kept_cons_of_isChar hc, List.flatMap_cons]
      · rw [kept_cons_of_not_isChar hc, List.nil_append]

/-- What is written without the quote and without brackets is a value in quotes. -/
theorem value (hf : IsEscape f) {quote : Char} (hquote : ∀ c, quote ∉ f c)
    (hlt : ∀ c, '<' ∉ f c) {t : List Char} (ht : Permitted t) : Value quote (t.flatMap f) := by
  induction t with
  | nil => exact .nil
  | cons c t ih =>
      rw [permitted_cons] at ht
      rw [List.flatMap_cons]
      rcases hf c with ⟨hamp, hfc⟩ | ⟨name, hname, hfc⟩
      · have hne : ∀ {d : Char}, d ∉ f c → c ≠ d := by
          rintro d hd rfl
          exact hd (hfc ▸ List.mem_singleton_self c)
        rw [hfc]
        exact .char ht.1 (hne (hquote c)) (hne (hlt c)) hamp (ih ht.2)
      · rw [hfc]
        exact .reference (reference_of_mem_references _ hname) (ih ht.2)

end IsEscape

/-! ## Attributes -/

theorem assignment_quoted (name value : List Char) :
    Assignment name value '"' (' ' :: (name ++ '=' :: '"' :: (value ++ ['"']))) :=
  @Assignment.mk name value '"' [' '] [] [] (by decide) (List.cons_ne_nil _ _) (by decide)
    (by decide) (.inl rfl)

/-- Without what is forbidden an attribute has its name and what is kept of its value. -/
theorem kept_writeAttribute {a : String × String} (hname : Xml.IsName a.1.toList) :
    kept (writeAttribute a) =
      ' ' :: (a.1.toList ++ '=' :: '"' :: ((kept a.2.toList).flatMap escapeValue ++ ['"'])) := by
  have hwrite := writeAttribute_append a []
  rw [List.append_nil] at hwrite
  simp (disch := decide) only [hwrite, kept_append, kept_cons_of_isChar, kept_nil,
    kept_eq_self_iff.mpr hname.permitted, isEscape_escapeValue.kept_flatMap]

/-- Names that stand for themselves, no name twice. -/
structure ProperNames (names : List String) : Prop where
  all : ∀ name ∈ names, Xml.IsName name.toList
  nodup : names.Nodup

instance (names : List String) : Decidable (ProperNames names) :=
  decidable_of_iff ((∀ name ∈ names, Xml.IsName name.toList) ∧ names.Nodup)
    ⟨fun h => ⟨h.1, h.2⟩, fun h => ⟨h.all, h.nodup⟩⟩

theorem ProperNames.sublist {names names' : List String} (h : ProperNames names)
    (hsub : names'.Sublist names) : ProperNames names' :=
  ⟨fun name hname => h.all name (hsub.subset hname), h.nodup.sublist hsub⟩

theorem attributes_kept {attributes : List (String × String)}
    (hnames : ProperNames (attributes.map Prod.fst)) {space : List Char} (hspace : Spaces space) :
    Attributes ((attributes.map Prod.fst).map String.toList)
      (kept (attributes.flatMap writeAttribute) ++ space) := by
  induction attributes with
  | nil => exact .nil hspace
  | cons a attributes ih =>
      have hname : Xml.IsName a.1.toList := hnames.all _ List.mem_cons_self
      have hfresh : a.1.toList ∉ (attributes.map Prod.fst).map String.toList := by
        intro hmem
        obtain ⟨name, hmem, heq⟩ := List.mem_map.mp hmem
        rw [String.toList_injective heq] at hmem
        exact (List.nodup_cons.mp hnames.nodup).1 hmem
      rw [List.flatMap_cons, kept_append, List.append_assoc, kept_writeAttribute hname]
      exact .cons hname
        (isEscape_escapeValue.value quote_notMem_escapeValue lt_notMem_escapeValue
          (permitted_kept _))
        (assignment_quoted _ _) hfresh (ih (hnames.sublist (List.sublist_cons_self _ _)))

/-! ## Contents -/

/-- A text that is taken for no markup and for no end of a section. -/
structure Inert (t : List Char) : Prop where
  permitted : Permitted t
  notMem : ∀ c ∈ ['<', '&', '>'], c ∉ t

theorem inert_nil : Inert [] := ⟨permitted_nil, fun _ _ => List.not_mem_nil⟩

theorem not_sectionEnd {c : Char} (hc : c ∈ "]]>".toList) {t : List Char} (ht : c ∉ t) :
    ¬ "]]>".toList <:+: t := fun h => ht (h.subset hc)

theorem Inert.charData {t : List Char} (h : Inert t) : CharData t where
  permitted := h.permitted
  lt_notMem := h.notMem '<' (by decide)
  amp_notMem := h.notMem '&' (by decide)
  sectionEnd := not_sectionEnd (by decide) (h.notMem '>' (by decide))

/-- A text that is content after any characters without markup. -/
def Continues (rest : List Char) : Prop := ∀ t, Inert t → Derives .content (t ++ rest)

theorem continues_nil : Continues [] := fun t ht => by
  rw [List.append_nil]
  exact .text ht.charData

namespace Continues

variable {rest : List Char}

theorem element (h : Continues rest) {e : List Char} (he : Derives .element e) :
    Continues (e ++ rest) := fun _ ht => .child ht.charData he (h [] inert_nil)

theorem cdata (h : Continues rest) {s : List Char} (hs : Permitted s) (hend : ']' ∉ s) :
    Continues ("<![CDATA[".toList ++ (s ++ ("]]>".toList ++ rest))) := fun _ ht =>
  .cdata ht.charData hs (not_sectionEnd (by decide) hend) (h [] inert_nil)

theorem escapeText (h : Continues rest) {c : Char} (hc : isChar c = true) :
    Continues (Svg.escapeText c ++ rest) := by
  intro t ht
  rcases isEscape_escapeText c with ⟨hamp, hfc⟩ | ⟨name, hname, hfc⟩
  · -- The character goes on with the characters before it.
    have hlt := lt_notMem_escapeText c
    have hgt := gt_notMem_escapeText c
    rw [hfc, List.mem_singleton] at hlt hgt
    have hinert : Inert (t ++ [c]) := by
      refine ⟨permitted_append.mpr ⟨ht.permitted, permitted_cons.mpr ⟨hc, permitted_nil⟩⟩, ?_⟩
      intro d hd hmem
      rcases List.mem_append.mp hmem with hmem | hmem
      · exact ht.notMem d hd hmem
      · rw [List.mem_singleton] at hmem
        subst hmem
        simp [hamp, Ne.symm hlt, Ne.symm hgt] at hd
    rw [hfc, ← List.append_assoc]
    exact h _ hinert
  · rw [hfc]
    exact .reference ht.charData (reference_of_mem_references _ hname) (h [] inert_nil)

theorem text (h : Continues rest) {s : List Char} (hs : Permitted s) :
    Continues (s.flatMap Svg.escapeText ++ rest) := by
  induction s with
  | nil => exact h
  | cons c s ih =>
      rw [permitted_cons] at hs
      rw [List.flatMap_cons, List.append_assoc]
      exact (ih hs.2).escapeText hs.1

end Continues

namespace Node

/-! ## Trees -/

theorem permitted_writeAttribute (a : String × String) :
    Permitted (writeAttribute a) ↔ Permitted a.1.toList ∧ Permitted a.2.toList := by
  simp (disch := decide) [writeAttribute, isChar_of_le,
    isEscape_escapeValue.permitted_flatMap_iff]

theorem permitted_closing {tag : String} (htag : Permitted tag.toList) (content : List Node) :
    Permitted (closing tag content) ↔ ∀ n ∈ content, Permitted n.write := by
  by_cases hnil : content = []
  · rw [hnil]
    exact iff_of_true (by decide : Permitted " />".toList) (List.forall_mem_nil _)
  · have hclosing := closing_append hnil tag []
    rw [List.append_nil] at hclosing
    rw [hclosing]
    simp (disch := decide) [permitted_flatMap, isChar_of_le, htag]

theorem permitted_write_element {tag : String} {attributes : List (String × String)}
    {content : List Node} : Permitted (element tag attributes content).write ↔
      Permitted tag.toList ∧ (∀ a ∈ attributes, Permitted a.1.toList ∧ Permitted a.2.toList) ∧
        ∀ n ∈ content, Permitted n.write := by
  have hattributes : Permitted (attributes.flatMap writeAttribute) ↔
      ∀ a ∈ attributes, Permitted a.1.toList ∧ Permitted a.2.toList := by
    rw [permitted_flatMap]
    exact forall₂_congr fun a _ => permitted_writeAttribute a
  rw [write_element, permitted_append, permitted_append, permitted_cons, hattributes,
    and_iff_right (by decide : isChar '<' = true), and_assoc]
  exact and_congr_right fun htag => and_congr_right fun _ => permitted_closing htag content

theorem permitted_write_text {s : String} :
    Permitted (text s).write ↔ Permitted s.toList :=
  isEscape_escapeText.permitted_flatMap_iff _

theorem permitted_write_cdata {s : String} :
    Permitted (cdata s).write ↔ Permitted s.toList := by
  have hopening : Permitted "<![CDATA[".toList := by decide
  have hclosing : Permitted "]]>".toList := by decide
  have hwrite : (cdata s).write = "<![CDATA[".toList ++ s.toList ++ "]]>".toList := rfl
  rw [hwrite, permitted_append, permitted_append, and_iff_right hopening, and_iff_left hclosing]

/-- A tree with proper names whose style sheets cannot end their sections. -/
inductive Tidy : Node → Prop
  | element {tag : String} {attributes : List (String × String)} {content : List Node}
      (htag : Xml.IsName tag.toList) (hnames : ProperNames (attributes.map Prod.fst))
      (hcontent : ∀ n ∈ content, Tidy n) : Tidy (element tag attributes content)
  | text (s : String) : Tidy (text s)
  | cdata {s : String} (hs : ']' ∉ s.toList) : Tidy (cdata s)

theorem continues_kept_flatMap {content : List Node}
    (h : ∀ n ∈ content, ∀ {rest}, Continues rest → Continues (kept n.write ++ rest)) :
    Continues (kept (content.flatMap write)) := by
  induction content with
  | nil => exact continues_nil
  | cons n content ih =>
      rw [List.forall_mem_cons] at h
      rw [List.flatMap_cons, kept_append]
      exact h.1 (ih h.2)

/-- An element with proper names is balanced, and its attributes are quoted and escaped, if what it
holds may stand there. -/
theorem derives_kept_element {tag : String} {attributes : List (String × String)}
    {content : List Node} (htag : Xml.IsName tag.toList)
    (hnames : ProperNames (attributes.map Prod.fst))
    (hcontent : Continues (kept (content.flatMap write))) :
    Derives .element (kept (element tag attributes content).write) := by
  have htagged := kept_eq_self_iff.mpr htag.permitted
  have hwrite := write_element_append tag attributes content []
  rw [List.append_nil] at hwrite
  rw [hwrite]
  by_cases hnil : content = []
  · simp (disch := decide) only [hnil, closing_nil_append, kept_append, kept_cons_of_isChar,
      kept_nil, htagged]
    rw [List.append_cons]
    exact .single htag (attributes_kept hnames (by decide : Spaces [' ']))
  · have hattributes := attributes_kept hnames (by decide : Spaces [])
    rw [List.append_nil] at hattributes
    simp (disch := decide) only [closing_append hnil, kept_append, kept_cons_of_isChar, kept_nil,
      htagged]
    exact .tagged htag hattributes (hcontent [] inert_nil) (by decide : Spaces [])

/-- Without what is forbidden a tidy tree is content, before whatever may follow it. -/
theorem Tidy.continues {n : Node} (hn : n.Tidy) {rest : List Char} (h : Continues rest) :
    Continues (kept n.write ++ rest) := by
  induction hn generalizing rest with
  | element htag hnames hcontent ih =>
      exact h.element (derives_kept_element htag hnames
        (continues_kept_flatMap fun n hn _ => ih n hn))
  | text s =>
      have hwrite : kept (Node.text s).write = (kept s.toList).flatMap Svg.escapeText :=
        isEscape_escapeText.kept_flatMap _
      rw [hwrite]
      exact h.text (permitted_kept _)
  | @cdata s hs =>
      have hopening : kept "<![CDATA[".toList = "<![CDATA[".toList := by decide
      have hclosing : kept "]]>".toList = "]]>".toList := by decide
      have hwrite : (Node.cdata s).write = "<![CDATA[".toList ++ s.toList ++ "]]>".toList := rfl
      rw [hwrite, kept_append, kept_append, hopening, hclosing, List.append_assoc,
        List.append_assoc]
      exact h.cdata (permitted_kept _) fun hmem => hs (List.mem_of_mem_filter hmem)

theorem Tidy.derives {tag : String} {attributes : List (String × String)} {content : List Node}
    (h : (Node.element tag attributes content).Tidy) :
    Derives .element (kept (Node.element tag attributes content).write) := by
  cases h with
  | element htag hnames hcontent =>
      exact derives_kept_element htag hnames
        (continues_kept_flatMap fun n hn _ => (hcontent n hn).continues)

end Node

/-! ## Documents -/

theorem declaration_prolog : Declaration ("<?xml".toList ++
    (' ' :: ("version".toList ++ '=' :: '"' :: ("1.0".toList ++ ['"'])) ++
      (' ' :: ("encoding".toList ++ '=' :: '"' :: ("utf-8".toList ++ ['"'])) ++
        (" ".toList ++ "?>".toList)))) := by
  have hletters : "tf-8".toList.all isEncodingChar = true := by decide
  have hencoding : IsEncoding "utf-8".toList := .mk (by decide) (List.all_eq_true.mp hletters)
  exact .mk (assignment_quoted _ _) (assignment_quoted _ _) hencoding (by decide)

theorem toList_write (n : Node) : (write n).toList = declaration.toList ++ n.write := by
  rw [write, String.toList_append, String.toList_ofList]

/-- Without what is forbidden a tidy element is a document. -/
theorem wellFormed_kept_write {tag : String} {attributes : List (String × String)}
    {content : List Node} (h : (Node.element tag attributes content).Tidy) :
    WellFormed (String.ofList (kept (write (.element tag attributes content)).toList)) := by
  have hdeclaration : kept declaration.toList = declaration.toList := by decide
  have hline : Spaces ['\n'] := by decide
  have hrest : Spaces [] := by decide
  refine .mk declaration_prolog hline h.derives hrest ?_
  rw [String.toList_ofList, toList_write, kept_append, hdeclaration, List.append_nil,
    ← List.append_assoc]
  rfl

/-! ## Documents of canvases -/

theorem tidy_element {tag : String} {attributes : List (String × String)} {content : List Node}
    (htag : Xml.IsName tag.toList) (hnames : ProperNames (attributes.map Prod.fst))
    (hcontent : ∀ n ∈ content, n.Tidy) : (element tag attributes content).Tidy :=
  .element htag (hnames.sublist (List.filter_sublist.map _)) hcontent

theorem properNames_attributes (p : Primitive) : ProperNames (p.attributes.map Prod.fst) := by
  rw [p.map_fst_attributes]
  cases p <;> simp only [Primitive.names] <;> decide

theorem isName_tag (p : Primitive) : Xml.IsName p.tag.toList := by
  cases p <;> simp only [Primitive.tag] <;> decide

theorem tidy_node (p : Primitive) : p.node.Tidy := by
  refine tidy_element (isName_tag p) (properNames_attributes p) fun n hn => ?_
  cases p with
  | rect r => cases hn
  | line l => cases hn
  | text t =>
      simp only [Primitive.content, textContent] at hn
      split_ifs at hn
      · cases hn
      · rw [List.mem_singleton.mp hn]
        exact .text _

theorem tidy_definitions {sheet : String} (hsheet : ']' ∉ sheet.toList) :
    (definitions sheet).Tidy := by
  refine tidy_element (by decide) (by decide) fun n hn => ?_
  rw [List.mem_singleton.mp hn]
  refine tidy_element (by decide) (by decide) fun m hm => ?_
  split_ifs at hm
  · cases hm
  · rw [List.mem_singleton.mp hm]
    exact .cdata hsheet

theorem properNames_rootNames : ProperNames rootNames := by
  decide

theorem tidy_root (width height : String) {sheet : String} (hsheet : ']' ∉ sheet.toList)
    {elements : List Node} (helements : ∀ n ∈ elements, n.Tidy) :
    (root width height sheet elements).Tidy := by
  refine tidy_element (by decide) properNames_rootNames ?_
  rw [List.forall_mem_cons, List.forall_mem_cons]
  exact ⟨tidy_definitions hsheet,
    tidy_element (by decide) (by decide) (List.forall_mem_nil _), helements⟩

/-- Without what is forbidden the document of a canvas is well-formed. -/
theorem wellFormed_kept_render {files : Tree} {c : Canvas} {text : String}
    (h : render files c = .ok text) : WellFormed (String.ofList (kept text.toList)) := by
  obtain ⟨faces, hfaces, rfl⟩ := render_eq_ok h
  apply wellFormed_kept_write
  refine tidy_root _ _ (bracket_notMem_styleSheet fun _ => plain_of_mem_fontFaces hfaces) ?_
  intro n hn
  obtain ⟨p, -, rfl⟩ := List.mem_map.mp hn
  exact tidy_node p

/-- The document of a canvas is well-formed exactly if nothing in it is forbidden. -/
theorem wellFormed_render_iff {files : Tree} {c : Canvas} {text : String}
    (h : render files c = .ok text) : WellFormed text ↔ Permitted text.toList := by
  constructor
  · exact WellFormed.permitted
  · intro hpermitted
    have hkept := wellFormed_kept_render h
    rwa [kept_eq_self_iff.mpr hpermitted, String.ofList_toList] at hkept

/-! ## What may be forbidden -/

theorem isChar_of_isPlain {c : Char} (h : isPlain c = true) : isChar c = true := by
  simp only [isPlain, Bool.or_eq_true, decide_eq_true_eq] at h
  rcases h with (((h | rfl) | rfl) | rfl) | rfl
  · exact isChar_of_isAlphanum h
  all_goals decide

theorem permitted_of_isPlain {t : List Char} (h : ∀ c ∈ t, isPlain c = true) : Permitted t :=
  fun c hc => isChar_of_isPlain (h c hc)

theorem permitted_integerText (n : Int) : Permitted (integerText n).toList := by
  have hdigits : Permitted (digitsOf n) := fun c hc =>
    isChar_of_isAlphanum (by simp [Char.isAlphanum, isDigit_of_mem_digitsOf hc])
  rcases lt_or_ge n 0 with hn | hn
  · rw [toList_integerText_of_neg hn, permitted_cons]
    exact ⟨by decide, hdigits⟩
  · rw [toList_integerText hn]
    exact hdigits

theorem FontFace.Plain.permitted {f : FontFace} (h : f.Plain) : Permitted f.rule.toList := by
  have hfamily := permitted_of_isPlain h.family
  have hmediaType := permitted_of_isPlain h.mediaType
  have hbytes : Permitted (Text.base64 f.bytes) :=
    permitted_of_isPlain fun _ => isPlain_of_mem_base64
  rw [FontFace.toList_rule]
  simp only [permitted_append, permitted_cons, hfamily, hmediaType, hbytes, true_and]
  decide

theorem permitted_styleSheet {faces : List FontFace} (hplain : ∀ f ∈ faces, f.Plain) :
    Permitted (styleSheet faces).toList := by
  cases faces with
  | nil => exact permitted_nil
  | cons f faces =>
      rw [List.forall_mem_cons] at hplain
      rw [toList_styleSheet_cons, permitted_append, permitted_flatMap]
      exact ⟨hplain.1.permitted, fun g hg =>
        permitted_cons.mpr ⟨by decide, (hplain.2 g hg).permitted⟩⟩

/-- An element with permitted values holds what its content holds. -/
theorem permitted_element {tag : String} {attributes : List (String × String)}
    {content : List Node} (htag : Xml.IsName tag.toList)
    (hnames : ProperNames (attributes.map Prod.fst))
    (hvalues : ∀ a ∈ attributes, Permitted a.2.toList) :
    Permitted (element tag attributes content).write ↔ ∀ n ∈ content, Permitted n.write := by
  rw [element, Node.permitted_write_element, and_iff_right htag.permitted, and_iff_right]
  intro a ha
  have hmem := List.mem_of_mem_filter ha
  exact ⟨(hnames.all _ (List.mem_map_of_mem hmem)).permitted, hvalues a hmem⟩

theorem permitted_definitions {sheet : String} (hsheet : Permitted sheet.toList) :
    Permitted (definitions sheet).write := by
  refine (permitted_element (by decide) (by decide) (by decide)).mpr fun n hn => ?_
  rw [List.mem_singleton.mp hn]
  refine (permitted_element (by decide) (by decide) (by decide)).mpr fun m hm => ?_
  split_ifs at hm
  · cases hm
  · rw [List.mem_singleton.mp hm]
    exact Node.permitted_write_cdata.mpr hsheet

theorem permitted_root_iff {width height sheet : String} (hwidth : Permitted width.toList)
    (hheight : Permitted height.toList) (hsheet : Permitted sheet.toList) {elements : List Node} :
    Permitted (write (root width height sheet elements)).toList ↔
      ∀ n ∈ elements, Permitted n.write := by
  have hdeclaration : Permitted declaration.toList := by decide
  have hground : Permitted ground.write := by decide
  have hzeros : Permitted "0 0 ".toList := by decide
  have hspace : Permitted " ".toList := by decide
  rw [toList_write, permitted_append, and_iff_right hdeclaration]
  refine (permitted_element (by decide) ?_ ?_).trans ?_
  · exact properNames_rootNames
  · simp only [List.forall_mem_cons, String.toList_append, permitted_append, hwidth, hheight,
      hzeros, hspace, and_self, true_and]
    decide
  · rw [List.forall_mem_cons, List.forall_mem_cons,
      and_iff_right (permitted_definitions hsheet), and_iff_right hground]

/-- In the document of a canvas only its primitives may hold what is forbidden. -/
theorem permitted_render_iff {files : Tree} {c : Canvas} {text : String}
    (h : render files c = .ok text) :
    Permitted text.toList ↔ ∀ p ∈ c.primitives, Permitted p.node.write := by
  obtain ⟨faces, hfaces, rfl⟩ := render_eq_ok h
  rw [permitted_root_iff (permitted_integerText _) (permitted_integerText _)
    (permitted_styleSheet fun _ => plain_of_mem_fontFaces hfaces), List.forall_mem_map]

theorem permitted_color (c : Color) : Permitted c.name.toList := by
  cases c <;> decide

theorem permitted_rect {r : Rect} (hfill : Permitted r.fill.toList)
    (hstroke : Permitted r.stroke.toList) : Permitted (Primitive.rect r).node.write := by
  refine (permitted_element (isName_tag _) (properNames_attributes _) ?_).mpr
    (List.forall_mem_nil _)
  simp only [Primitive.attributes, List.forall_mem_cons]
  exact ⟨hfill, permitted_integerText _, hstroke, permitted_integerText _,
    permitted_integerText _, permitted_integerText _, permitted_integerText _,
    List.forall_mem_nil _⟩

theorem permitted_textContent_iff {s : String} :
    (∀ n ∈ textContent s, Permitted n.write) ↔ Permitted s.toList := by
  unfold textContent
  split_ifs with hs
  · rw [hs]
    exact iff_of_true (List.forall_mem_nil _) permitted_nil
  · rw [List.forall_mem_singleton, Node.permitted_write_text]

/-- Of a text in a permitted style only its characters may be forbidden. -/
theorem permitted_text_iff {t : TextLine} (hcolor : Permitted t.color.toList)
    (hfamily : Permitted t.family.toList) (hweight : Permitted t.weight.toList)
    (hanchor : Permitted (t.anchor.getD "").toList) :
    Permitted (Primitive.text t).node.write ↔ Permitted t.text.toList := by
  refine (permitted_element (isName_tag _) (properNames_attributes _) ?_).trans
    permitted_textContent_iff
  simp only [Primitive.attributes, List.forall_mem_cons]
  exact ⟨hcolor, hfamily, permitted_integerText _, hweight, hanchor, permitted_integerText _,
    permitted_integerText _, List.forall_mem_nil _⟩

end LabelPress.Svg
