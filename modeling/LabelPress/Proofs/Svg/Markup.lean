import LabelPress.Proofs.Text.Delimiters
import LabelPress.Svg.Node
import Mathlib.Tactic.MkIffOfInductiveProp

/-!
# Trees are read back

No text or attribute value holds the character that ends it, and a reference names its character.
A tree in which tags and attributes are named by words, texts stand alone in their elements, and
style sheets cannot end their section is therefore the only one with its text.
-/

namespace LabelPress.Svg

open LabelPress.Text

/-! ## References -/

/-- The names of characters that are not written as they are. -/
def references : List (List Char × Char) :=
  [("amp".toList, '&'), ("lt".toList, '<'), ("gt".toList, '>'), ("quot".toList, '"'),
    ("#13".toList, '\r'), ("#10".toList, '\n'), ("#09".toList, '\t')]

theorem semicolon_notMem_of_mem_references : ∀ r ∈ references, ';' ∉ r.1 := by
  decide

theorem eq_of_mem_references :
    ∀ r ∈ references, ∀ r' ∈ references, r.1 = r'.1 → r.2 = r'.2 := by
  decide

/-- A way to write characters in which each stands for itself or is referred to by its name. -/
def IsEscape (f : Char → List Char) : Prop :=
  ∀ c, (c ≠ '&' ∧ f c = [c]) ∨
    ∃ name, (name, c) ∈ references ∧ f c = '&' :: (name ++ [';'])

theorem isEscape_escapeText : IsEscape escapeText := by
  intro c
  rcases eq_or_ne c '&' with rfl | hamp
  · exact .inr ⟨"amp".toList, by decide, rfl⟩
  rcases eq_or_ne c '<' with rfl | hlt
  · exact .inr ⟨"lt".toList, by decide, rfl⟩
  rcases eq_or_ne c '>' with rfl | hgt
  · exact .inr ⟨"gt".toList, by decide, rfl⟩
  · left
    rw [escapeText, if_neg hamp, if_neg hlt, if_neg hgt]
    exact ⟨hamp, rfl⟩

theorem isEscape_escapeValue : IsEscape escapeValue := by
  intro c
  rcases eq_or_ne c '"' with rfl | hquot
  · exact .inr ⟨"quot".toList, by decide, rfl⟩
  rcases eq_or_ne c '\r' with rfl | hcr
  · exact .inr ⟨"#13".toList, by decide, rfl⟩
  rcases eq_or_ne c '\n' with rfl | hlf
  · exact .inr ⟨"#10".toList, by decide, rfl⟩
  rcases eq_or_ne c '\t' with rfl | htab
  · exact .inr ⟨"#09".toList, by decide, rfl⟩
  · rw [escapeValue, if_neg hquot, if_neg hcr, if_neg hlf, if_neg htab]
    exact isEscape_escapeText c

theorem lt_notMem_escapeText (c : Char) : '<' ∉ escapeText c := by
  unfold escapeText
  split_ifs with hamp hlt
  any_goals decide
  rw [List.mem_singleton]
  exact Ne.symm hlt

theorem quote_notMem_escapeValue (c : Char) : '"' ∉ escapeValue c := by
  unfold escapeValue escapeText
  split_ifs with hquot
  any_goals decide
  rw [List.mem_singleton]
  exact Ne.symm hquot

namespace IsEscape

variable {f : Char → List Char}

theorem append_inj (hf : IsEscape f) {a b : Char} {t u : List Char} (h : f a ++ t = f b ++ u) :
    a = b ∧ t = u := by
  rcases hf a with ⟨ha, hfa⟩ | ⟨name, hname, hfa⟩ <;>
    rcases hf b with ⟨hb, hfb⟩ | ⟨name', hname', hfb⟩ <;>
    rw [hfa, hfb] at h
  · exact List.cons.inj h
  · exact absurd (List.cons.inj h).1 ha
  · exact absurd (List.cons.inj h).1.symm hb
  · simp only [List.cons_append, List.append_assoc, List.nil_append, List.cons.injEq,
      true_and] at h
    obtain ⟨hnames, htu⟩ := append_cons_inj_of_notMem
      (semicolon_notMem_of_mem_references _ hname) (semicolon_notMem_of_mem_references _ hname') h
    exact ⟨eq_of_mem_references _ hname _ hname' hnames, htu⟩

theorem ne_nil (hf : IsEscape f) (c : Char) : f c ≠ [] := by
  rcases hf c with ⟨-, hfc⟩ | ⟨name, -, hfc⟩ <;> rw [hfc] <;> exact List.cons_ne_nil _ _

/-- A text is written without the character that ends it, and so it is found again. -/
theorem flatMap_append_inj (hf : IsEscape f) {stop : Char} (hstop : ∀ c, stop ∉ f c)
    {x y t u : List Char} (h : x.flatMap f ++ stop :: t = y.flatMap f ++ stop :: u) :
    x = y ∧ t = u := by
  have hfree : ∀ z : List Char, stop ∉ z.flatMap f := by
    intro z hz
    obtain ⟨c, -, hc⟩ := List.mem_flatMap.mp hz
    exact hstop c hc
  obtain ⟨hxy, htu⟩ := append_cons_inj_of_notMem (hfree x) (hfree y) h
  have hstarts : ∀ c (v : List Char), f c ++ v ≠ [] := fun c v =>
    List.append_ne_nil_of_left_ne_nil (hf.ne_nil c) v
  obtain ⟨rfl, -⟩ := Text.flatMap_append_inj (r := []) (s := []) (fun a _ b _ _ _ => hf.append_inj)
    (fun c _ => hstarts c) (fun c _ => hstarts c) (congrArg (· ++ []) hxy)
  exact ⟨rfl, htu⟩

end IsEscape

/-! ## Tags and attributes -/

/-- Whether a character may stand in the name of a tag or an attribute. -/
def isNameChar (c : Char) : Bool := c.isAlphanum || c = '-' || c = ':'

/-- A name of a tag or an attribute. -/
@[mk_iff]
structure IsName (s : String) : Prop where
  ne_nil : s.toList ≠ []
  all : ∀ c ∈ s.toList, isNameChar c = true

instance (s : String) : Decidable (IsName s) :=
  decidable_of_iff (s.toList ≠ [] ∧ s.toList.all isNameChar = true)
    (by rw [isName_iff, List.all_eq_true])

theorem writeAttribute_append (a : String × String) (t : List Char) :
    writeAttribute a ++ t =
      ' ' :: (a.1.toList ++ '=' :: '"' :: (a.2.toList.flatMap escapeValue ++ '"' :: t)) := by
  simp [writeAttribute]

theorem writeAttribute_append_inj {a b : String × String} (ha : IsName a.1) (hb : IsName b.1)
    {t u : List Char} (h : writeAttribute a ++ t = writeAttribute b ++ u) : a = b ∧ t = u := by
  rw [writeAttribute_append, writeAttribute_append] at h
  obtain ⟨hname, -, hvalue⟩ := append_cons_inj_of_all ha.all hb.all (by decide) (by decide)
    (List.cons.inj h).2
  obtain ⟨hvalue, htu⟩ := isEscape_escapeValue.flatMap_append_inj quote_notMem_escapeValue
    (List.cons.inj hvalue).2
  exact ⟨Prod.ext (String.toList_injective hname) (String.toList_injective hvalue), htu⟩

/-- A text that ends the tag that it stands in. -/
inductive EndsTag : List Char → Prop
  | bracket (t : List Char) : EndsTag ('>' :: t)
  | slash (t : List Char) : EndsTag (' ' :: '/' :: t)

theorem EndsTag.ne_writeAttribute {t : List Char} (ht : EndsTag t) {a : String × String}
    (ha : IsName a.1) (u : List Char) : writeAttribute a ++ u ≠ t := by
  rw [writeAttribute_append]
  obtain ⟨c, rest, hc⟩ := List.exists_cons_of_ne_nil ha.ne_nil
  have hname : isNameChar c = true := ha.all c (hc ▸ List.mem_cons_self)
  cases ht with
  | bracket t => simp
  | slash t =>
      rw [hc]
      intro h
      simp only [List.cons_append, List.cons.injEq, true_and] at h
      rw [h.1] at hname
      exact absurd hname (by decide)

/-- A name with attributes is followed by a character that is in no name. -/
theorem exists_cons_of_endsTag (attributes : List (String × String)) {t : List Char}
    (ht : EndsTag t) :
    ∃ d u, isNameChar d = false ∧ attributes.flatMap writeAttribute ++ t = d :: u := by
  cases attributes with
  | nil =>
      cases ht with
      | bracket t => exact ⟨'>', t, by decide, rfl⟩
      | slash t => exact ⟨' ', '/' :: t, by decide, rfl⟩
  | cons a attributes =>
      rw [List.flatMap_cons, List.append_assoc, writeAttribute_append]
      exact ⟨' ', _, by decide, rfl⟩

theorem opening_append_inj {tag tag' : String} {attributes attributes' : List (String × String)}
    (htag : IsName tag) (htag' : IsName tag') (hnames : ∀ a ∈ attributes, IsName a.1)
    (hnames' : ∀ a ∈ attributes', IsName a.1) {t u : List Char} (ht : EndsTag t) (hu : EndsTag u)
    (h : tag.toList ++ (attributes.flatMap writeAttribute ++ t) =
      tag'.toList ++ (attributes'.flatMap writeAttribute ++ u)) :
    tag = tag' ∧ attributes = attributes' ∧ t = u := by
  obtain ⟨d, v, hd, hv⟩ := exists_cons_of_endsTag attributes ht
  obtain ⟨e, w, he, hw⟩ := exists_cons_of_endsTag attributes' hu
  rw [hv, hw] at h
  obtain ⟨hname, rfl, rfl⟩ := append_cons_inj_of_all htag.all htag'.all hd he h
  obtain ⟨rfl, htu⟩ := flatMap_append_inj
    (fun a ha b hb _ _ => writeAttribute_append_inj (hnames a ha) (hnames' b hb))
    (fun b hb => ht.ne_writeAttribute (hnames' b hb))
    (fun a ha => hu.ne_writeAttribute (hnames a ha)) (hv.trans hw.symm)
  exact ⟨String.toList_injective hname, rfl, htu⟩

namespace Node

/-! ## Trees -/

theorem writeAll_eq_flatMap (ns : List Node) : writeAll ns = ns.flatMap write := by
  induction ns with
  | nil => rfl
  | cons n ns ih => rw [List.flatMap_cons, ← ih]; rfl

/-- What stands in an element after its attributes. -/
def closing (tag : String) (content : List Node) : List Char :=
  if content.isEmpty then " />".toList
  else '>' :: writeAll content ++ '<' :: '/' :: tag.toList ++ ['>']

theorem closing_nil_append (tag : String) (t : List Char) :
    closing tag [] ++ t = ' ' :: '/' :: '>' :: t := rfl

theorem closing_append {content : List Node} (hcontent : content ≠ []) (tag : String)
    (t : List Char) : closing tag content ++ t =
      '>' :: (content.flatMap write ++ '<' :: '/' :: (tag.toList ++ '>' :: t)) := by
  simp [closing, hcontent, writeAll_eq_flatMap]

theorem write_element (tag : String) (attributes : List (String × String)) (content : List Node) :
    (element tag attributes content).write =
      '<' :: tag.toList ++ attributes.flatMap writeAttribute ++ closing tag content := by
  have hwrite : (element tag attributes content).write =
      if content.isEmpty then '<' :: tag.toList ++ attributes.flatMap writeAttribute ++ " />".toList
      else '<' :: tag.toList ++ attributes.flatMap writeAttribute ++ '>' :: writeAll content
        ++ '<' :: '/' :: tag.toList ++ ['>'] := rfl
  rw [hwrite, closing]
  split_ifs
  · rfl
  · simp

theorem write_element_append (tag : String) (attributes : List (String × String))
    (content : List Node) (t : List Char) : (element tag attributes content).write ++ t =
      '<' :: (tag.toList ++ (attributes.flatMap writeAttribute ++ (closing tag content ++ t))) := by
  simp [write_element]

theorem write_cdata_append (s : String) (t : List Char) : (cdata s).write ++ t =
    '<' :: '!' :: ("[CDATA[".toList ++ (s.toList ++ ']' :: ']' :: '>' :: t)) := by
  have hwrite : (cdata s).write = "<![CDATA[".toList ++ s.toList ++ "]]>".toList := rfl
  simp [hwrite]

theorem endsTag_closing_append (tag : String) (content : List Node) (t : List Char) :
    EndsTag (closing tag content ++ t) := by
  by_cases hcontent : content = []
  · rw [hcontent, closing_nil_append]
    exact .slash _
  · rw [closing_append hcontent]
    exact .bracket _

/-- A tree that can be read back: texts that follow each other would run together, so a text is all
that its element holds. -/
inductive Regular : Node → Prop
  | textElement {tag : String} {attributes : List (String × String)} {s : String}
      (htag : IsName tag) (hnames : ∀ a ∈ attributes, IsName a.1) (hs : s ≠ "") :
      Regular (element tag attributes [text s])
  | element {tag : String} {attributes : List (String × String)} {content : List Node}
      (htag : IsName tag) (hnames : ∀ a ∈ attributes, IsName a.1)
      (hcontent : ∀ n ∈ content, Regular n) : Regular (element tag attributes content)
  | cdata {s : String} (hs : ']' ∉ s.toList) : Regular (cdata s)

/-- An element starts with a bracket and a character of its name. -/
theorem exists_write_element_append {tag : String} (htag : IsName tag)
    (attributes : List (String × String)) (content : List Node) (t : List Char) :
    ∃ c rest, isNameChar c = true ∧
      (element tag attributes content).write ++ t = '<' :: c :: rest := by
  obtain ⟨c, rest, hc⟩ := List.exists_cons_of_ne_nil htag.ne_nil
  rw [write_element_append, hc]
  exact ⟨c, _, htag.all c (hc ▸ List.mem_cons_self), rfl⟩

/-- A piece that can be read back starts with a bracket and is no end of an element. -/
theorem Regular.exists_write_append {n : Node} (hn : n.Regular) (t : List Char) :
    ∃ c rest, (isNameChar c = true ∨ c = '!') ∧ n.write ++ t = '<' :: c :: rest := by
  cases hn with
  | textElement htag hnames hs =>
      obtain ⟨c, rest, hc, h⟩ := exists_write_element_append htag _ _ t
      exact ⟨c, rest, .inl hc, h⟩
  | element htag hnames hcontent =>
      obtain ⟨c, rest, hc, h⟩ := exists_write_element_append htag _ _ t
      exact ⟨c, rest, .inl hc, h⟩
  | cdata hs => exact ⟨'!', _, .inr rfl, write_cdata_append _ t⟩

theorem Regular.append_ne_ending {n : Node} (hn : n.Regular) (t u : List Char) :
    n.write ++ t ≠ '<' :: '/' :: u := by
  intro h
  obtain ⟨c, rest, hc, hwrite⟩ := hn.exists_write_append t
  rw [hwrite, List.cons.injEq, List.cons.injEq] at h
  rw [h.2.1] at hc
  exact absurd hc (by decide)

theorem write_element_append_ne_cdata {tag : String} (htag : IsName tag)
    (attributes : List (String × String)) (content : List Node) (s : String) (t u : List Char) :
    (element tag attributes content).write ++ t ≠ (cdata s).write ++ u := by
  intro h
  obtain ⟨c, rest, hc, hwrite⟩ := exists_write_element_append htag attributes content t
  rw [hwrite, write_cdata_append, List.cons.injEq, List.cons.injEq] at h
  rw [h.2.1] at hc
  exact absurd hc (by decide)

theorem closing_text_append (tag s : String) (t : List Char) : closing tag [text s] ++ t =
    '>' :: (s.toList.flatMap escapeText ++ '<' :: '/' :: (tag.toList ++ '>' :: t)) := by
  have hwrite : [text s].flatMap write = s.toList.flatMap escapeText := List.append_nil _
  rw [closing_append (List.cons_ne_nil _ _), hwrite]

theorem closing_text_append_inj {tag s s' : String} {t u : List Char}
    (h : closing tag [text s] ++ t = closing tag [text s'] ++ u) :
    [text s] = [text s'] ∧ t = u := by
  rw [closing_text_append, closing_text_append] at h
  obtain ⟨hs, htu⟩ := isEscape_escapeText.flatMap_append_inj lt_notMem_escapeText
    (List.cons.inj h).2
  rw [String.toList_injective hs]
  exact ⟨rfl, (List.cons.inj (List.append_cancel_left (List.cons.inj htu).2)).2⟩

/-- A text is not taken for pieces that start with a bracket. -/
theorem closing_text_append_ne {tag s : String} (hs : s ≠ "") {content : List Node}
    (hcontent : ∀ n ∈ content, n.Regular) (t u : List Char) :
    closing tag [text s] ++ t ≠ closing tag content ++ u := by
  intro h
  -- The text is not empty, so its first character is written, and never as a bracket.
  obtain ⟨c, cs, hc⟩ := List.exists_cons_of_ne_nil (mt String.toList_eq_nil_iff.mp hs)
  obtain ⟨d, ds, hd⟩ := List.exists_cons_of_ne_nil (isEscape_escapeText.ne_nil c)
  rw [closing_text_append, hc, List.flatMap_cons, List.append_assoc, hd] at h
  cases content with
  | nil =>
      rw [closing_nil_append] at h
      exact absurd (List.cons.inj h).1 (by decide)
  | cons n content =>
      obtain ⟨e, rest, -, hn⟩ := (hcontent n List.mem_cons_self).exists_write_append
        (content.flatMap write ++ '<' :: '/' :: (tag.toList ++ '>' :: u))
      rw [closing_append (List.cons_ne_nil _ _), List.flatMap_cons, List.append_assoc, hn] at h
      have hlt : d = '<' := (List.cons.inj (List.cons.inj h).2).1
      exact lt_notMem_escapeText c (hd ▸ hlt ▸ List.mem_cons_self)

theorem closing_append_inj {tag : String} {content content' : List Node}
    (hcontent : ∀ n ∈ content, n.Regular) (hcontent' : ∀ n ∈ content', n.Regular)
    (hcode : ∀ a ∈ content, ∀ b ∈ content', ∀ t u, a.write ++ t = b.write ++ u → a = b ∧ t = u)
    {t u : List Char} (h : closing tag content ++ t = closing tag content' ++ u) :
    content = content' ∧ t = u := by
  by_cases hnil : content = [] <;> by_cases hnil' : content' = []
  · rw [hnil, hnil', closing_nil_append, closing_nil_append] at h
    exact ⟨hnil.trans hnil'.symm, by simpa using h⟩
  · rw [hnil, closing_nil_append, closing_append hnil'] at h
    exact absurd (List.cons.inj h).1 (by decide)
  · rw [hnil', closing_nil_append, closing_append hnil] at h
    exact absurd (List.cons.inj h).1 (by decide)
  · rw [closing_append hnil, closing_append hnil'] at h
    obtain ⟨hnodes, htu⟩ := flatMap_append_inj hcode
      (fun b hb v => (hcontent' b hb).append_ne_ending v _)
      (fun a ha v => (hcontent a ha).append_ne_ending v _) (List.cons.inj h).2
    have htail := (List.cons.inj (List.cons.inj htu).2).2
    exact ⟨hnodes, (List.cons.inj (List.append_cancel_left htail)).2⟩

/-- Elements are told apart if their contents are. -/
theorem write_element_append_inj {tag tag' : String}
    {attributes attributes' : List (String × String)} {content content' : List Node}
    (htag : IsName tag) (htag' : IsName tag') (hnames : ∀ a ∈ attributes, IsName a.1)
    (hnames' : ∀ a ∈ attributes', IsName a.1)
    (hcontent : ∀ {t u : List Char}, closing tag content ++ t = closing tag content' ++ u →
      content = content' ∧ t = u) {t u : List Char}
    (h : (element tag attributes content).write ++ t =
      (element tag' attributes' content').write ++ u) :
    element tag attributes content = element tag' attributes' content' ∧ t = u := by
  rw [write_element_append, write_element_append] at h
  obtain ⟨rfl, rfl, hclosing⟩ := opening_append_inj htag htag' hnames hnames'
    (endsTag_closing_append _ _ _) (endsTag_closing_append _ _ _) (List.cons.inj h).2
  obtain ⟨rfl, htu⟩ := hcontent hclosing
  exact ⟨rfl, htu⟩

/-- A tree that can be read back is the only one with its text, whatever follows. -/
theorem Regular.append_inj {n m : Node} (hn : n.Regular) (hm : m.Regular) {t u : List Char}
    (h : n.write ++ t = m.write ++ u) : n = m ∧ t = u := by
  -- An element shows what it is by its name and attributes. Only where both trees hold pieces of
  -- their own does the hypothesis about these pieces come in.
  induction hn generalizing m t u with
  | textElement htag hnames hs =>
      cases hm with
      | textElement htag' hnames' hs' =>
          exact write_element_append_inj htag htag' hnames hnames' closing_text_append_inj h
      | element htag' hnames' hcontent' =>
          refine write_element_append_inj htag htag' hnames hnames' (fun hclosing => ?_) h
          exact absurd hclosing (closing_text_append_ne hs hcontent' _ _)
      | cdata hs' => exact absurd h (write_element_append_ne_cdata htag _ _ _ _ _)
  | element htag hnames hcontent ih =>
      cases hm with
      | textElement htag' hnames' hs' =>
          refine write_element_append_inj htag htag' hnames hnames' (fun hclosing => ?_) h
          exact absurd hclosing.symm (closing_text_append_ne hs' hcontent _ _)
      | element htag' hnames' hcontent' =>
          refine write_element_append_inj htag htag' hnames hnames' ?_ h
          exact closing_append_inj hcontent hcontent' fun a ha b hb _ _ => ih a ha (hcontent' b hb)
      | cdata hs' => exact absurd h (write_element_append_ne_cdata htag _ _ _ _ _)
  | cdata hs =>
      cases hm with
      | textElement htag' hnames' hs' =>
          exact absurd h.symm (write_element_append_ne_cdata htag' _ _ _ _ _)
      | element htag' hnames' hcontent' =>
          exact absurd h.symm (write_element_append_ne_cdata htag' _ _ _ _ _)
      | cdata hs' =>
          rw [write_cdata_append, write_cdata_append] at h
          obtain ⟨hsheet, htu⟩ := append_cons_inj_of_notMem hs hs'
            (List.append_cancel_left (List.cons.inj (List.cons.inj h).2).2)
          rw [String.toList_injective hsheet]
          exact ⟨rfl, (List.cons.inj (List.cons.inj htu).2).2⟩

end Node

end LabelPress.Svg
