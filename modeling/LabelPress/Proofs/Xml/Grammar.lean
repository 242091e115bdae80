import LabelPress.Text.Hex
import LabelPress.Text.Span
import Mathlib.Data.List.Basic

/-!
# Well-formed documents

The grammar of XML 1.0 as a relation between parts and texts: a declaration, then one element whose
tags are balanced, whose attributes are quoted and escaped and have names of their own, and whose
texts hold no markup. Comments, processing instructions and document types are left out. Whatever a
document is made of, it holds permitted characters only.
-/

namespace LabelPress.Xml

open LabelPress.Text

/-! ## Characters -/

/-- The code points of the characters that may stand in a document. -/
def charSpans : List Span :=
  [(0x9, 0xA), (0xD, 0xD), (0x20, 0xD7FF), (0xE000, 0xFFFD), (0x10000, 0x10FFFF)]

/-- Whether a character may stand in a document. -/
def isChar (c : Char) : Bool := inSpans charSpans c.toNat

/-- A text of characters that may stand in a document. -/
def Permitted (t : List Char) : Prop := ∀ c ∈ t, isChar c = true

instance (t : List Char) : Decidable (Permitted t) :=
  decidable_of_iff (t.all isChar = true) List.all_eq_true

@[simp] theorem permitted_nil : Permitted [] := List.forall_mem_nil _

@[simp] theorem permitted_cons {c : Char} {t : List Char} :
    Permitted (c :: t) ↔ isChar c = true ∧ Permitted t :=
  List.forall_mem_cons

@[simp] theorem permitted_append {t u : List Char} :
    Permitted (t ++ u) ↔ Permitted t ∧ Permitted u :=
  List.forall_mem_append

theorem permitted_flatMap {α : Type} {f : α → List Char} {xs : List α} :
    Permitted (xs.flatMap f) ↔ ∀ x ∈ xs, Permitted (f x) :=
  List.forall_mem_flatMap

/-- A text without the characters that may not stand in a document. -/
def kept (t : List Char) : List Char := t.filter isChar

@[simp] theorem kept_nil : kept [] = [] := rfl

theorem kept_cons_of_isChar {c : Char} (h : isChar c = true) (t : List Char) :
    kept (c :: t) = c :: kept t :=
  List.filter_cons_of_pos h

theorem kept_cons_of_not_isChar {c : Char} (h : ¬ isChar c = true) (t : List Char) :
    kept (c :: t) = kept t :=
  List.filter_cons_of_neg h

@[simp] theorem kept_append (t u : List Char) : kept (t ++ u) = kept t ++ kept u :=
  List.filter_append ..

theorem kept_eq_self_iff {t : List Char} : kept t = t ↔ Permitted t := List.filter_eq_self

theorem permitted_kept (t : List Char) : Permitted (kept t) := fun _ => List.of_mem_filter

/-- Whether a character separates the words of a tag. -/
def isSpace (c : Char) : Bool := c = ' ' || c = '\t' || c = '\r' || c = '\n'

/-- Spaces only, or nothing. -/
def Spaces (t : List Char) : Prop := ∀ c ∈ t, isSpace c = true

instance (t : List Char) : Decidable (Spaces t) :=
  decidable_of_iff (t.all isSpace = true) List.all_eq_true

/-! ## Names -/

/-- The code points of the characters that a name may start with. -/
def nameStartSpans : List Span :=
  [(0x3A, 0x3A), (0x41, 0x5A), (0x5F, 0x5F), (0x61, 0x7A), (0xC0, 0xD6), (0xD8, 0xF6),
   (0xF8, 0x2FF), (0x370, 0x37D), (0x37F, 0x1FFF), (0x200C, 0x200D), (0x2070, 0x218F),
   (0x2C00, 0x2FEF), (0x3001, 0xD7FF), (0xF900, 0xFDCF), (0xFDF0, 0xFFFD), (0x10000, 0xEFFFF)]

/-- The code points of the characters of names. -/
def nameSpans : List Span :=
  nameStartSpans ++
    [(0x2D, 0x2E), (0x30, 0x39), (0xB7, 0xB7), (0x300, 0x36F), (0x203F, 0x2040)]

/-- A name of an element or an attribute. -/
structure IsName (t : List Char) : Prop where
  start : (t.head?.any fun c => inSpans nameStartSpans c.toNat) = true
  all : ∀ c ∈ t, inSpans nameSpans c.toNat = true

instance (t : List Char) : Decidable (IsName t) :=
  decidable_of_iff
    ((t.head?.any fun c => inSpans nameStartSpans c.toNat) = true ∧
      (t.all fun c => inSpans nameSpans c.toNat) = true)
    ⟨fun h => ⟨h.1, List.all_eq_true.mp h.2⟩, fun h => ⟨h.start, List.all_eq_true.mpr h.all⟩⟩

/-- Whether a character may follow the first letter of the name of an encoding. -/
def isEncodingChar (c : Char) : Bool := c.isAlphanum || c = '.' || c = '_' || c = '-'

/-- A name of an encoding. -/
inductive IsEncoding : List Char → Prop
  | mk {c : Char} {t : List Char} (hc : c.isAlpha = true) (ht : ∀ d ∈ t, isEncodingChar d = true) :
      IsEncoding (c :: t)

/-! ## References -/

/-- The entities that need no declaration. -/
def entities : List (List Char) :=
  ["amp".toList, "lt".toList, "gt".toList, "apos".toList, "quot".toList]

/-- The digits of a number to a base. -/
structure IsNumeral (base : Nat) (digits : List Char) : Prop where
  ne_nil : digits ≠ []
  all : ∀ c ∈ digits, (hexValue? c).any (· < base) = true

instance (base : Nat) (digits : List Char) : Decidable (IsNumeral base digits) :=
  decidable_of_iff (digits ≠ [] ∧ (digits.all fun c => (hexValue? c).any (· < base)) = true)
    ⟨fun h => ⟨h.1, List.all_eq_true.mp h.2⟩, fun h => ⟨h.ne_nil, List.all_eq_true.mpr h.all⟩⟩

/-- The number that digits to a base write. -/
def number (base : Nat) (digits : List Char) : Nat :=
  digits.foldl (fun n c => n * base + (hexValue? c).getD 0) 0

/-- A reference to an entity or to a permitted character. -/
inductive Reference : List Char → Prop
  | entity {name : List Char} (hname : name ∈ entities) : Reference ('&' :: (name ++ [';']))
  | decimal {digits : List Char} (hdigits : IsNumeral 10 digits)
      (hchar : inSpans charSpans (number 10 digits) = true) :
      Reference ('&' :: '#' :: (digits ++ [';']))
  | hexadecimal {digits : List Char} (hdigits : IsNumeral 16 digits)
      (hchar : inSpans charSpans (number 16 digits) = true) :
      Reference ('&' :: '#' :: 'x' :: (digits ++ [';']))

/-! ## Attributes -/

/-- A value between quotes of a kind. -/
inductive Value (quote : Char) : List Char → Prop
  | nil : Value quote []
  | char {c : Char} {t : List Char} (hc : isChar c = true) (hquote : c ≠ quote) (hlt : c ≠ '<')
      (hamp : c ≠ '&') (ht : Value quote t) : Value quote (c :: t)
  | reference {r t : List Char} (hr : Reference r) (ht : Value quote t) : Value quote (r ++ t)

/-- A name with a value in quotes, after spaces. -/
inductive Assignment (name value : List Char) (quote : Char) : List Char → Prop
  | mk {lead before after : List Char} (hlead : Spaces lead) (hne : lead ≠ [])
      (hbefore : Spaces before) (hafter : Spaces after) (hquote : quote = '"' ∨ quote = '\'') :
      Assignment name value quote
        (lead ++ (name ++ (before ++ '=' :: (after ++ quote :: (value ++ [quote])))))

/-- Attributes with their names, no name twice, and the spaces after them. -/
inductive Attributes : List (List Char) → List Char → Prop
  | nil {space : List Char} (hspace : Spaces space) : Attributes [] space
  | cons {name value a t : List Char} {quote : Char} {names : List (List Char)}
      (hname : IsName name) (hvalue : Value quote value) (ha : Assignment name value quote a)
      (hfresh : name ∉ names) (ht : Attributes names t) : Attributes (name :: names) (a ++ t)

/-! ## Elements -/

/-- A text without markup. -/
structure CharData (t : List Char) : Prop where
  permitted : Permitted t
  lt_notMem : '<' ∉ t
  amp_notMem : '&' ∉ t
  sectionEnd : ¬ "]]>".toList <:+: t

/-- What is nested in a document. -/
inductive Part
  | element
  | content

/-- The texts of elements, with or without content, and of the contents between their tags. -/
inductive Derives : Part → List Char → Prop
  | single {name attributes : List Char} {names : List (List Char)} (hname : IsName name)
      (hattributes : Attributes names attributes) :
      Derives .element ('<' :: (name ++ (attributes ++ "/>".toList)))
  | tagged {name attributes content space : List Char} {names : List (List Char)}
      (hname : IsName name) (hattributes : Attributes names attributes)
      (hcontent : Derives .content content) (hspace : Spaces space) :
      Derives .element ('<' :: (name ++ (attributes ++ '>' ::
        (content ++ '<' :: '/' :: (name ++ (space ++ ['>']))))))
  | text {t : List Char} (ht : CharData t) : Derives .content t
  | child {t e rest : List Char} (ht : CharData t) (he : Derives .element e)
      (hrest : Derives .content rest) : Derives .content (t ++ (e ++ rest))
  | reference {t r rest : List Char} (ht : CharData t) (hr : Reference r)
      (hrest : Derives .content rest) : Derives .content (t ++ (r ++ rest))
  | cdata {t s rest : List Char} (ht : CharData t) (hs : Permitted s)
      (hend : ¬ "]]>".toList <:+: s) (hrest : Derives .content rest) :
      Derives .content (t ++ ("<![CDATA[".toList ++ (s ++ ("]]>".toList ++ rest))))

/-! ## Documents -/

/-- A declaration of the version and the encoding of a document. -/
inductive Declaration : List Char → Prop
  | mk {v e encoding space : List Char} {quote quote' : Char}
      (hversion : Assignment "version".toList "1.0".toList quote v)
      (hencoding : Assignment "encoding".toList encoding quote' e) (hname : IsEncoding encoding)
      (hspace : Spaces space) : Declaration ("<?xml".toList ++ (v ++ (e ++ (space ++ "?>".toList))))

/-- A text that is a document: a declaration and one element, with spaces around it. -/
inductive WellFormed (document : String) : Prop
  | mk {declaration before element after : List Char} (hdeclaration : Declaration declaration)
      (hbefore : Spaces before) (helement : Derives .element element) (hafter : Spaces after)
      (heq : document.toList = declaration ++ (before ++ (element ++ after)))

/-! ## Nothing but permitted characters -/

theorem isChar_of_isSpace {c : Char} (h : isSpace c = true) : isChar c = true := by
  simp only [isSpace, Bool.or_eq_true, decide_eq_true_eq] at h
  rcases h with ((rfl | rfl) | rfl) | rfl <;> decide

/-- The characters from the space to the tilde may stand in a document. -/
theorem isChar_of_le {c : Char} (hlow : 0x20 ≤ c.toNat) (hhigh : c.toNat ≤ 0x7E) :
    isChar c = true :=
  inSpans_eq_true_iff.mpr ⟨(0x20, 0xD7FF), by decide, hlow, Nat.le_trans hhigh (by decide)⟩

theorem isChar_of_isAlphanum {c : Char} (h : c.isAlphanum = true) : isChar c = true := by
  change (decide (65 ≤ c.val ∧ c.val ≤ 90) || (decide (97 ≤ c.val) && decide (c.val ≤ 122)) ||
    (decide (48 ≤ c.val) && decide (c.val ≤ 57))) = true at h
  simp only [Bool.or_eq_true, Bool.and_eq_true, decide_eq_true_eq, UInt32.le_iff_toNat_le,
    UInt32.reduceToNat] at h
  have hval : c.val.toNat = c.toNat := rfl
  exact isChar_of_le (by omega) (by omega)

theorem isChar_of_isEncodingChar {c : Char} (h : isEncodingChar c = true) : isChar c = true := by
  simp only [isEncodingChar, Bool.or_eq_true, decide_eq_true_eq] at h
  rcases h with ((h | rfl) | rfl) | rfl
  · exact isChar_of_isAlphanum h
  all_goals decide

theorem isChar_of_hexValue? {c : Char} {p : Nat → Bool} (h : (hexValue? c).any p = true) :
    isChar c = true := by
  simp only [hexValue?] at h
  split_ifs at h
  · exact isChar_of_le (by omega) (by omega)
  · exact isChar_of_le (by omega) (by omega)
  · exact isChar_of_le (by omega) (by omega)
  · cases h

/-- Spans that each lie in a span of others hold no more than these. -/
theorem inSpans_of_within {xs ys : List Span} (h : ∀ s ∈ xs, ∃ t ∈ ys, t.1 ≤ s.1 ∧ s.2 ≤ t.2)
    {n : Nat} (hn : inSpans xs n = true) : inSpans ys n = true := by
  obtain ⟨s, hs, hlow, hhigh⟩ := inSpans_eq_true_iff.mp hn
  obtain ⟨t, ht, htlow, hthigh⟩ := h s hs
  exact inSpans_eq_true_iff.mpr
    ⟨t, ht, Nat.le_trans htlow hlow, Nat.le_trans hhigh hthigh⟩

theorem Spaces.permitted {t : List Char} (h : Spaces t) : Permitted t := fun c hc =>
  isChar_of_isSpace (h c hc)

theorem IsName.permitted {t : List Char} (h : IsName t) : Permitted t := fun c hc =>
  inSpans_of_within (by decide) (h.all c hc)

theorem IsEncoding.permitted {t : List Char} (h : IsEncoding t) : Permitted t := by
  cases h with
  | mk hc ht =>
      rw [permitted_cons]
      exact ⟨isChar_of_isAlphanum (by simp [Char.isAlphanum, hc]),
        fun d hd => isChar_of_isEncodingChar (ht d hd)⟩

theorem IsNumeral.permitted {base : Nat} {digits : List Char} (h : IsNumeral base digits) :
    Permitted digits := fun c hc => isChar_of_hexValue? (h.all c hc)

theorem Reference.permitted {t : List Char} (h : Reference t) : Permitted t := by
  have hentities : ∀ name ∈ entities, Permitted name := by decide
  cases h with
  | entity hname => simp (disch := decide) [isChar_of_le, hentities _ hname]
  | decimal hdigits hchar => simp (disch := decide) [isChar_of_le, hdigits.permitted]
  | hexadecimal hdigits hchar => simp (disch := decide) [isChar_of_le, hdigits.permitted]

theorem Value.permitted {quote : Char} {t : List Char} (h : Value quote t) : Permitted t := by
  induction h with
  | nil => exact permitted_nil
  | char hc hquote hlt hamp ht ih => exact permitted_cons.mpr ⟨hc, ih⟩
  | reference hr ht ih => exact permitted_append.mpr ⟨hr.permitted, ih⟩

theorem Assignment.permitted {name value t : List Char} {quote : Char}
    (h : Assignment name value quote t) (hname : Permitted name) (hvalue : Permitted value) :
    Permitted t := by
  cases h with
  | mk hlead hne hbefore hafter hquote =>
      have hquoted : isChar quote = true := by
        rcases hquote with rfl | rfl <;> decide
      simp (disch := decide) [isChar_of_le, hlead.permitted, hbefore.permitted, hafter.permitted,
        hname, hvalue, hquoted]

theorem Attributes.permitted {names : List (List Char)} {t : List Char} (h : Attributes names t) :
    Permitted t := by
  induction h with
  | nil hspace => exact hspace.permitted
  | cons hname hvalue ha hfresh ht ih =>
      exact permitted_append.mpr ⟨ha.permitted hname.permitted hvalue.permitted, ih⟩

theorem Derives.permitted {part : Part} {t : List Char} (h : Derives part t) : Permitted t := by
  induction h with
  | single hname hattributes =>
      simp (disch := decide) [isChar_of_le, hname.permitted, hattributes.permitted]
  | tagged hname hattributes hcontent hspace ih =>
      simp (disch := decide) [isChar_of_le, hname.permitted, hattributes.permitted, ih,
        hspace.permitted]
  | text ht => exact ht.permitted
  | child ht he hrest ihe ihrest => simp [ht.permitted, ihe, ihrest]
  | reference ht hr hrest ih => simp [ht.permitted, hr.permitted, ih]
  | cdata ht hs hend hrest ih =>
      have hopening : Permitted "<![CDATA[".toList := by decide
      have hclosing : Permitted "]]>".toList := by decide
      simp only [permitted_append]
      exact ⟨ht.permitted, hopening, hs, hclosing, ih⟩

theorem Declaration.permitted {t : List Char} (h : Declaration t) : Permitted t := by
  have hopening : Permitted "<?xml".toList := by decide
  have hclosing : Permitted "?>".toList := by decide
  have hnames : Permitted "version".toList ∧ Permitted "1.0".toList ∧
      Permitted "encoding".toList := by decide
  cases h with
  | mk hversion hencoding hname hspace =>
      simp only [permitted_append]
      exact ⟨hopening, hversion.permitted hnames.1 hnames.2.1,
        hencoding.permitted hnames.2.2 hname.permitted, hspace.permitted, hclosing⟩

/-- A document holds permitted characters only. -/
theorem WellFormed.permitted {document : String} (h : WellFormed document) :
    Permitted document.toList := by
  obtain ⟨hdeclaration, hbefore, helement, hafter, heq⟩ := h
  rw [heq]
  simp only [permitted_append]
  exact ⟨hdeclaration.permitted, hbefore.permitted, helement.permitted, hafter.permitted⟩

end LabelPress.Xml
