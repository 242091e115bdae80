import LabelPress.Proofs.Number.Numerals
import LabelPress.Proofs.Svg.Markup
import LabelPress.Proofs.Svg.StyleSheet

/-!
# Documents are read back

The text of a document has one tree, and the tree has one size, one list of rules and one list of
primitives. Of a primitive only the file of its font is not drawn, and an empty anchor is not told
from none.
-/

namespace LabelPress

/-! ## What is drawn of a primitive -/

/-- The text as it is drawn, whatever file its font came from; an empty anchor counts as none. -/
def TextLine.shown (t : TextLine) : TextLine :=
  { t with anchor := t.anchor.filter (· ≠ ""), fontPath := none }

namespace Primitive

open LabelPress.Number LabelPress.Svg

/-- The primitive as it is drawn. -/
def shown : Primitive → Primitive
  | rect r => rect r
  | line l => line l
  | text t => text t.shown

/-- The tag of the element of a primitive. -/
def tag : Primitive → String
  | rect _ => "rect"
  | line _ => "line"
  | text _ => "text"

/-- The attributes of a primitive, those with empty values among them. -/
def attributes : Primitive → List (String × String)
  | rect r =>
    [("fill", r.fill), ("height", integerText r.height), ("stroke", r.stroke),
     ("stroke-width", integerText r.strokeWidth), ("width", integerText r.width),
     ("x", integerText r.x), ("y", integerText r.y)]
  | line l =>
    [("stroke", l.stroke), ("stroke-width", integerText l.strokeWidth), ("x1", integerText l.x1),
     ("x2", integerText l.x2), ("y1", integerText l.y1), ("y2", integerText l.y2)]
  | text t =>
    [("fill", t.color), ("font-family", t.family), ("font-size", integerText t.size),
     ("font-weight", t.weight), ("text-anchor", t.anchor.getD ""), ("x", integerText t.x),
     ("y", integerText t.y)]

/-- The names of the attributes of a primitive. -/
def names : Primitive → List String
  | rect _ => ["fill", "height", "stroke", "stroke-width", "width", "x", "y"]
  | line _ => ["stroke", "stroke-width", "x1", "x2", "y1", "y2"]
  | text _ => ["fill", "font-family", "font-size", "font-weight", "text-anchor", "x", "y"]

theorem map_fst_attributes (p : Primitive) : p.attributes.map Prod.fst = p.names := by
  cases p <;> rfl

theorem nodup_names (p : Primitive) : p.names.Nodup := by
  cases p <;> simp only [names] <;> decide

theorem isName_of_mem_names (p : Primitive) : ∀ name ∈ p.names, IsName name := by
  cases p <;> simp only [names] <;> decide

theorem isName_tag (p : Primitive) : IsName p.tag := by
  cases p <;> simp only [tag] <;> decide

/-- What stands in the element of a primitive. -/
def content : Primitive → List Node
  | rect _ => []
  | line _ => []
  | text t => textContent t.text

/-- The element of a primitive whose numbers can be written. -/
def node (p : Primitive) : Node := element p.tag p.attributes p.content

end Primitive

namespace Svg

open LabelPress.Files LabelPress.Number

theorem primitiveElement_eq_ok {p : Primitive} {n : Node} (h : primitiveElement p = .ok n) :
    n = p.node := by
  cases p with
  | rect r =>
      unfold primitiveElement rectElement at h
      iterate 5 replace h := writeInteger_bind_eq_ok h
      exact (Except.ok.inj h).symm
  | line l =>
      unfold primitiveElement lineElement at h
      iterate 5 replace h := writeInteger_bind_eq_ok h
      exact (Except.ok.inj h).symm
  | text t =>
      unfold primitiveElement textElement at h
      iterate 3 replace h := writeInteger_bind_eq_ok h
      exact (Except.ok.inj h).symm

theorem filter_ne_empty_eq (a : Option String) :
    a.filter (· ≠ "") = if a.getD "" = "" then none else some (a.getD "") := by
  cases a with
  | none => rfl
  | some s =>
      by_cases hs : s = ""
      · simp [hs, Option.filter]
      · simp [hs, Option.filter]

theorem getD_filter_ne_empty (a : Option String) : (a.filter (· ≠ "")).getD "" = a.getD "" := by
  rw [filter_ne_empty_eq]
  split_ifs with ha
  · exact ha.symm
  · rfl

/-- The element of a primitive is that of what is drawn of it. -/
theorem primitiveElement_shown (p : Primitive) : primitiveElement p.shown = primitiveElement p := by
  cases p with
  | rect r => rfl
  | line l => rfl
  | text t =>
      unfold primitiveElement Primitive.shown textElement
      simp only [TextLine.shown, getD_filter_ne_empty]

/-! ## Attributes and contents -/

theorem fst_mem_of_filter_eq_cons {keep : String × String → Bool} {a : String × String}
    {xs ys : List (String × String)} (h : xs.filter keep = a :: ys) : a.1 ∈ xs.map Prod.fst :=
  List.mem_map_of_mem (List.mem_of_mem_filter (h ▸ List.mem_cons_self))

/-- Values under the same names are the same if those that are left in are. -/
theorem eq_of_filter_eq {names : List String} (hnodup : names.Nodup)
    {xs ys : List (String × String)}
    (h : xs.filter (fun a => a.2 ≠ "") = ys.filter (fun a => a.2 ≠ ""))
    (hxs : xs.map Prod.fst = names) (hys : ys.map Prod.fst = names) : xs = ys := by
  subst hxs
  induction xs generalizing ys with
  | nil => exact (List.map_eq_nil_iff.mp hys).symm
  | cons a xs ih =>
      cases ys with
      | nil => exact absurd hys.symm (List.cons_ne_nil _ _)
      | cons b ys =>
          obtain ⟨hab, hkeys⟩ := List.cons.inj hys.symm
          obtain ⟨hfresh, hnodup⟩ := List.nodup_cons.mp hnodup
          -- A value that is left in on one side only has its name again later on the other side.
          by_cases ha : a.2 = "" <;> by_cases hb : b.2 = ""
          · rw [List.filter_cons_of_neg (by simpa using ha),
              List.filter_cons_of_neg (by simpa using hb)] at h
            rw [ih h hnodup hkeys.symm, Prod.ext hab (ha.trans hb.symm)]
          · rw [List.filter_cons_of_neg (by simpa using ha),
              List.filter_cons_of_pos (by simpa using hb)] at h
            exact absurd (hab ▸ fst_mem_of_filter_eq_cons h) hfresh
          · rw [List.filter_cons_of_pos (by simpa using ha),
              List.filter_cons_of_neg (by simpa using hb)] at h
            exact absurd (hkeys ▸ fst_mem_of_filter_eq_cons h.symm) hfresh
          · rw [List.filter_cons_of_pos (by simpa using ha),
              List.filter_cons_of_pos (by simpa using hb), List.cons.injEq] at h
            rw [h.1, ih h.2 hnodup hkeys.symm]

/-- A piece that is left out if it is empty shows what it holds. -/
theorem eq_of_unless_empty_eq {f : String → Node} (hf : Function.Injective f) {s s' : String}
    (h : (if s = "" then [] else [f s]) = if s' = "" then [] else [f s']) : s = s' := by
  split_ifs at h with hs hs'
  · rw [hs, hs']
  · exact hf (List.cons.inj h).1

theorem textContent_injective : Function.Injective textContent := fun _ _ h =>
  eq_of_unless_empty_eq (fun _ _ htext => Node.text.inj htext) h

/-- Primitives with one list of names have one list of values and one content, if their elements
are the same. -/
theorem eq_of_node_eq {p q : Primitive} (h : p.node = q.node) (hnames : p.names = q.names) :
    p.attributes = q.attributes ∧ p.content = q.content := by
  obtain ⟨-, hattributes, hcontent⟩ := Node.element.inj h
  exact ⟨eq_of_filter_eq p.nodup_names hattributes p.map_fst_attributes
    (q.map_fst_attributes.trans hnames.symm), hcontent⟩

theorem shown_eq_of_node_eq {p q : Primitive} (h : p.node = q.node) : p.shown = q.shown := by
  have htag : p.tag = q.tag := (Node.element.inj h).1
  cases p with
  | rect r =>
      cases q with
      | rect r' =>
          obtain ⟨hattributes, -⟩ := eq_of_node_eq h rfl
          cases r
          cases r'
          simp only [Primitive.attributes, List.cons.injEq, Prod.mk.injEq, true_and, and_true,
            integerText_injective.eq_iff] at hattributes
          obtain ⟨rfl, rfl, rfl, rfl, rfl, rfl, rfl⟩ := hattributes
          rfl
      | line l => simp [Primitive.tag] at htag
      | text t => simp [Primitive.tag] at htag
  | line l =>
      cases q with
      | rect r => simp [Primitive.tag] at htag
      | line l' =>
          obtain ⟨hattributes, -⟩ := eq_of_node_eq h rfl
          cases l
          cases l'
          simp only [Primitive.attributes, List.cons.injEq, Prod.mk.injEq, true_and, and_true,
            integerText_injective.eq_iff] at hattributes
          obtain ⟨rfl, rfl, rfl, rfl, rfl, rfl⟩ := hattributes
          rfl
      | text t => simp [Primitive.tag] at htag
  | text t =>
      cases q with
      | rect r => simp [Primitive.tag] at htag
      | line l => simp [Primitive.tag] at htag
      | text t' =>
          obtain ⟨hattributes, hcontent⟩ := eq_of_node_eq h rfl
          have htext : t.text = t'.text := textContent_injective hcontent
          cases t
          cases t'
          simp only [Primitive.attributes, List.cons.injEq, Prod.mk.injEq, true_and, and_true,
            integerText_injective.eq_iff] at hattributes
          obtain ⟨rfl, rfl, rfl, rfl, hanchor, rfl, rfl⟩ := hattributes
          simp only [Primitive.shown, TextLine.shown, filter_ne_empty_eq, hanchor]
          simp only at htext
          rw [htext]

/-! ## Trees of documents -/

theorem isName_fst_of_mem_filter {xs : List (String × String)}
    (hnames : ∀ name ∈ xs.map Prod.fst, IsName name) (keep : String × String → Bool) :
    ∀ a ∈ xs.filter keep, IsName a.1 :=
  fun _ ha => hnames _ (List.mem_map_of_mem (List.mem_of_mem_filter ha))

theorem regular_element {tag : String} {attributes : List (String × String)} {content : List Node}
    (htag : IsName tag) (hnames : ∀ name ∈ attributes.map Prod.fst, IsName name)
    (hcontent : ∀ n ∈ content, n.Regular) : (element tag attributes content).Regular :=
  .element htag (isName_fst_of_mem_filter hnames _) hcontent

theorem regular_node (p : Primitive) : p.node.Regular := by
  have hnames : ∀ name ∈ p.attributes.map Prod.fst, IsName name :=
    p.map_fst_attributes ▸ p.isName_of_mem_names
  have hnil : ∀ n ∈ ([] : List Node), n.Regular := List.forall_mem_nil _
  cases p with
  | rect r => exact regular_element (Primitive.isName_tag _) hnames hnil
  | line l => exact regular_element (Primitive.isName_tag _) hnames hnil
  | text t =>
      by_cases ht : t.text = ""
      · have hcontent : (Primitive.text t).content = [] := if_pos ht
        rw [Primitive.node, hcontent]
        exact regular_element (Primitive.isName_tag _) hnames hnil
      · have hcontent : (Primitive.text t).content = [.text t.text] := if_neg ht
        rw [Primitive.node, hcontent]
        exact .textElement (Primitive.isName_tag _) (isName_fst_of_mem_filter hnames _) ht

theorem regular_ground : ground.Regular :=
  regular_element (by decide) (by decide) (List.forall_mem_nil _)

theorem regular_definitions {sheet : String} (hsheet : ']' ∉ sheet.toList) :
    (definitions sheet).Regular := by
  have hstyle : ∀ n ∈ (if sheet = "" then [] else [Node.cdata sheet]), n.Regular := by
    intro n hn
    split_ifs at hn
    · cases hn
    · rw [List.mem_singleton.mp hn]
      exact .cdata hsheet
  apply regular_element (by decide) (by decide)
  intro n hn
  rw [List.mem_singleton.mp hn]
  exact regular_element (by decide) (by decide) hstyle

/-- The names of the attributes of a root. -/
def rootNames : List String :=
  ["baseProfile", "height", "version", "viewBox", "width", "xmlns", "xmlns:ev", "xmlns:xlink"]

theorem isName_of_mem_rootNames : ∀ name ∈ rootNames, IsName name := by
  decide

theorem nodup_rootNames : rootNames.Nodup := by
  decide

theorem regular_root (width height : String) {sheet : String} (hsheet : ']' ∉ sheet.toList)
    {elements : List Node} (helements : ∀ n ∈ elements, n.Regular) :
    (root width height sheet elements).Regular := by
  refine regular_element (by decide) (fun name hname => isName_of_mem_rootNames name hname) ?_
  intro n hn
  rcases List.mem_cons.mp hn with rfl | hn
  · exact regular_definitions hsheet
  · rcases List.mem_cons.mp hn with rfl | hn
    · exact regular_ground
    · exact helements n hn

theorem definitions_injective : Function.Injective definitions := by
  intro sheet sheet' h
  have hstyle := (List.cons.inj (Node.element.inj h).2.2).1
  exact eq_of_unless_empty_eq (fun _ _ hcdata => Node.cdata.inj hcdata)
    (Node.element.inj hstyle).2.2

theorem root_inj {width height sheet width' height' sheet' : String}
    {elements elements' : List Node}
    (h : root width height sheet elements = root width' height' sheet' elements') :
    width = width' ∧ height = height' ∧ sheet = sheet' ∧ elements = elements' := by
  obtain ⟨-, hattributes, hcontent⟩ := Node.element.inj h
  have hvalues := eq_of_filter_eq nodup_rootNames hattributes rfl rfl
  simp only [List.cons.injEq, Prod.mk.injEq, true_and, and_true] at hvalues
  obtain ⟨hheight, -, hwidth⟩ := hvalues
  obtain ⟨hdefinitions, hrest⟩ := List.cons.inj hcontent
  exact ⟨hwidth, hheight, definitions_injective hdefinitions, (List.cons.inj hrest).2⟩

/-! ## Documents -/

theorem mapM_primitiveElement_eq_ok {ps : List Primitive} {ns : List Node}
    (h : ps.mapM primitiveElement = .ok ns) : ns = ps.map Primitive.node := by
  rw [Command.mapM_eq_ok_iff] at h
  induction h with
  | nil => rfl
  | cons hp _ ih => rw [List.map_cons, ← ih, primitiveElement_eq_ok hp]

/-- A document that can be written is that of a size, rules and elements. -/
theorem render_eq_ok {files : Tree} {c : Canvas} {text : String} (h : render files c = .ok text) :
    ∃ faces, fontFaces files c = .ok faces ∧ text =
      write (root (integerText c.width) (integerText c.height) (styleSheet faces)
        (c.primitives.map Primitive.node)) := by
  unfold render tree at h
  simp only [bind_assoc] at h
  iterate 2 replace h := writeInteger_bind_eq_ok h
  cases hfaces : fontFaces files c with
  | error fault =>
      rw [hfaces] at h
      cases h
  | ok faces =>
      cases helements : c.primitives.mapM primitiveElement with
      | error fault =>
          rw [hfaces, helements] at h
          cases h
      | ok elements =>
          rw [hfaces, helements] at h
          rw [mapM_primitiveElement_eq_ok helements] at h
          exact ⟨faces, rfl, (Except.ok.inj h).symm⟩

/-- The value of an attribute of an element. -/
def Node.attribute? : Node → String → Option String
  | .element _ attributes _, name => attributes.lookup name
  | .text _, _ | .cdata _, _ => none

/-- A root carries its width and its height twice. -/
theorem attribute?_root {width height : String} (hwidth : width ≠ "") (hheight : height ≠ "")
    (sheet : String) (elements : List Node) :
    (root width height sheet elements).attribute? "width" = some width ∧
    (root width height sheet elements).attribute? "height" = some height ∧
    (root width height sheet elements).attribute? "viewBox" =
      some ("0 0 " ++ width ++ " " ++ height) := by
  simp [root, element, Node.attribute?, hwidth, hheight, List.lookup_cons]

theorem write_inj {n m : Node} (hn : n.Regular) (hm : m.Regular) (h : write n = write m) :
    n = m := by
  have hlist := congrArg String.toList h
  rw [write, write, String.toList_append, String.toList_append, String.toList_ofList,
    String.toList_ofList] at hlist
  exact (hn.append_inj hm (congrArg (· ++ []) (List.append_cancel_left hlist))).1

/-- Canvases of one size, with one list of embedded fonts and with primitives that are drawn
alike. -/
structure ShownAlike (files : Tree) (c : Canvas) (files' : Tree) (c' : Canvas) : Prop where
  width : c.width = c'.width
  height : c.height = c'.height
  fontFaces : fontFaces files c = fontFaces files' c'
  primitives : c.primitives.map Primitive.shown = c'.primitives.map Primitive.shown

theorem mapM_primitiveElement_shown (ps : List Primitive) :
    (ps.map Primitive.shown).mapM primitiveElement = ps.mapM primitiveElement := by
  rw [List.mapM_map]
  exact congrArg (ps.mapM ·) (funext primitiveElement_shown)

theorem map_shown_eq_of_map_node_eq {ps qs : List Primitive}
    (h : ps.map Primitive.node = qs.map Primitive.node) :
    ps.map Primitive.shown = qs.map Primitive.shown := by
  rw [← List.forall₂_eq_eq_eq, List.forall₂_map_left_iff, List.forall₂_map_right_iff] at h ⊢
  exact h.imp fun _ _ => shown_eq_of_node_eq

/-- Canvases whose documents are the same show the same. -/
theorem shownAlike_of_render_eq {files files' : Tree} {c c' : Canvas} {text : String}
    (h : render files c = .ok text) (h' : render files' c' = .ok text) :
    ShownAlike files c files' c' := by
  obtain ⟨faces, hfaces, rfl⟩ := render_eq_ok h
  obtain ⟨faces', hfaces', htext⟩ := render_eq_ok h'
  have hplain : ∀ f ∈ faces, f.Plain := fun _ => plain_of_mem_fontFaces hfaces
  have hplain' : ∀ f ∈ faces', f.Plain := fun _ => plain_of_mem_fontFaces hfaces'
  have hregular : ∀ ps : List Primitive, ∀ n ∈ ps.map Primitive.node, n.Regular := by
    intro ps n hn
    obtain ⟨p, -, rfl⟩ := List.mem_map.mp hn
    exact regular_node p
  have htree := write_inj
    (regular_root _ _ (bracket_notMem_styleSheet hplain) (hregular c.primitives))
    (regular_root _ _ (bracket_notMem_styleSheet hplain') (hregular c'.primitives)) htext
  obtain ⟨hwidth, hheight, hsheet, hnodes⟩ := root_inj htree
  exact {
    width := integerText_injective hwidth
    height := integerText_injective hheight
    fontFaces := by rw [hfaces, hfaces', styleSheet_inj hplain hplain' hsheet]
    primitives := map_shown_eq_of_map_node_eq hnodes }

/-- Canvases that show the same have the same document. -/
theorem ShownAlike.render_eq {files files' : Tree} {c c' : Canvas}
    (h : ShownAlike files c files' c') : render files c = render files' c' := by
  unfold render tree
  rw [h.width, h.height, h.fontFaces, ← mapM_primitiveElement_shown, h.primitives,
    mapM_primitiveElement_shown]

/-- The text of a document determines what it shows, and nothing but what it shows determines the
text. -/
theorem render_eq_ok_iff {files files' : Tree} {c c' : Canvas} {text : String}
    (h : render files c = .ok text) :
    render files' c' = .ok text ↔ ShownAlike files c files' c' := by
  constructor
  · exact shownAlike_of_render_eq h
  · intro hshown
    rw [← hshown.render_eq, h]

/-- A canvas of one text that spells the end of its own element. -/
def spelledMarkup : Canvas where
  width := 100
  height := 50
  fontsDir := .ofText "fonts"
  primitives := [.text { text := "a</text><text>b", x := 1, y := 2, size := 10 }]

theorem render_eq_ok_iff_spelledMarkup : ∃ text, render .empty spelledMarkup = .ok text ∧
    render .empty { spelledMarkup with primitives :=
      [.text { text := "a</text><text>b", x := 1, y := 2, size := 10, anchor := some "",
               fontPath := some "b.ttf" }] } = .ok text ∧
    render .empty { spelledMarkup with primitives :=
      [.text { text := "a", x := 1, y := 2, size := 10 },
       .text { text := "b", x := 1, y := 2, size := 10 }] } ≠ .ok text := by
  have hok : (render .empty spelledMarkup).isOk = true := by decide +kernel
  cases h : render .empty spelledMarkup with
  | error fault =>
      rw [h] at hok
      cases hok
  | ok text =>
      refine ⟨text, rfl, ?_, ?_⟩
      · exact (render_eq_ok_iff h).mpr ⟨rfl, rfl, rfl, by decide⟩
      · intro h'
        exact absurd ((render_eq_ok_iff h).mp h').primitives (by decide)

end Svg

end LabelPress
