import LabelPress.Bitmap.Reading
import LabelPress.Proofs.Bitmap.Encoder
import LabelPress.Proofs.Files.Writing
import LabelPress.Proofs.Label.Bitmaps
import LabelPress.Proofs.Rasterizer.Fallback

/-!
# What exports write

An export touches files last. Whatever goes wrong before the encoder is asked leaves all files as
they were, and an ending that is not supported or a setting that names no rasterizers ends it before
any rasterizer is asked. An export that comes to its end has written one file, once.
-/

namespace LabelPress

open LabelPress.Bitmap LabelPress.Files LabelPress.Number LabelPress.Rasterizer LabelPress.Settings

/-! ## Deeds that spare files -/

namespace Deed

/-- Whether a deed makes, changes or removes a file. -/
def touchesFile : Deed → Bool
  | fileWritten _ _ | fileRemoved _ => true
  | _ => false

/-- Deeds that touch no file and leave no folder. -/
structure SpareFiles (deeds : List Deed) : Prop where
  untouched : ∀ d ∈ deeds, d.touchesFile = false
  folders : foldersLeft deeds = []

theorem SpareFiles.nil : SpareFiles [] := ⟨nofun, rfl⟩

theorem SpareFiles.append {deeds others : List Deed} (h : SpareFiles deeds)
    (hothers : SpareFiles others) : SpareFiles (deeds ++ others) where
  untouched d hd := (List.mem_append.mp hd).elim (h.untouched d) (hothers.untouched d)
  folders := (foldersLeft_append h.folders).trans hothers.folders

theorem filesAfter_of_untouched {d : Deed} (h : d.touchesFile = false) (files : Tree) :
    filesAfter files d = files := by
  cases d with
  | fileWritten path bytes | fileRemoved path => cases h
  | _ => rfl

theorem SpareFiles.filesLeft {deeds : List Deed} (h : SpareFiles deeds) (files : Tree) :
    filesLeft files deeds = files := by
  have hdeeds := h.untouched
  clear h
  induction deeds with
  | nil => rfl
  | cons d rest ih =>
      have hd := filesAfter_of_untouched (hdeeds d List.mem_cons_self) files
      rw [Deed.filesLeft, List.foldl_cons, hd]
      exact ih fun e he => hdeeds e (List.mem_cons_of_mem d he)

/-- Deeds that spare files have no part in what later ones leave. -/
theorem SpareFiles.filesLeft_append {deeds : List Deed} (h : SpareFiles deeds) (files : Tree)
    (others : List Deed) : Deed.filesLeft files (deeds ++ others) = Deed.filesLeft files others := by
  have hfiles := h.filesLeft files
  rw [Deed.filesLeft] at hfiles ⊢
  rw [List.foldl_append, hfiles, Deed.filesLeft]

end Deed

open Deed

/-! ## Rasterizers -/

namespace Rasterizer

/-- A rasterizer of a machine touches no file. -/
theorem spareFiles_machine (m : Machine) (k : Known) (r : Request) :
    SpareFiles ((m.rasterizer k).rasterize r).deeds := by
  refine ⟨?_, Machine.foldersLeft_rasterize m k r⟩
  cases k with
  | rsvgConvert =>
      simp only [Machine.rasterizer, RsvgConvert.rasterizer]
      split
      · split <;> simp [touchesFile]
      · exact List.forall_mem_nil _
  | cairo =>
      simp only [Machine.rasterizer, CairoLibrary.rasterizer]
      cases m.library with
      | unusable reason => exact List.forall_mem_nil _
      | loaded draw =>
          dsimp only
          split
          · exact List.forall_mem_nil _
          · simp [touchesFile]

/-- The rasterizers that a setting names cannot be told, or there are none. -/
inductive NamesNoChain (names : Value) : Fault → Prop
  | unknown (fault : Fault) : Known.select names = .error fault → NamesNoChain names fault
  | empty : Known.select names = .ok [] → NamesNoChain names .emptyChain

section Chains

variable {δ : Type} {make : Nat → Known → Rasterizer δ} {names : Value} {chain : Rasterizer δ}

/-- A setting that names no chain is found out whatever the rasterizers are. -/
theorem selectChainAt_eq_error_iff {fault : Fault} :
    selectChainAt make names = .error fault ↔ NamesNoChain names fault := by
  have hselect : selectChainAt make names =
      (Known.select names).bind fun ks => Rasterizer.chain (ks.mapIdx make) := rfl
  rw [hselect]
  constructor
  · intro h
    cases hks : Known.select names with
    | error f =>
        rw [hks] at h
        cases h
        exact .unknown _ hks
    | ok ks =>
        rw [hks] at h
        cases ks with
        | nil =>
            cases h
            exact .empty hks
        | cons k rest =>
            rw [Except.bind, List.mapIdx_cons] at h
            cases h
  · intro h
    cases h with
    | unknown _ hks | empty hks =>
        rw [hks]
        rfl

/-- A chain of rasterizers that touch no file touches none. -/
theorem spareFiles_selectChainAt (hmake : ∀ i k r, SpareFiles ((make i k).rasterize r).deeds)
    (h : selectChainAt make names = .ok chain) (r : Request) :
    SpareFiles (chain.rasterize r).deeds := by
  obtain ⟨ks, hks, hchain⟩ := Fault.bind_eq_ok_iff.mp h
  have hask : chain.rasterize r = askFrom r [] (ks.mapIdx make) := by
    cases ks with
    | nil => cases hchain
    | cons k rest =>
        rw [List.mapIdx_cons] at hchain ⊢
        cases hchain
        rfl
  rw [hask]
  refine askFrom_induction .nil .append (fun s hs => ?_) []
  obtain ⟨i, hi, rfl⟩ := List.mem_mapIdx.mp hs
  exact hmake i _ r

end Chains

end Rasterizer

namespace Label

variable {δ : Type} {site : Font.Site} {imaging : Imaging δ} {r : Rasterizer δ}
variable {source : LabelSource} {b : Bitmap} {s : Saving}

/-! ## Bitmaps -/

/-- Making a bitmap does nothing outside the program but what the rasterizer does. -/
theorem spareFiles_toBitmap (h : ∀ q, SpareFiles (r.rasterize q).deeds) :
    SpareFiles (toBitmap site imaging r source).deeds := by
  rw [toBitmap]
  cases hdocument : (Work.ofReported (convert site source)).result with
  | error fault =>
      rw [Work.deeds_andThen_of_error hdocument]
      exact .nil
  | ok document =>
      rw [Work.deeds_andThen hdocument]
      refine SpareFiles.nil.append ?_
      cases source.size with
      | error fault => exact .nil
      | ok size =>
          rw [Work.deeds_andThen rfl, deeds_rasterize]
          exact SpareFiles.nil.append (h _)

/-- The bitmap of a label has the size of the label. -/
theorem size_of_toBitmap (himaging : imaging.ResizesAsAsked)
    (h : (toBitmap site imaging r source).result = .ok b) :
    source.size = .ok ((b.extent.width : Int), (b.extent.height : Int)) := by
  rw [toBitmap, Work.result_andThen] at h
  obtain ⟨document, -, h⟩ := Fault.bind_eq_ok_iff.mp h
  rw [Work.result_andThen] at h
  obtain ⟨size, hsize, h⟩ := Fault.bind_eq_ok_iff.mp h
  rw [rasterize, Work.result_andThen] at h
  obtain ⟨data, -, h⟩ := Fault.bind_eq_ok_iff.mp h
  rw [Work.result_andThen] at h
  obtain ⟨p, -, h⟩ := Fault.bind_eq_ok_iff.mp h
  obtain ⟨hwidth, hheight⟩ := sides_of_fit himaging h
  rw [hwidth, hheight]
  exact hsize

/-! ## Saving -/

/-- The causes that lie before the encoder: the ending of the path, the names of rasterizers, the
font, the rasterizers themselves, and what they gave. -/
inductive BeforeEncoder : Fault → Prop
  | ending (suffix : String) : BeforeEncoder (.unsupportedFormat suffix)
  | unknown (shown known : String) : BeforeEncoder (.unknownRasterizer shown known)
  | noRasterizer : BeforeEncoder .emptyChain
  | font (path : Option String) : BeforeEncoder (.fontNotFound path)
  | unavailable (detail : String) : BeforeEncoder (.rasterizerUnavailable detail)
  | failed (detail : String) : BeforeEncoder (.rasterizationFailed detail)
  | picture (flaw : Flaw) : BeforeEncoder (.flawedPicture flaw)

/-- A library refuses to encode a bitmap for the causes that an encoder has. -/
def Imaging.RefusesAsEncoder (imaging : Imaging δ) : Prop :=
  ∀ s b fault, imaging.encode s b = .error fault → fault.OfEncoder

/-- None of them keeps a bitmap from being saved. -/
theorem not_beforeEncoder_of_save (himaging : imaging.RefusesAsEncoder) {files : Tree}
    {fault : Fault} (h : (save files imaging b s).result = .error fault) :
    ¬ BeforeEncoder fault := by
  unfold save at h
  intro hearly
  split at h
  · next hwrite =>
      obtain rfl := Except.error.inj h
      rcases Tree.writeFault?_eq_some hwrite with rfl | rfl | rfl | rfl | rfl <;> cases hearly
  · next hencode =>
      obtain rfl := Except.error.inj h
      cases himaging s b _ hencode <;> cases hearly
  · cases h

/-- A bitmap that is saved is encoded and written to one file, where nothing is against it. -/
theorem save_of_ok {files : Tree} (h : (save files imaging b s).result = .ok ()) :
    files.writeFault? s.path = none ∧ ∃ bytes, imaging.encode s b = .ok bytes ∧
      (save files imaging b s).deeds = [.encoderAsked s, .fileWritten s.path bytes] := by
  unfold save at h ⊢
  split at h
  · cases h
  · cases h
  · next bytes hwrite hencode => exact ⟨hwrite, bytes, hencode, rfl⟩

/-! ## Exports -/

/-- The ending of a path in small letters. -/
def ending (p : Path) : String := String.ofList (p.suffix.toList.map Char.toLower)

/-- The endings that are supported. -/
def endings : List String := [".png", ".jpg", ".jpeg"]

/-- What is saved suits a path and a configuration: the format is that of the ending, and size,
resolution and the setting of the format are the configured ones, or else the defaults. -/
structure Suits (p : Path) (c : Configuration) (s : Saving) : Prop where
  path : s.path = p.text
  png : s.format = .png ↔ ending p = ".png"
  jpeg : s.format = .jpeg ↔ ending p = ".jpg" ∨ ending p = ".jpeg"
  width : LabelSource.lengthOf ((c.value? "width_inches").getD (.float (.ofRatio false 4 1)))
    ((c.value? "dpi").getD (.int 300)) = .ok s.extent.width
  height : LabelSource.lengthOf ((c.value? "height_inches").getD (.float (.ofRatio false 6 1)))
    ((c.value? "dpi").getD (.int 300)) = .ok s.extent.height
  dpi : s.dpi = (c.value? "dpi").getD (.int 300)
  level : s.format = .png → s.option = (c.value? "png_compress_level").getD (.int 9)
  quality : s.format = .jpeg → s.option = (c.value? "jpeg_quality").getD (.int 90)

/-- The format of an ending. -/
theorem formatOf_eq (p : Path) : formatOf p =
    if ending p = ".png" then .ok .png
    else if ending p = ".jpg" ∨ ending p = ".jpeg" then .ok .jpeg
    else .error (.unsupportedFormat p.suffix) := by
  have hlookup : Format.ofSuffix? p.suffix = Format.suffixes.lookup (ending p) := rfl
  delta formatOf
  rw [hlookup, Format.suffixes]
  by_cases hpng : ending p = ".png"
  · simp [hpng]
  · by_cases hjpg : ending p = ".jpg"
    · simp [hjpg, List.lookup_cons]
    · by_cases hjpeg : ending p = ".jpeg"
      · simp [hjpeg, List.lookup_cons]
      · simp [hpng, hjpg, hjpeg, List.lookup_cons, beq_false_of_ne]

theorem formatOf_of_unsupported {p : Path} (h : ending p ∉ endings) :
    formatOf p = .error (.unsupportedFormat p.suffix) := by
  simp only [endings, List.mem_cons, List.not_mem_nil, or_false, not_or] at h
  rw [formatOf_eq, if_neg h.1, if_neg (not_or.mpr h.2)]

theorem formatOf_of_supported {p : Path} (h : ending p ∈ endings) : ∃ f, formatOf p = .ok f := by
  rw [formatOf_eq]
  simp only [endings, List.mem_cons, List.not_mem_nil, or_false] at h
  rcases h with hpng | hjpeg
  · exact ⟨.png, if_pos hpng⟩
  · rw [if_pos hjpeg]
    split
    · exact ⟨_, rfl⟩
    · exact ⟨_, rfl⟩

theorem suits_saving {p : Path} {f : Format} {c : Configuration} {markup : String}
    (hf : formatOf p = .ok f)
    (hsize : (LabelSource.ofSettings markup c).size =
      .ok ((b.extent.width : Int), (b.extent.height : Int))) :
    Suits p c ((targetOf p f c).saving b) := by
  obtain ⟨width, hwidth, hrest⟩ := Fault.bind_eq_ok_iff.mp hsize
  obtain ⟨height, hheight, hpair⟩ := Fault.bind_eq_ok_iff.mp hrest
  obtain ⟨rfl, rfl⟩ := Prod.mk.inj (Except.ok.inj hpair)
  have hformat : (f = .png ↔ ending p = ".png") ∧
      (f = .jpeg ↔ ending p = ".jpg" ∨ ending p = ".jpeg") := by
    rw [formatOf_eq] at hf
    split_ifs at hf with hpng hjpeg
    · cases hf
      simp [hpng]
    · cases hf
      simp [hpng, hjpeg]
  exact {
    path := rfl
    png := hformat.1
    jpeg := hformat.2
    width := hwidth
    height := hheight
    dpi := rfl
    level := by
      rintro ⟨⟩
      rfl
    quality := by
      rintro ⟨⟩
      rfl }

section Run

variable {make : Nat → Known → Rasterizer δ} {markup output : String} {c : Configuration}
variable {chain : Rasterizer δ} {f : Format} {fault : Fault}

/-- An ending that is not supported ends an export whatever the configuration is. -/
theorem exportAt_of_unsupported (h : ending (Path.ofText output) ∉ endings) :
    exportAt site imaging make markup output c =
      ⟨[], [], .error (.unsupportedFormat (Path.ofText output).suffix)⟩ := by
  rw [exportAt, formatOf_of_unsupported h]
  rfl

/-- A setting that names no chain ends it next. -/
theorem exportAt_of_namesNoChain (h : ending (Path.ofText output) ∈ endings)
    (hnames : NamesNoChain (c.valueOf "rasterizers") fault) :
    exportAt site imaging make markup output c = ⟨[], [], .error fault⟩ := by
  obtain ⟨f, hf⟩ := formatOf_of_supported h
  rw [exportAt, hf, selectChainAt_eq_error_iff.mpr hnames]
  rfl

/-- Otherwise the label is made and saved. -/
theorem exportAt_of_chain (hf : formatOf (Path.ofText output) = .ok f)
    (hchain : selectChainAt make (c.valueOf "rasterizers") = .ok chain) :
    exportAt site imaging make markup output c =
      (toFile site imaging chain (.ofSettings markup c)
        (targetOf (Path.ofText output) f c)).andThen fun _ =>
          .of (.ok (Path.ofText output).text) := by
  rw [exportAt, hf, hchain]
  rfl

theorem exportAt_of_toBitmap_error (hf : formatOf (Path.ofText output) = .ok f)
    (hchain : selectChainAt make (c.valueOf "rasterizers") = .ok chain)
    (h : (toBitmap site imaging chain (.ofSettings markup c)).result = .error fault) :
    (exportAt site imaging make markup output c).deeds =
        (toBitmap site imaging chain (.ofSettings markup c)).deeds ∧
      (exportAt site imaging make markup output c).result = .error fault := by
  rw [exportAt_of_chain hf hchain]
  constructor
  · rw [Work.deeds_andThen_of_idle fun _ => rfl, toFile, Work.deeds_andThen_of_error h]
  · rw [Work.result_andThen, toFile, Work.result_andThen, h]
    rfl

theorem exportAt_of_toBitmap_ok (hf : formatOf (Path.ofText output) = .ok f)
    (hchain : selectChainAt make (c.valueOf "rasterizers") = .ok chain)
    (h : (toBitmap site imaging chain (.ofSettings markup c)).result = .ok b) :
    (exportAt site imaging make markup output c).deeds =
        (toBitmap site imaging chain (.ofSettings markup c)).deeds ++
          (save site.files imaging b ((targetOf (Path.ofText output) f c).saving b)).deeds ∧
      (exportAt site imaging make markup output c).result =
        (save site.files imaging b ((targetOf (Path.ofText output) f c).saving b)).result.bind
          fun _ => .ok (Path.ofText output).text := by
  rw [exportAt_of_chain hf hchain]
  constructor
  · rw [Work.deeds_andThen_of_idle fun _ => rfl, toFile, Work.deeds_andThen h]
  · rw [Work.result_andThen, toFile, Work.result_andThen, h]
    rfl

end Run

/-- A bitmap of a label is written as a file: its chain was selected and the bitmap made, and then
the encoder was asked once, for what suits path and configuration, and one file was written,
once. -/
structure Writes (site : Font.Site) (imaging : Imaging δ) (make : Nat → Known → Rasterizer δ)
    (markup : String) (p : Path) (c : Configuration) (done : List Deed) (b : Bitmap)
    (s : Saving) (bytes : List UInt8) : Prop where
  made : ∃ chain, selectChainAt make (c.valueOf "rasterizers") = .ok chain ∧
    (toBitmap site imaging chain (.ofSettings markup c)).result = .ok b
  extent : s.extent = b.extent
  suits : Suits p c s
  encoded : imaging.encode s b = .ok bytes
  deeds : ∃ before : List Deed, SpareFiles before ∧
    done = before ++ [.encoderAsked s, .fileWritten p.text bytes]
  folders : foldersLeft done = []
  files : Tree.Updates site.files (filesLeft site.files done) p.text bytes

/-- What an export does to files. -/
structure WritesLast (site : Font.Site) (imaging : Imaging δ) (make : Nat → Known → Rasterizer δ)
    (markup output : String) (c : Configuration) : Prop where
  /-- An ending that is not supported comes before all else, and no rasterizer has a part in it. -/
  unsupported : ending (Path.ofText output) ∉ endings → ∀ others : Nat → Known → Rasterizer δ,
    exportAt site imaging others markup output c =
      ⟨[], [], .error (.unsupportedFormat (Path.ofText output).suffix)⟩
  /-- Names of which no chain can be made come next, and no rasterizer has a part in that either. -/
  unselected : ending (Path.ofText output) ∈ endings →
    ∀ fault, NamesNoChain (c.valueOf "rasterizers") fault → ∀ others : Nat → Known → Rasterizer δ,
      exportAt site imaging others markup output c = ⟨[], [], .error fault⟩
  /-- Files are touched only once there is a bitmap of the label. -/
  made : (∃ d ∈ (exportAt site imaging make markup output c).deeds, d.touchesFile = true) →
    ∃ chain b, selectChainAt make (c.valueOf "rasterizers") = .ok chain ∧
      (toBitmap site imaging chain (.ofSettings markup c)).result = .ok b
  /-- A cause before the encoder leaves all files as they were. -/
  spared : ∀ fault, (exportAt site imaging make markup output c).result = .error fault →
    BeforeEncoder fault →
      SpareFiles (exportAt site imaging make markup output c).deeds ∧
        filesLeft site.files (exportAt site imaging make markup output c).deeds = site.files
  /-- An export that comes to its end has written its file. -/
  written : ∀ text, (exportAt site imaging make markup output c).result = .ok text →
    text = (Path.ofText output).text ∧ ∃ b s bytes,
      Writes site imaging make markup (Path.ofText output) c
        (exportAt site imaging make markup output c).deeds b s bytes

section Ends

variable {make : Nat → Known → Rasterizer δ} {markup output : String} {c : Configuration}
variable {chain : Rasterizer δ} {f : Format} {fault : Fault} {p : Path} {before : List Deed}

/-- A bitmap that is saved after deeds that spare files is written as one file. -/
theorem writes_of_save (himaging : imaging.ResizesAsAsked) (hf : formatOf p = .ok f)
    (hchain : selectChainAt make (c.valueOf "rasterizers") = .ok chain)
    (hb : (toBitmap site imaging chain (.ofSettings markup c)).result = .ok b)
    (hbefore : SpareFiles before)
    (hsave : (save site.files imaging b ((targetOf p f c).saving b)).result = .ok ()) :
    ∃ bytes, Writes site imaging make markup p c
      (before ++ (save site.files imaging b ((targetOf p f c).saving b)).deeds) b
      ((targetOf p f c).saving b) bytes := by
  obtain ⟨hwrite, bytes, hencode, hdeeds⟩ := save_of_ok hsave
  rw [hdeeds]
  refine ⟨bytes, ⟨chain, hchain, hb⟩, rfl, suits_saving hf (size_of_toBitmap himaging hb), hencode,
    ⟨before, hbefore, rfl⟩, foldersLeft_append hbefore.folders, ?_⟩
  rw [hbefore.filesLeft_append]
  exact Tree.updates_write hwrite _

/-- An export that ends early and spares all files writes last. -/
theorem writesLast_of_spareFiles
    (hdeeds : SpareFiles (exportAt site imaging make markup output c).deeds)
    (hresult : (exportAt site imaging make markup output c).result = .error fault) :
    WritesLast site imaging make markup output c where
  unsupported h _ := exportAt_of_unsupported h
  unselected h _ hnames _ := exportAt_of_namesNoChain h hnames
  made := by
    rintro ⟨d, hd, htouches⟩
    rw [hdeeds.untouched d hd] at htouches
    cases htouches
  spared _ _ _ := ⟨hdeeds, hdeeds.filesLeft _⟩
  written text htext := by
    rw [hresult] at htext
    cases htext

/-- An export that ends before any deed writes last. -/
theorem writesLast_of_idle
    (h : exportAt site imaging make markup output c = ⟨[], [], .error fault⟩) :
    WritesLast site imaging make markup output c :=
  writesLast_of_spareFiles (by rw [h]; exact .nil) (by rw [h])

/-- An export with a chain whose bitmap is made without touching a file writes last. -/
theorem writesLast_of_chain (hresizes : imaging.ResizesAsAsked)
    (hrefuses : imaging.RefusesAsEncoder) (hf : formatOf (Path.ofText output) = .ok f)
    (hchain : selectChainAt make (c.valueOf "rasterizers") = .ok chain)
    (hspare : SpareFiles (toBitmap site imaging chain (.ofSettings markup c)).deeds) :
    WritesLast site imaging make markup output c := by
  cases hb : (toBitmap site imaging chain (.ofSettings markup c)).result with
  | error fault =>
      obtain ⟨hdeeds, hresult⟩ := exportAt_of_toBitmap_error hf hchain hb
      rw [← hdeeds] at hspare
      exact writesLast_of_spareFiles hspare hresult
  | ok b =>
      obtain ⟨hdeeds, hresult⟩ := exportAt_of_toBitmap_ok hf hchain hb
      refine ⟨fun h _ => exportAt_of_unsupported h,
        fun h _ hnames _ => exportAt_of_namesNoChain h hnames, fun _ => ⟨chain, b, hchain, hb⟩,
        ?spared, ?written⟩
      case spared =>
        intro fault hfault hearly
        rw [hresult] at hfault
        cases hsave : (save site.files imaging b
            ((targetOf (Path.ofText output) f c).saving b)).result with
        | error other =>
            rw [hsave] at hfault
            obtain rfl := Except.error.inj hfault
            exact absurd hearly (not_beforeEncoder_of_save hrefuses hsave)
        | ok _ =>
            rw [hsave] at hfault
            cases hfault
      case written =>
        intro text htext
        rw [hresult] at htext
        obtain ⟨_, hsave, htext⟩ := Fault.bind_eq_ok_iff.mp htext
        refine ⟨(Except.ok.inj htext).symm, b, (targetOf (Path.ofText output) f c).saving b, ?_⟩
        rw [hdeeds]
        exact writes_of_save hresizes hf hchain hb hspare hsave

end Ends

/-- An export writes last. With the rasterizers of machines, each place of the chain on its own, an
ending that is not supported and then names of no chain end it before any rasterizer is asked;
nothing that goes wrong before the encoder is asked touches a file; and if it comes to its end, it
has written one file, in the format of the ending and with what the configuration says. The library
resizes as it is asked to and refuses to encode for an encoder's causes only. -/
theorem exportAt_writesLast (site : Font.Site) {imaging : Imaging (List UInt8)}
    (hresizes : imaging.ResizesAsAsked) (hrefuses : imaging.RefusesAsEncoder)
    (machines : Nat → Machine) (markup output : String) (c : Configuration) :
    WritesLast site imaging (fun i => (machines i).rasterizer) markup output c := by
  by_cases hending : ending (Path.ofText output) ∈ endings
  · cases hchain : selectChainAt (fun i => (machines i).rasterizer) (c.valueOf "rasterizers") with
    | error fault =>
        exact writesLast_of_idle
          (exportAt_of_namesNoChain hending (selectChainAt_eq_error_iff.mp hchain))
    | ok chain =>
        obtain ⟨f, hf⟩ := formatOf_of_supported hending
        exact writesLast_of_chain hresizes hrefuses hf hchain (spareFiles_toBitmap fun q =>
          spareFiles_selectChainAt (fun i k r => spareFiles_machine (machines i) k r) hchain q)
  · exact writesLast_of_idle (exportAt_of_unsupported hending)

/-! ## An export of a label with a box -/

/-- A picture file of the label's extent, with nothing black on it. -/
def blankFile : List UInt8 := Text.utf8 "P4\n10 10\n" ++ List.replicate 20 0

/-- A library for picture files, with encoders of the usual demands that write the channels. -/
def fileImaging : Imaging (List UInt8) where
  read := Picture.ofBytes
  resize := resizeUniform
  encode s b := s.check.map fun _ => b.cells.toList.flatMap fun c => [c.red, c.green, c.blue]

theorem refusesAsEncoder_fileImaging : fileImaging.RefusesAsEncoder := by
  intro s b fault h
  apply ofEncoder_of_check
  cases hcheck : s.check with
  | ok _ =>
      simp only [fileImaging, hcheck] at h
      cases h
  | error other =>
      simp only [fileImaging, hcheck] at h
      exact congrArg _ (Except.error.inj h)

/-- A machine whose tool draws a blank picture whatever the document is. -/
def blankMachine : Machine where
  tool := { found := true, run := fun _ _ => .exited 0 "" "" (some blankFile) }
  folder := "work"
  library := .unusable "No module named 'cairosvg'"

/-- Settings for labels of ten pixels by ten. -/
def inchSettings : Configuration :=
  [("width_inches", .int 1), ("height_inches", .int 1), ("dpi", .int 10),
   ("rasterizers", .list [.text (Known.name .rsvgConvert)])]

/-- The tool's picture is the bitmap of the label. -/
theorem exists_toBitmap_blank : ∃ chain b,
    selectChainAt (fun _ => blankMachine.rasterizer) (inchSettings.valueOf "rasterizers") =
        .ok chain ∧
      (toBitmap .small fileImaging chain (.ofSettings boxLabel.markup inchSettings)).result =
        .ok b ∧
      b.extent = boxExtent := by
  obtain ⟨chain, hchain, hask⟩ :=
    exists_selectChainAt (fun _ => blankMachine.rasterizer) .rsvgConvert []
  have hten : isWritable (10 : Nat) = true := by decide +kernel
  have hsize : (LabelSource.ofSettings boxLabel.markup inchSettings).size =
      .ok ((boxExtent.width : Int), (boxExtent.height : Int)) := by decide +kernel
  have hconverts : (convert .small (.ofSettings boxLabel.markup inchSettings)).result.isOk =
      true := by decide +kernel
  have hreads : (fileImaging.read blankFile).toOption.map (·.layers.extent) = some boxExtent := by
    decide +kernel
  cases hdocument : (convert .small (.ofSettings boxLabel.markup inchSettings)).result with
  | error fault =>
      rw [hdocument] at hconverts
      cases hconverts
  | ok document =>
      cases hread : fileImaging.read blankFile with
      | error fault =>
          rw [hread] at hreads
          cases hreads
      | ok p =>
          rw [hread] at hreads
          have hdeliverable : Deliverable ⟨document, boxExtent.width, boxExtent.height⟩ :=
            ⟨by simp, hten, hten⟩
          obtain ⟨order, horder⟩ := @RsvgConvert.exists_order_of_deliverable
            blankMachine.tool blankMachine.folder _ hdeliverable
          have hdata : (chain.rasterize ⟨document, boxExtent.width, boxExtent.height⟩).result =
              .ok blankFile := by
            rw [hask]
            exact result_askFrom_eq_ok_iff.mpr
              ⟨0, .rsvgConvert, ⟨rfl, nofun⟩, rfl, order, horder, "", "", rfl⟩
          have hextent := p.extent_flatten.trans (Option.some.inj hreads)
          refine ⟨chain, p.flatten, hchain, ?_, hextent⟩
          rw [(toBitmap_eq fileImaging chain hsize hdocument).2, result_rasterize_of_read hdata,
            pictureOf, hread]
          exact fit_of_extent hextent

/-- An export that comes to its end. -/
theorem exportAt_writesLast_blank :
    fileImaging.ResizesAsAsked ∧ fileImaging.RefusesAsEncoder ∧ ∃ b s bytes,
      Writes .small fileImaging (fun _ => blankMachine.rasterizer) boxLabel.markup
        (Path.ofText "./box.PNG") inchSettings
        (exportAt .small fileImaging (fun _ => blankMachine.rasterizer) boxLabel.markup "./box.PNG"
          inchSettings).deeds b s bytes := by
  have hresizes : fileImaging.ResizesAsAsked := fun _ _ _ _ => sides_of_resizeUniform
  obtain ⟨chain, b, hchain, hb, hextent⟩ := exists_toBitmap_blank
  have hf : formatOf (Path.ofText "./box.PNG") = .ok .png := by decide +kernel
  have hsaving : (targetOf (Path.ofText "./box.PNG") .png inchSettings).saving b =
      ⟨"box.PNG", .png, boxExtent, .int 9, .int 10⟩ := by
    rw [Target.saving, hextent]
    rfl
  have hsave : (save Font.Site.small.files fileImaging b
      ⟨"box.PNG", .png, boxExtent, .int 9, .int 10⟩).result = .ok () := by
    have hwrite : Font.Site.small.files.writeFault? "box.PNG" = none := by decide +kernel
    have hcheck : Saving.check ⟨"box.PNG", .png, boxExtent, .int 9, .int 10⟩ = .ok () := by
      decide +kernel
    simp only [save, hwrite, fileImaging, hcheck, Except.map]
  have hresult := (exportAt_of_toBitmap_ok hf hchain hb).2
  rw [hsaving, hsave] at hresult
  exact ⟨hresizes, refusesAsEncoder_fileImaging,
    ((exportAt_writesLast .small hresizes refusesAsEncoder_fileImaging (fun _ => blankMachine)
      boxLabel.markup "./box.PNG" inchSettings).written _ hresult).2⟩

end Label

end LabelPress
