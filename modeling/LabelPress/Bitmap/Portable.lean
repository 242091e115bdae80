import LabelPress.Bitmap.Flaw
import LabelPress.Bitmap.Picture
import LabelPress.Number.Reading

/-!
# Portable any-maps

A header of tokens names the kind of the picture, its size and its greatest sample. The samples
follow either in plain digits or in raw bytes, and they are scaled to the range of a byte.
-/

namespace LabelPress.Bitmap.Portable

open LabelPress.Number

/-- What the samples of a place are. -/
inductive Kind
  | bilevel
  | grey
  | index
  | rgb
  | rgba
  | cmyk
deriving DecidableEq, Repr

/-- How many samples a place has. -/
def Kind.channels : Kind → Nat
  | bilevel | grey | index => 1
  | rgb => 3
  | rgba | cmyk => 4

/-- How samples are written. -/
inductive Coding
  | plain
  | raw
deriving DecidableEq, Repr

/-- The words that files start with. -/
def words : List (String × Kind × Coding) :=
  [("P1", .bilevel, .plain), ("P2", .grey, .plain), ("P3", .rgb, .plain), ("P4", .bilevel, .raw),
   ("P5", .grey, .raw), ("P6", .rgb, .raw), ("P0CMYK", .cmyk, .raw), ("PyP", .index, .raw),
   ("PyRGBA", .rgba, .raw), ("PyCMYK", .cmyk, .raw)]

/-- A byte of a plain character. -/
def plainByte (c : Char) : UInt8 := .ofNat c.toNat

/-- Whether a byte separates tokens. -/
def isSpace (b : UInt8) : Bool := b = plainByte ' ' || (9 ≤ b && b ≤ 13)

/-- Whether a byte ends a line, and a comment with it. -/
def endsLine (b : UInt8) : Bool := b = plainByte '\n' || b = plainByte '\r'

/-! ## The header -/

/-- The most bytes that a token may have. -/
def tokenLimit : Nat := 10

/-- The word at the start and what follows it and the byte after it. At most six bytes belong to
it. -/
def wordFrom : (left : Nat) → List UInt8 → List UInt8 × List UInt8
  | 0, bytes => ([], bytes)
  | _, [] => ([], [])
  | left + 1, b :: rest =>
    if isSpace b then ([], rest)
    else
      let (word, rest) := wordFrom left rest
      (b :: word, rest)

/-- The next token and what follows it and the byte after it. `taken` holds its bytes so far, the
last first. A comment does not end a token, and a byte too many does. -/
def tokenFrom (inComment : Bool) (taken : List UInt8) : List UInt8 → List UInt8 × List UInt8
  | [] => (taken.reverse, [])
  | b :: rest =>
    if inComment then tokenFrom (!endsLine b) taken rest
    else if isSpace b then
      if taken.isEmpty then tokenFrom false taken rest else (taken.reverse, rest)
    else if b = plainByte '#' then tokenFrom true taken rest
    else if taken.length = tokenLimit then ((b :: taken).reverse, rest)
    else tokenFrom false (b :: taken) rest

/-- The text of a token, if it is of plain characters. -/
def textOf? (token : List UInt8) : Option String :=
  if token.all (· < 0x80) then some (String.ofList (token.map fun b => Char.ofNat b.toNat))
  else none

/-- The integer that a token spells. -/
def integerOf (token : List UInt8) : Except Flaw Int :=
  match (textOf? token).bind integerOfText? with
  | some n => .ok n
  | none => .error (.noInteger token)

/-- A token of the header and what follows it. -/
def headerToken (bytes : List UInt8) : Except Flaw (List UInt8 × List UInt8) :=
  let (token, rest) := tokenFrom false [] bytes
  if token.isEmpty then .error .headerEnds
  else if tokenLimit < token.length then .error (.longHeaderToken token)
  else .ok (token, rest)

/-- An integer of the header and what follows it. -/
def headerInteger (bytes : List UInt8) : Except Flaw (Int × List UInt8) := do
  let (token, rest) ← headerToken bytes
  return (← integerOf token, rest)

/-- The extent of a picture of a width and a height. -/
def extentOf (width height : Int) : Except Unread Extent :=
  match Extent.ofInts? width height with
  | none => .error .unknown
  | some extent =>
    if Flaw.placeLimit < extent.area then .error (.flawed (.tooManyPlaces extent.area))
    else .ok extent

/-- A header, and the bytes after it. -/
structure Header where
  kind : Kind
  coding : Coding
  width : Int
  height : Int
  greatest : Nat
  samples : List UInt8
deriving Repr

/-- The header after a word. A picture of bits has no greatest sample of its own. -/
def header (kind : Kind) (coding : Coding) (bytes : List UInt8) : Except Flaw Header := do
  let (width, rest) ← headerInteger bytes
  let (height, rest) ← headerInteger rest
  if kind = .bilevel then return ⟨kind, coding, width, height, 1, rest⟩
  else
    let (greatest, rest) ← headerInteger rest
    if 0 < greatest ∧ greatest < 65536 then
      return ⟨kind, coding, width, height, greatest.toNat, rest⟩
    else .error .greatestSample

/-! ## Samples -/

/-- Whether the samples are wider than a byte even when scaled: those of a grey picture whose
greatest sample is. -/
def Header.isWide (h : Header) : Bool := h.kind = .grey && 255 < h.greatest

/-- The top of the range that samples are scaled to. -/
def Header.top (h : Header) : Nat := if h.isWide then 65535 else 255

/-- A sample scaled to its range, and cut off at the top of a byte. -/
def Header.scaled (h : Header) (sample : Nat) : UInt8 :=
  let share := (Binary64.ofRatio false sample h.greatest).mul (.ofRatio false h.top 1)
  match share.nearest with
  | .ok n => .ofNat (min n.toNat 255)
  | .error _ => 255

/-- Whether raw samples stand as they are to be, with nothing to scale. -/
def Header.isExact (h : Header) : Bool :=
  h.greatest = 255 || h.greatest = 65535 && h.kind = .grey

/-- Pairs of bytes, the higher one first. -/
def pairs : List UInt8 → List Nat
  | high :: low :: rest => (256 * high.toNat + low.toNat) :: pairs rest
  | _ => []

/-- The samples in raw bytes, one or two for each. -/
def Header.rawSamples (h : Header) : List Nat :=
  if h.greatest < 256 then h.samples.map UInt8.toNat else pairs h.samples

/-- The bytes without their comments, each of which ends with its line. -/
def withoutComments (inComment : Bool) : List UInt8 → List UInt8
  | [] => []
  | b :: rest =>
    if inComment then withoutComments (!endsLine b) rest
    else if b = plainByte '#' then withoutComments true rest
    else b :: withoutComments false rest

/-- The runs of bytes between spaces. -/
def tokens (bytes : List UInt8) : List (List UInt8) :=
  (bytes.splitOnP isSpace).filter fun t => !t.isEmpty

/-- A sample in plain digits. -/
def sampleOf (h : Header) (token : List UInt8) : Except Flaw UInt8 := do
  if tokenLimit < token.length then .error (.longToken (token.take (tokenLimit + 1)))
  else
    let n ← integerOf token
    if n < 0 then .error (.negativeSample n)
    else if (h.greatest : Int) < n then .error (.largeSample n)
    else return h.scaled n.toNat

/-- The samples in plain digits, as many as are needed. The last token, if no space ends it, is
measured before all others. -/
def plainSamples (h : Header) (needed : Nat) : Except Flaw (List UInt8) := do
  let bytes := withoutComments false h.samples
  let tokens := tokens bytes
  let last := tokens.getLast?.getD []
  if !bytes.getLast?.any isSpace && tokenLimit < last.length then
    .error (.longToken (last.take (tokenLimit + 1)))
  else (tokens.take needed).mapM (sampleOf h)

/-- The bits in plain digits. Spaces between them may be left out. -/
def plainBits (bytes : List UInt8) : Except Flaw (List UInt8) :=
  ((withoutComments false bytes).filter fun b => !isSpace b).mapM fun b =>
    if b = plainByte '0' || b = plainByte '1' then .ok b else .error (.noBit b)

/-! ## Pictures -/

/-- The sample of a place, counted from its first. -/
def sample (samples : Array UInt8) (kind : Kind) (place channel : Nat) : UInt8 :=
  samples.getD (kind.channels * place + channel) 0

/-- The share of a byte in another. -/
def shareOf (a b : Nat) : Nat :=
  let t := a * b + 128
  (t / 256 + t) / 256

/-- The channel that an ink leaves of the light that black leaves. -/
def inked (ink black : UInt8) : UInt8 :=
  let light := 255 - black.toNat
  .ofNat (light - shareOf ink.toNat light)

/-- The picture of samples. -/
def picture (kind : Kind) (extent : Extent) (samples : Array UInt8) : Picture :=
  let s := sample samples kind
  match kind with
  | .bilevel => .bilevel (.ofFn extent fun p => s p 0 = plainByte '0') none
  | .grey | .index => .grey (.ofFn extent fun p => s p 0) none
  | .rgb => .rgb (.ofFn extent fun p => ⟨s p 0, s p 1, s p 2⟩) none
  | .rgba => .rgba (.ofFn extent fun p => ⟨⟨s p 0, s p 1, s p 2⟩, s p 3⟩)
  | .cmyk => .rgb (.ofFn extent fun p =>
      ⟨inked (s p 0) (s p 3), inked (s p 1) (s p 3), inked (s p 2) (s p 3)⟩) none

/-- The picture of packed bits, eight of them in a byte and each row in bytes of its own. A bit that
is set is black. -/
def packedPicture (extent : Extent) (bytes : Array UInt8) : Picture :=
  let stride := (extent.width + 7) / 8
  .bilevel (.ofFn extent fun p =>
    let column := p % extent.width
    !(bytes.getD (p / extent.width * stride + column / 8) 0).toNat.testBit (7 - column % 8)) none

/-- The picture after a header, of an extent. -/
def Header.picture (h : Header) (extent : Extent) : Except Unread Picture :=
  let needed := h.kind.channels * extent.area
  let enough (samples : List UInt8) (fault : Unread) : Except Unread Picture :=
    if samples.length < needed then .error fault
    else .ok (Portable.picture h.kind extent samples.toArray)
  match h.kind, h.coding with
  | .bilevel, .raw =>
    if h.samples.length < (extent.width + 7) / 8 * extent.height then .error .unknown
    else .ok (packedPicture extent h.samples.toArray)
  | .bilevel, .plain =>
    match plainBits h.samples with
    | .error flaw => .error (.flawed flaw)
    | .ok bits => enough bits (.flawed .tooFewSamples)
  | _, .plain =>
    match plainSamples h needed with
    | .error flaw => .error (.flawed flaw)
    | .ok samples => enough samples (.flawed .tooFewSamples)
  | _, .raw =>
    let samples := h.rawSamples.take needed
    if h.isExact then enough (samples.map fun n => .ofNat (min n 255)) .unknown
    else enough (samples.map h.scaled) (.flawed .tooFewSamples)

/-- The picture of a file, if its word is one of this format. -/
def read? (bytes : List UInt8) : Option (Except Unread Picture) := do
  let (word, rest) := wordFrom 6 bytes
  let (_, kind, coding) ← words.find? fun w => w.1.toList.map plainByte = word
  return match header kind coding rest with
    | .error flaw => .error (.flawed flaw)
    | .ok h => (extentOf h.width h.height).bind h.picture

end LabelPress.Bitmap.Portable
