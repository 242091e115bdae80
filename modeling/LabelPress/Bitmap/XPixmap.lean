import LabelPress.Bitmap.XBitmap
import LabelPress.Entries
import LabelPress.Text.Cut

/-!
# X pixmaps

A picture in the form of a program text. Quoted lines give its size and how many keys it has, of how
many bytes each, then the colour of every key, and then the rows as keys.
-/

namespace LabelPress.Bitmap.XPixmap

open LabelPress.Bitmap.Portable LabelPress.Bitmap.XBitmap

/-- The comment that files start with. -/
def startWord : List UInt8 := plainBytes "/* XPM */"

/-- The quotation mark. -/
def quote : UInt8 := plainByte '"'

/-- The bytes between the first quotation mark of a line and its last one. -/
def quotedPart (line : List UInt8) : List UInt8 :=
  (Text.dropEndWhile (· != quote) ((line.dropWhile (· != quote)).drop 1)).dropLast

/-! ## The header -/

/-- Runs of digits with single spaces between them, as many as asked for. -/
def digitRuns? : (count : Nat) → List UInt8 → Option (List (List UInt8))
  | 0, _ => some []
  | count + 1, bytes =>
    let run := bytes.takeWhile isDigit
    if count = 0 then some [run]
    else match bytes.dropWhile isDigit with
      | b :: rest => if b = plainByte ' ' then (digitRuns? count rest).map (run :: ·) else none
      | [] => none

/-- What the first quoted line says. -/
structure Header where
  width : Nat
  height : Nat
  keyCount : Nat
  keyLength : Nat
deriving Repr

/-- The number of a run of digits. -/
def numberOf (run : List UInt8) : Except Flaw Nat := (integerOf run).map Int.toNat

/-- The header that a line holds, if it starts with four numbers in quotes. -/
def headerOf? (line : List UInt8) : Option (Except Flaw Header) :=
  match line with
  | [] => none
  | b :: rest =>
    if b = quote then
      match digitRuns? 4 rest with
      | some [width, height, keyCount, keyLength] => some do
          return ⟨← numberOf width, ← numberOf height, ← numberOf keyCount, ← numberOf keyLength⟩
      | _ => none
    else none

/-- The first header among lines, and the lines after it. -/
def header? : List (List UInt8) → Option (Except Flaw Header × List (List UInt8))
  | [] => none
  | line :: rest =>
    match headerOf? line with
    | some h => some (h, rest)
    | none => header? rest

/-! ## Keys -/

/-- The number that hexadecimal digits spell. -/
def hexNumber (token : List UInt8) : Except Flaw Nat :=
  if token.isEmpty then .error (.noHexInteger token)
  else
    match token.mapM fun b => Text.hexValue? (Char.ofNat b.toNat) with
    | some digits => .ok (digits.foldl (fun n d => 16 * n + d) 0)
    | none => .error (.noHexInteger token)

/-- The colour of a number, whose lowest byte is the blue one. -/
def colorOf (n : Nat) : Rgb := ⟨.ofNat (n / 65536), .ofNat (n / 256), .ofNat n⟩

/-- The colour that a token names, or none where nothing is painted. -/
def paintOf (token : List UInt8) : Except Flaw (Option Rgb) :=
  if token = plainBytes "None" then .ok none
  else match token with
    | [] => .error .noColor
    | b :: digits =>
      if b = plainByte '#' then (hexNumber digits).map fun n => some (colorOf n)
      else .error .noColor

/-- The paint among the names and values that follow a key. -/
def paintAmong : List (List UInt8) → Except Unread (Option Rgb)
  | name :: value :: rest =>
    if name = plainBytes "c" then (paintOf value).mapError .flawed else paintAmong rest
  | [name] => .error (if name = plainBytes "c" then .unknown else .flawed .noColor)
  | [] => .error (.flawed .noColor)

/-- The colours of keys, and the last key that stands for no paint. -/
structure Keys where
  colors : Entries (List UInt8) Rgb
  clear? : Option (List UInt8)
deriving Repr

/-- The keys with one that a line defines. The line ends with a quotation mark and a comma. -/
def Keys.define (ks : Keys) (keyLength : Nat) (line : List UInt8) : Except Unread Keys := do
  let line := Text.dropEndWhile isSpace line
  let key := (line.drop 1).take keyLength
  match ← paintAmong (tokens ((line.take (line.length - 2)).drop (keyLength + 1))) with
  | some color => return { ks with colors := Entries.put key color ks.colors }
  | none => return { ks with clear? := some key }

/-- The keys that as many lines define, and the lines after them. -/
def Keys.read (keyLength : Nat) :
    (count : Nat) → Keys → List (List UInt8) → Except Unread (Keys × List (List UInt8))
  | 0, ks, lines => .ok (ks, lines)
  | count + 1, ks, lines => do
    let ks ← ks.define keyLength (lines.head?.getD [])
    Keys.read keyLength count ks lines.tail

/-! ## Pictures -/

/-- The bytes in runs of one more than a length, and what is left at the end. -/
def runs (less : Nat) : List UInt8 → List (List UInt8)
  | [] => []
  | b :: rest => (b :: rest.take less) :: runs less (rest.drop less)
termination_by bytes => bytes.length
decreasing_by simp only [List.length_cons, List.length_drop]; omega

/-- What the keys in quoted lines stand for, until there are enough. -/
def places {α : Type} (keyLength : Nat) (find? : List UInt8 → Option α) :
    (needed : Nat) → List (List UInt8) → Except Flaw (List α)
  | 0, _ => .ok []
  | _, [] => .error .tooFewSamples
  | needed, line :: rest =>
    match (runs (keyLength - 1) (quotedPart line)).mapM find? with
    | none => .error .unknownKey
    | some found => (places keyLength find? (needed - found.length) rest).map (found ++ ·)

/-- How many keys an indexed picture can have. -/
def indexLimit : Nat := 256

/-- The picture of rows of keys. One of more keys than there are indices holds the colours
themselves. -/
def picture (h : Header) (ks : Keys) (extent : Extent) (lines : List (List UInt8)) :
    Except Flaw Picture :=
  if indexLimit < h.keyCount then
    (places h.keyLength (fun key => Entries.get? key ks.colors) extent.area lines).map fun colors =>
      let colors := colors.toArray
      .rgb (.ofFn extent fun p => colors.getD p (.grey 0)) none
  else
    let index? key := (Entries.keys ks.colors).findIdx? (· = key)
    let opacities := match ks.clear? with
      | some key => .levels key
      | none => .covering
    (places h.keyLength index? extent.area lines).map fun indices =>
      let indices := indices.toArray
      .indexed ⟨ks.colors.map Prod.snd, opacities⟩
        (.ofFn extent fun p => .ofNat (indices.getD p 0))

/-- The picture of a file, if it starts like one of this format. -/
def read? (bytes : List UInt8) : Option (Except Unread Picture) := do
  let rest ← startWord.isPrefixOf? bytes
  return match header? (rest.splitOn (plainByte '\n')) with
    | none => .error .unknown
    | some (.error flaw, _) => .error (.flawed flaw)
    | some (.ok h, lines) => do
      let (ks, lines) ← Keys.read h.keyLength h.keyCount ⟨[], none⟩ lines
      let extent ← extentOf h.width h.height
      (picture h ks extent lines).mapError .flawed

end LabelPress.Bitmap.XPixmap
