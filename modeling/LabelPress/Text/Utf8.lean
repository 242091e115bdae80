import LabelPress.Text.Hex

/-!
# UTF-8

Texts as bytes, and strict decoding. A decoder stops at the first byte that no well-formed text
can have there and names the bytes of the broken character.
-/

namespace LabelPress.Text

/-- The bytes of a text. -/
def utf8 (s : String) : List UInt8 := s.toUTF8.toList

namespace Utf8

/-- Why bytes are no text. -/
inductive Flaw
  | startByte
  | continuationByte
  | endOfData
deriving DecidableEq, Repr

/-- A flaw at an offset, with the bytes of the character that it breaks. -/
structure Damage where
  flaw : Flaw
  offset : Nat
  bytes : List UInt8
deriving DecidableEq, Repr

/-- The wording of a flaw. -/
def Flaw.message : Flaw → String
  | startByte => "invalid start byte"
  | continuationByte => "invalid continuation byte"
  | endOfData => "unexpected end of data"

/-- The wording of a damage: one byte is shown, several are given by their offsets. -/
def Damage.message (d : Damage) : String :=
  let place := match d.bytes with
    | [b] => "byte 0x" ++ hexBytes [b] ++ " in position " ++ toString d.offset
    | bytes => "bytes in position " ++ toString d.offset ++ "-"
      ++ toString (d.offset + bytes.length - 1)
  "'utf-8' codec can't decode " ++ place ++ ": " ++ d.flaw.message

/-- What a first byte asks of the bytes after it. -/
structure Lead where
  /-- How many bytes follow. -/
  following : Nat
  /-- The least value of the next byte. -/
  least : Nat
  /-- The greatest value of the next byte. -/
  greatest : Nat
  /-- The bits that the first byte gives. -/
  bits : Nat

/-- The demands of a first byte, if a character can start with it. -/
def lead? (b : Nat) : Option Lead :=
  if b < 0x80 then some ⟨0, 0, 0, b⟩
  else if b < 0xC2 then none
  else if b < 0xE0 then some ⟨1, 0x80, 0xBF, b - 0xC0⟩
  else if b = 0xE0 then some ⟨2, 0xA0, 0xBF, 0⟩
  else if b = 0xED then some ⟨2, 0x80, 0x9F, b - 0xE0⟩
  else if b < 0xF0 then some ⟨2, 0x80, 0xBF, b - 0xE0⟩
  else if b = 0xF0 then some ⟨3, 0x90, 0xBF, 0⟩
  else if b < 0xF4 then some ⟨3, 0x80, 0xBF, b - 0xF0⟩
  else if b = 0xF4 then some ⟨3, 0x80, 0x8F, b - 0xF0⟩
  else none

/-- The character whose `following` last bytes are next, with the bytes after it. `taken` holds
the bytes before, the last first. -/
def finish (taken : List UInt8) (bits following least greatest : Nat) (bytes : List UInt8) :
    Except (Flaw × List UInt8) (Char × List UInt8) :=
  match following, bytes with
  | 0, rest => .ok (Char.ofNat bits, rest)
  | _ + 1, [] => .error (.endOfData, taken.reverse)
  | n + 1, b :: rest =>
    if least ≤ b.toNat ∧ b.toNat ≤ greatest then
      finish (b :: taken) (bits * 64 + (b.toNat - 0x80)) n 0x80 0xBF rest
    else .error (.continuationByte, taken.reverse)

theorem length_finish {taken : List UInt8} {bits n least greatest : Nat} {bytes rest : List UInt8}
    {c : Char} (h : finish taken bits n least greatest bytes = .ok (c, rest)) :
    rest.length ≤ bytes.length := by
  induction bytes generalizing taken bits n least greatest with
  | nil => cases n <;> simp_all [finish]
  | cons b bs ih =>
    cases n with
    | zero => simp_all [finish]
    | succ n =>
      simp only [finish] at h
      split at h
      · exact Nat.le_succ_of_le (ih h)
      · cases h

/-- The characters of bytes that start at an offset. -/
def decodeFrom (offset : Nat) (bytes : List UInt8) : Except Damage (List Char) :=
  match bytes with
  | [] => .ok []
  | b :: rest =>
    match lead? b.toNat with
    | none => .error ⟨.startByte, offset, [b]⟩
    | some lead =>
      match h : finish [b] lead.bits lead.following lead.least lead.greatest rest with
      | .error (flaw, broken) => .error ⟨flaw, offset, broken⟩
      | .ok (c, after) =>
        have := length_finish h
        (decodeFrom (offset + (bytes.length - after.length)) after).map (c :: ·)
termination_by bytes.length
decreasing_by simp_wf; omega

end Utf8

/-- The text that bytes spell. -/
def ofUtf8 (bytes : List UInt8) : Except Utf8.Damage String :=
  (Utf8.decodeFrom 0 bytes).map String.ofList

end LabelPress.Text
