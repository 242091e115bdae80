import LabelPress.Text.CodePoint
import LabelPress.Text.Hex
import LabelPress.Text.Printable

/-!
# Quoted texts

A text in messages stands between single quotes, or between double quotes if it holds a single
one and no double one. The quote and the backslash are escaped by a backslash, and every code point
that is not printable is spelt by its number.
-/

namespace LabelPress.Text

/-- The single quote. -/
def singleQuote : Char := Char.ofNat 0x27

/-- The double quote. -/
def doubleQuote : Char := Char.ofNat 0x22

/-- The quotes that a text is put between. -/
def quoteFor (s : CodePoints) : Char :=
  if s.contains (.char singleQuote) && !s.contains (.char doubleQuote) then doubleQuote
  else singleQuote

/-- A code point spelt by its number. -/
def numbered (n : Nat) : List Char :=
  if n ≤ 0xFF then '\\' :: 'x' :: hexDigits 2 n
  else if n ≤ 0xFFFF then '\\' :: 'u' :: hexDigits 4 n
  else '\\' :: 'U' :: hexDigits 8 n

/-- A character as it stands between quotes. -/
def quoteChar (quote c : Char) : List Char :=
  if c = quote ∨ c = '\\' then ['\\', c]
  else if c = '\t' then ['\\', 't']
  else if c = '\n' then ['\\', 'n']
  else if c = '\r' then ['\\', 'r']
  else if isPrintable c then [c]
  else numbered c.toNat

/-- A code point as it stands between quotes. -/
def quotePoint (quote : Char) : CodePoint → List Char
  | .char c => quoteChar quote c
  | p => numbered p.value

/-- The text between its quotes. -/
def quoted (s : CodePoints) : String :=
  let q := quoteFor s
  String.ofList (q :: s.flatMap (quotePoint q) ++ [q])

/-- A byte as it stands between quotes: that of a plain character like the character. -/
def quoteByte (quote : Char) (b : UInt8) : List Char :=
  if b.toNat < 0x80 then quoteChar quote (Char.ofNat b.toNat) else numbered b.toNat

/-- Bytes between their quotes. -/
def quotedBytes (bytes : List UInt8) : String :=
  let q := quoteFor (bytes.map fun b => .char (Char.ofNat b.toNat))
  String.ofList ('b' :: q :: bytes.flatMap (quoteByte q) ++ [q])

end LabelPress.Text
